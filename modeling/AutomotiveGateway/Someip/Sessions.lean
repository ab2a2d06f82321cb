import AutomotiveGateway.Someip.Publisher
import AutomotiveGateway.Someip.Subscriber

/-!
# Session ids

Publisher and service discovery service each take the session id of a message from a
16-bit counter that starts at 1. It is incremented behind each message and not kept
away from 0 when it wraps.
-/

namespace AutomotiveGateway.Someip

open AutomotiveGateway.Can ByteOrder Memory Numbering

/-- Session ids are counted from 1, and 0 is not one of them. -/
structure SessionsInRange (sessions : List UInt16) : Prop where
  nonzero : ∀ session ∈ sessions, session ≠ 0
  cyclic : sessions = cyclic sessions.length

/-- Consecutive ids from 1 stay in range as long as there are at most 65535. -/
theorem sessionsInRange_consecutive_iff (count : Nat) :
    SessionsInRange (consecutive 1 count) ↔ count ≤ 65535 := by
  rw [← consecutive_one_eq_cyclic_iff]
  constructor
  · intro hrange
    simpa using hrange.cyclic
  · intro hcyclic
    exact
      { nonzero := by
          intro session hmem
          rw [hcyclic] at hmem
          exact ne_zero_of_mem_cyclic hmem
        cyclic := by simpa using hcyclic }

/-! ## The publisher -/

/-- A call of a public member function of the publisher. -/
inductive PublisherCall (D : Type)
  | registerSignal (signalName : StdString) (serviceId methodId : UInt16)
  | publish (signal : DecodedSignal D)
  | publishFloat (serviceId methodId : UInt16) (value : UInt32)

variable {D : Type} [DoubleOps D]

def SomeIpPublisher.machine (D : Type) [DoubleOps D] :
    Machine SomeIpPublisher (PublisherCall D) (List UInt8 × SockaddrIn) where
  Enabled _ _ := True
  step publisher call :=
    match call with
    | .registerSignal signalName serviceId methodId =>
        some (publisher.registerSignal signalName serviceId methodId, [])
    | .publish signal => publisher.publish signal
    | .publishFloat serviceId methodId value => publisher.publishFloat serviceId methodId value

/-- The session id of a sent message. -/
def sentSession (sent : List UInt8 × SockaddrIn) : UInt16 := readSession sent.1

theorem sessions_announce (publisher : SomeIpPublisher)
    (announcements : List SomeIpPublisher.Announcement) :
    (publisher.announce announcements).2.map sentSession =
      consecutive publisher.session announcements.length := by
  rw [← map_snd_numbered, SomeIpPublisher.announce, List.map_map]
  apply List.map_congr_left
  intro step _
  exact ofBig16_bigBytes16 step.2

theorem SomeIpPublisher.machine_counts :
    (machine D).Counts SomeIpPublisher.session (some ∘ sentSession) := by
  intro publisher call
  cases call with
  | registerSignal signalName serviceId methodId =>
      exact ⟨_, _, rfl, 0, rfl, (UInt16.add_zero _).symm⟩
  | publish signal =>
      refine ⟨_, _, publish_eq publisher signal, _, ?_, rfl⟩
      rw [List.filterMap_eq_map]
      exact sessions_announce publisher (publisher.announcement? signal).toList
  | publishFloat serviceId methodId value =>
      refine ⟨_, _, publishFloat_eq publisher serviceId methodId value, 1, ?_, rfl⟩
      rw [List.filterMap_eq_map]
      exact sessions_announce publisher [(serviceId, methodId, value)]

/-! ## The service discovery service -/

/-- A call of a public member function of the service, an assignment to its callback, or
a datagram that its socket holds for the event loop. -/
inductive SdCall
  | offerService (serviceId : UInt16) (ipv4Addr : UInt32) (port : UInt16)
  | sendOffers
  | setOnSubscribe (present : Bool)
  | onReadable (received : Option (List UInt8 × SockaddrIn))

def SomeIpSdService.machine : Machine SomeIpSdService SdCall SdAction where
  Enabled _ _ := True
  step service call :=
    match call with
    | .offerService serviceId ipv4Addr port =>
        some (service.offerService serviceId ipv4Addr port, [])
    | .sendOffers => service.sendOffers
    | .setOnSubscribe present => some ({ service with onSubscribe := present }, [])
    | .onReadable received => service.onReadable received

/-- The session id of the message sent by an action. -/
def SdAction.session? (action : SdAction) : Option UInt16 := action.sent?.map sentSession

theorem sessions_subscribeAll (service : SomeIpSdService) (subs : List Subscriber) :
    (service.subscribeAll subs).2.filterMap SdAction.session? =
      consecutive service.session subs.length := by
  rw [SomeIpSdService.subscribeAll_eq, ← map_zipIdx_eq_consecutive, List.filterMap_flatMap,
    List.map_eq_flatMap]
  apply List.flatMap_congr
  intro step _
  have hack : readSession (ackImage (service.session + UInt16.ofNat step.2) step.1.serviceId
      step.1.eventgroupId) = service.session + UInt16.ofNat step.2 := readSession_image _ _
  by_cases hset : service.onSubscribe
  · simp [hset, SdAction.session?, SdAction.sent?, sentSession, hack]
  · simp [hset, SdAction.session?, SdAction.sent?, sentSession, hack]

theorem SomeIpSdService.machine_counts :
    machine.Counts SomeIpSdService.session SdAction.session? := by
  intro service call
  have hnone : ∀ next : SomeIpSdService, next.session = service.session →
      ∃ count, ([] : List SdAction).filterMap SdAction.session? =
          consecutive service.session count ∧
        next.session = service.session + UInt16.ofNat count :=
    fun next hsession => ⟨0, rfl, hsession.trans (UInt16.add_zero _).symm⟩
  cases call with
  | offerService serviceId ipv4Addr port => exact ⟨_, _, rfl, hnone _ rfl⟩
  | setOnSubscribe present => exact ⟨_, _, rfl, hnone _ rfl⟩
  | sendOffers =>
      by_cases hempty : service.offered.isEmpty
      · exact ⟨_, _, sendOffers_of_isEmpty hempty, hnone _ rfl⟩
      · refine ⟨_, _, sendOffers_of_offered hempty, 1, ?_, rfl⟩
        simp [SdAction.session?, SdAction.sent?, sentSession, readSession_image, consecutive]
  | onReadable received =>
      cases received with
      | none => exact ⟨_, _, rfl, hnone _ rfl⟩
      | some datagram =>
          have hhandle := service.handleSdMessage_eq (datagram.1.take 1500) datagram.2
          by_cases hsd : IsSd (datagram.1.take 1500)
          · rw [if_pos hsd] at hhandle
            refine ⟨_, _, hhandle, _, sessions_subscribeAll service _, ?_⟩
            rw [subscribeAll_eq]
          · rw [if_neg hsd] at hhandle
            exact ⟨_, _, hhandle, hnone _ rfl⟩

/-! ## Whole runs -/

theorem sessions_publisher {multicastAddr : UInt32} {port : UInt16}
    {calls : List (PublisherCall D)} {last : SomeIpPublisher}
    {sent : List (List UInt8 × SockaddrIn)}
    (hrun : (SomeIpPublisher.machine D).Run (.create multicastAddr port) calls last sent) :
    sent.map sentSession = consecutive 1 sent.length := by
  have hsessions := hrun.consecutive_of_counts SomeIpPublisher.machine_counts
  rwa [List.filterMap_eq_map, List.length_map] at hsessions

theorem sessions_service {calls : List SdCall} {last : SomeIpSdService} {actions : List SdAction}
    (hrun : SomeIpSdService.machine.Run {} calls last actions) :
    actions.filterMap SdAction.session? =
      consecutive 1 (actions.filterMap SdAction.sent?).length := by
  have hsent : actions.filterMap SdAction.session? =
      (actions.filterMap SdAction.sent?).map sentSession := by
    rw [List.map_filterMap]
    rfl
  have hsessions := hrun.consecutive_of_counts SomeIpSdService.machine_counts
  rwa [hsent, List.length_map, ← hsent] at hsessions

/-- In every run the sessions of a publisher, and those of a service discovery service,
are in range exactly as long as it has sent no more than 65535 messages. -/
theorem sessionsInRange_iff :
    (∀ multicastAddr port (calls : List (PublisherCall D)) last sent,
      (SomeIpPublisher.machine D).Run (.create multicastAddr port) calls last sent →
      (SessionsInRange (sent.map sentSession) ↔ sent.length ≤ 65535)) ∧
    (∀ calls last actions,
      SomeIpSdService.machine.Run {} calls last actions →
      (SessionsInRange (actions.filterMap SdAction.session?) ↔
        (actions.filterMap SdAction.sent?).length ≤ 65535)) := by
  constructor
  · intro multicastAddr port calls last sent hrun
    rw [sessions_publisher hrun, sessionsInRange_consecutive_iff]
  · intro calls last actions hrun
    rw [sessions_service hrun, sessionsInRange_consecutive_iff]

/-- The first message of a publisher has session 1. -/
theorem sessionsInRange_first :
    ∃ last sent, (@SomeIpPublisher.machine Int intOps).Run (.create 0 0)
        [.publishFloat 0x0101 0x8001 0] last sent ∧
      SessionsInRange (sent.map sentSession) := by
  have hstep := SomeIpPublisher.publishFloat_eq (.create 0 0) 0x0101 0x8001 0
  have hrun : (@SomeIpPublisher.machine Int intOps).Run (.create 0 0)
      [.publishFloat 0x0101 0x8001 0] _ _ := .cons trivial hstep (.nil _)
  have hiff := (@sessionsInRange_iff Int intOps).1 _ _ _ _ _ hrun
  exact ⟨_, _, hrun, hiff.mpr (Nat.le_of_ble_eq_true rfl)⟩

/-- Every call of `publish_float` sends a message. -/
theorem length_sent_replicate (serviceId methodId : UInt16) (value : UInt32) (count : Nat)
    {first last : SomeIpPublisher} {sent : List (List UInt8 × SockaddrIn)}
    (hrun : (SomeIpPublisher.machine D).Run first
      (List.replicate count (.publishFloat serviceId methodId value)) last sent) :
    sent.length = count := by
  induction count generalizing first sent with
  | zero =>
      cases hrun
      rfl
  | succ count ih =>
      rw [List.replicate_succ] at hrun
      cases hrun with
      | @cons _ _ middle out _ _ rest _ hstep hrest =>
          have hpublish := hstep.symm.trans (first.publishFloat_eq serviceId methodId value)
          have hout : out = _ := congrArg Prod.snd (Option.some.inj hpublish)
          rw [List.length_append, ih hrest, hout, Nat.add_comm]
          rfl

/-- The message with number 65536 has session 0. -/
theorem not_sessionsInRange_wrap :
    ∃ last sent, (@SomeIpPublisher.machine Int intOps).Run (.create 0 0)
        (List.replicate 65536 (.publishFloat 0x0101 0x8001 0)) last sent ∧
      ¬ SessionsInRange (sent.map sentSession) := by
  obtain ⟨last, sent, hrun⟩ := Machine.exists_run_of_counts
    (@SomeIpPublisher.machine_counts Int intOps) (fun _ _ => trivial) (.create 0 0)
    (List.replicate 65536 (.publishFloat 0x0101 0x8001 0))
  have hlength := @length_sent_replicate Int intOps _ _ _ _ _ _ _ hrun
  refine ⟨last, sent, hrun, ?_⟩
  rw [@sessions_publisher Int intOps _ _ _ _ _ hrun, hlength, sessionsInRange_consecutive_iff]
  exact Nat.not_succ_le_self 65535

end AutomotiveGateway.Someip
