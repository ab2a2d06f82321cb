import AutomotiveGateway.Someip.Loopback
import AutomotiveGateway.Someip.Offers
import AutomotiveGateway.Someip.Sessions

/-!
# Renewed subscriptions

A subscription is valid for three seconds, so a client repeats it for as long as it lives.
The service records every request it acknowledges, the first of a client and each later
one alike, so a record is unique only while nothing is renewed.
-/

namespace AutomotiveGateway.Someip

open ByteOrder Memory

/-- The subscriptions that a call asks for, in order. -/
def SdCall.requested : SdCall → List Subscriber
  | .onReadable (some (datagram, sender)) =>
      if IsSd (datagram.take 1500) then subscriptions (datagram.take 1500) sender else []
  | _ => []

/-- The subscriptions that the calls of a run ask for. -/
def requested (calls : List SdCall) : List Subscriber := calls.flatMap SdCall.requested

/-- The subscriptions that an action acknowledges. -/
def SdAction.acknowledged : SdAction → List Subscriber
  | .sendto data dest =>
      (readEntries data).filterMap fun entry =>
        if entry.type = sdEntrySubscribeAck then some ⟨dest, entry.serviceId, entry.eventgroupId⟩
        else none
  | .onSubscribe _ => []

def acknowledged (actions : List SdAction) : List Subscriber :=
  actions.flatMap SdAction.acknowledged

theorem requested_append (calls more : List SdCall) :
    requested (calls ++ more) = requested calls ++ requested more := List.flatMap_append

/-- A subscriber's address, service and eventgroup are all that its record holds, so there
is one record of each exactly when no record is there twice. Asking again for what was
asked for before changes no record, and every request is acknowledged. -/
structure RenewalsIdempotent (calls : List SdCall) : Prop where
  unique : ∀ earlier later state actions, calls = earlier ++ later →
    SomeIpSdService.machine.Run {} earlier state actions → state.subscribers.Nodup
  unchanged : ∀ earlier call later state actions next out, calls = earlier ++ call :: later →
    SomeIpSdService.machine.Run {} earlier state actions →
    SomeIpSdService.machine.step state call = some (next, out) →
    (∀ sub ∈ call.requested, sub ∈ requested earlier) → next.subscribers = state.subscribers
  answered : ∀ last actions, SomeIpSdService.machine.Run {} calls last actions →
    acknowledged actions = requested calls

/-! ## One call -/

theorem acknowledged_ack (sessionId : UInt16) (sub : Subscriber) :
    (SdAction.sendto (ackImage sessionId sub.serviceId sub.eventgroupId) sub.addr).acknowledged =
      [sub] := by
  rw [SdAction.acknowledged, (read_ackImage _ _ _).2.2]
  rfl

theorem acknowledged_offers (services : List OfferedService) (sessionId : UInt16)
    (dest : SockaddrIn) :
    (SdAction.sendto ((SomeIpSdService.offersMessage services).image sessionId) dest).acknowledged =
      [] := by
  rw [SdAction.acknowledged, List.filterMap_eq_nil_iff]
  intro entry hentry
  have hlong := (SomeIpSdMessage.isSd_image (SomeIpSdService.offersMessage services) sessionId).1
  rw [← List.take_length (l := (SomeIpSdService.offersMessage services).image sessionId)]
    at hlong hentry
  obtain ⟨written, hwritten, rfl⟩ := List.mem_map.1 (mem_entries_of_mem_readEntries hlong hentry)
  rw [offersMessage_eq] at hwritten
  obtain ⟨step, -, rfl⟩ := List.mem_map.1 hwritten
  exact if_neg (show sdEntryOfferService ≠ sdEntrySubscribeAck by decide)

/-- Subscriptions are recorded and acknowledged one by one. -/
theorem acknowledged_subscribeAll (service : SomeIpSdService) (subs : List Subscriber) :
    acknowledged (service.subscribeAll subs).2 = subs := by
  induction subs generalizing service with
  | nil => rfl
  | cons sub subs ih =>
      have hcallback : acknowledged
          (if service.onSubscribe then [SdAction.onSubscribe sub] else []) = [] := by
        split_ifs <;> rfl
      rw [SomeIpSdService.subscribeAll, acknowledged, List.flatMap_append, ← acknowledged,
        ← acknowledged, ih, SomeIpSdService.subscribe, acknowledged, List.flatMap_cons,
        ← acknowledged, hcallback, acknowledged_ack]
      rfl

/-- A call returns; it records what it is asked for behind the earlier records, and
acknowledges it. -/
theorem exists_step_requested (service : SomeIpSdService) (call : SdCall) :
    ∃ next out, SomeIpSdService.machine.step service call = some (next, out) ∧
      next.subscribers = service.subscribers ++ call.requested ∧
      acknowledged out = call.requested := by
  have hnone : service.subscribers = service.subscribers ++ [] := (List.append_nil _).symm
  cases call with
  | offerService serviceId ipv4Addr port => exact ⟨_, _, rfl, hnone, rfl⟩
  | setOnSubscribe present => exact ⟨_, _, rfl, hnone, rfl⟩
  | sendOffers =>
      by_cases hempty : service.offered.isEmpty
      · exact ⟨_, _, SomeIpSdService.sendOffers_of_isEmpty hempty, hnone, rfl⟩
      · refine ⟨_, _, SomeIpSdService.sendOffers_of_offered hempty, hnone, ?_⟩
        rw [acknowledged, List.flatMap_singleton, acknowledged_offers]
        rfl
  | onReadable received =>
      cases received with
      | none => exact ⟨_, _, rfl, hnone, rfl⟩
      | some arrival =>
          have hhandle := service.handleSdMessage_eq (arrival.1.take 1500) arrival.2
          by_cases hsd : IsSd (arrival.1.take 1500)
          · rw [if_pos hsd] at hhandle
            have hcall : (SdCall.onReadable (some arrival)).requested =
                subscriptions (arrival.1.take 1500) arrival.2 := if_pos hsd
            refine ⟨_, _, hhandle, ?_, ?_⟩
            · rw [SomeIpSdService.subscribeAll_eq, hcall]
            · rw [acknowledged_subscribeAll, hcall]
          · rw [if_neg hsd] at hhandle
            have hcall : (SdCall.onReadable (some arrival)).requested = [] := if_neg hsd
            rw [hcall]
            exact ⟨_, _, hhandle, hnone, rfl⟩

theorem step_requested {service next : SomeIpSdService} {call : SdCall} {out : List SdAction}
    (hstep : SomeIpSdService.machine.step service call = some (next, out)) :
    next.subscribers = service.subscribers ++ call.requested ∧
      acknowledged out = call.requested := by
  obtain ⟨next', out', hstep', hrecorded⟩ := exists_step_requested service call
  rw [hstep, Option.some.injEq, Prod.mk.injEq] at hstep'
  obtain ⟨rfl, rfl⟩ := hstep'
  exact hrecorded

/-! ## Whole runs -/

theorem run_requested {first last : SomeIpSdService} {calls : List SdCall}
    {actions : List SdAction} (hrun : SomeIpSdService.machine.Run first calls last actions) :
    last.subscribers = first.subscribers ++ requested calls ∧
      acknowledged actions = requested calls := by
  induction hrun with
  | nil state => exact ⟨(List.append_nil _).symm, rfl⟩
  | @cons state call middle out calls last outs _ hstep _ ih =>
      obtain ⟨hmiddle, hout⟩ := step_requested hstep
      obtain ⟨hlast, houts⟩ := ih
      constructor
      · rw [hlast, hmiddle, List.append_assoc]
        rfl
      · rw [acknowledged, List.flatMap_append, ← acknowledged, ← acknowledged, hout, houts]
        rfl

theorem exists_run_requested (first : SomeIpSdService) (calls : List SdCall) :
    ∃ last actions, SomeIpSdService.machine.Run first calls last actions :=
  Machine.exists_run_of_counts SomeIpSdService.machine_counts (fun _ _ => trivial) first calls

/-- The records are those of the requests, so they are unique only if these are. -/
theorem nodup_requested {calls : List SdCall} (h : RenewalsIdempotent calls) :
    (requested calls).Nodup := by
  obtain ⟨last, actions, hrun⟩ := exists_run_requested {} calls
  have hunique := h.unique calls [] last actions (List.append_nil calls).symm hrun
  rwa [(run_requested hrun).1] at hunique

/-- In a run of calls of any kind, renewing is idempotent if and only if no client renews:
no address asks twice for the same service and eventgroup. -/
theorem renewalsIdempotent_iff (calls : List SdCall) :
    RenewalsIdempotent calls ↔ (requested calls).Nodup := by
  refine ⟨nodup_requested, fun hnodup => ⟨?_, ?_, ?_⟩⟩
  · rintro earlier later state actions rfl hrun
    rw [requested_append] at hnodup
    rw [(run_requested hrun).1]
    exact hnodup.of_append_left
  · rintro earlier call later state actions next out rfl - hstep hknown
    rw [requested_append] at hnodup
    have hnew : call.requested = [] := by
      apply List.eq_nil_iff_forall_not_mem.2
      intro sub hsub
      have hlater : sub ∈ requested (call :: later) := List.mem_append_left _ hsub
      exact List.disjoint_of_nodup_append hnodup (hknown sub hsub) hlater
    rw [(step_requested hstep).1, hnew, List.append_nil]
  · intro last actions hrun
    exact (run_requested hrun).2

/-- The gateway's own client asks again for what it asked for. -/
theorem not_renewalsIdempotent_twice :
    ¬ RenewalsIdempotent [.onReadable (some (subscribeImage 0x0101 0x0001, {})),
      .onReadable (some (subscribeImage 0x0101 0x0001, {}))] := by
  intro h
  exact absurd (nodup_requested h) (by decide)

end AutomotiveGateway.Someip
