import AutomotiveGateway.Foundation.Network
import AutomotiveGateway.Gateway.Schedule
import AutomotiveGateway.Gateway.VehicleFiles
import AutomotiveGateway.Someip.Receivers

/-!
# From CAN frames to the lines of the subscriber tool

The subscriber tool shows a line for each notification that reaches it. Over a network that
loses, copies and reorders datagrams the lines are those of the frames that the gateway received,
each as often as its datagram arrived, whatever the service discovery sends in between.
-/

namespace AutomotiveGateway

open ByteOrder Can Memory Numbering Protocol Someip SomeIpPublisher

/-- The subscriber tool behind its subscription: its buffer of 1500 bytes, and the lines that it
has shown. -/
structure Listener where
  buf : List UInt8
  shown : List ReceivedSignal := []

/-- One iteration of the receive loop. `recvfrom` cuts a longer datagram off, and leaves the
bytes of the buffer behind a shorter one. -/
def Listener.receive (listener : Listener) (datagram : List UInt8) : Listener where
  buf := datagram.take 1500 ++ listener.buf.drop (datagram.take 1500).length
  shown := listener.shown ++ (receiveSignal
    (datagram.take 1500 ++ listener.buf.drop (datagram.take 1500).length)
    (datagram.take 1500).length).toList

/-- The gateway and a tool. -/
structure Delivery where
  gateway : Gateway
  listener : Listener

variable {D : Type}

/-- The datagram that an action sends. -/
def GatewayAction.datagram? : GatewayAction D → Option (List UInt8)
  | notify datagram _ => some datagram
  | sd (.sendto datagram _) => some datagram
  | _ => none

def datagrams (actions : List (GatewayAction D)) : List (List UInt8) :=
  actions.filterMap GatewayAction.datagram?

theorem datagrams_append (actions more : List (GatewayAction D)) :
    datagrams (actions ++ more) = datagrams actions ++ datagrams more := List.filterMap_append

/-- The line of a datagram, whatever was in the buffer before. -/
def line? (datagram : List UInt8) : Option ReceivedSignal :=
  receiveSignal (datagram.take 1500) (datagram.take 1500).length

/-- The line of a numbered announcement. The tool takes service 0xFFFF for service discovery. -/
def announcedLine? (announcement : Announcement × UInt16) : Option ReceivedSignal :=
  if announcement.1.1 = 0xFFFF then none
  else some
    { svcId := announcement.1.1
      metId := announcement.1.2.1
      sesId := announcement.2
      name := signalName announcement.1.1 announcement.1.2.1
      value := announcement.1.2.2 }

/-! ## The receive loop -/

theorem receiveSignal_of_lt (buf : List UInt8) {n : Nat} (hshort : n < 20) :
    receiveSignal buf n = none := by
  have hpayload : (n : Int) < 20 := Int.ofNat_lt.mpr hshort
  simp only [receiveSignal, if_pos hpayload]
  split_ifs <;> rfl

theorem receiveSignal_take (buf : List UInt8) (n : Nat) :
    receiveSignal (buf.take n) n = receiveSignal buf n := by
  by_cases hshort : n < 20
  · rw [receiveSignal_of_lt _ hshort, receiveSignal_of_lt _ hshort]
  · simp (disch := omega) only [receiveSignal, bigAt16_take, byteAt_take]

/-- Bytes behind the datagram do not matter. -/
theorem receiveSignal_append (datagram rest : List UInt8) :
    receiveSignal (datagram ++ rest) datagram.length = receiveSignal datagram datagram.length := by
  have hcut := receiveSignal_take (datagram ++ rest) datagram.length
  rw [List.take_left] at hcut
  exact hcut.symm

theorem shown_receive (listener : Listener) (datagram : List UInt8) :
    (listener.receive datagram).shown = listener.shown ++ (line? datagram).toList := by
  rw [Listener.receive, receiveSignal_append, line?]

theorem line?_floatNotification (announcement : Announcement) (session : UInt16) :
    line? (floatNotification announcement.1 announcement.2.1 session announcement.2.2) =
      announcedLine? (announcement, session) := by
  have hwhole : (floatNotification announcement.1 announcement.2.1 session
      announcement.2.2).take 1500 =
      floatNotification announcement.1 announcement.2.1 session announcement.2.2 :=
    List.take_of_length_le (Nat.le_of_ble_eq_true rfl)
  have hreceive := receiveSignal_floatNotification announcement.1 announcement.2.1 session
    announcement.2.2 []
  rw [List.append_nil] at hreceive
  rw [line?, hwhole]
  exact hreceive

/-- A service discovery message is skipped. -/
theorem line?_image (message : SomeIpSdMessage) (session : UInt16) :
    line? (message.image session) = none := by
  have hlong : 28 ≤ ((message.image session).take 1500).length := by
    have hlen := (message.isSd_image session).1
    rw [List.length_take]
    omega
  have hservice : bigAt16 ((message.image session).take 1500) 0 = 0xFFFF := by
    rw [bigAt16_take (by decide)]
    exact (by decide : ofBig16 0xFF 0xFF = 0xFFFF)
  have hheader : ¬ ((((message.image session).take 1500).length : Int) < 16) := by omega
  rw [line?, receiveSignal, if_neg hheader, if_pos hservice]

/-! ## The datagrams of the gateway -/

/-- The service discovery service sends nothing but service discovery messages. -/
theorem exists_image_of_step {service next : SomeIpSdService} {call : SdCall} {out : List SdAction}
    (hstep : SomeIpSdService.machine.step service call = some (next, out))
    {data : List UInt8} {dest : SockaddrIn} (hmem : SdAction.sendto data dest ∈ out) :
    ∃ message session, data = SomeIpSdMessage.image message session := by
  rcases call_cases hstep with ⟨rfl, -, -⟩ | ⟨-, -, session, rfl⟩ | ⟨buf, sender, -, hserved⟩
  · exact absurd hmem List.not_mem_nil
  · rw [List.mem_singleton, SdAction.sendto.injEq] at hmem
    exact ⟨_, _, hmem.1⟩
  · rw [SomeIpSdService.subscribeAll_eq] at hserved
    obtain ⟨-, rfl⟩ := Prod.mk.inj hserved
    -- behind each acknowledgement the callback is called, which sends nothing
    obtain ⟨step, -, hsent⟩ := List.mem_flatMap.mp hmem
    rcases List.mem_cons.mp hsent with hack | hcallback
    · exact ⟨_, _, (SdAction.sendto.inj hack).1⟩
    · split_ifs at hcallback
      · simp at hcallback
      · exact absurd hcallback List.not_mem_nil

theorem line?_of_run {first last : SomeIpSdService} {calls : List SdCall} {actions : List SdAction}
    (hrun : SomeIpSdService.machine.Run first calls last actions) {data : List UInt8}
    {dest : SockaddrIn} (hmem : SdAction.sendto data dest ∈ actions) : line? data = none := by
  induction hrun with
  | nil => exact absurd hmem List.not_mem_nil
  | cons _ hstep _ ih =>
      rcases List.mem_append.mp hmem with hmem | hmem
      · obtain ⟨message, session, rfl⟩ := exists_image_of_step hstep hmem
        exact line?_image message session
      · exact ih hmem

/-- Of the datagrams that actions send, the notifications alone are shown. -/
theorem filterMap_line?_datagrams {actions : List (GatewayAction D)}
    (hsd : ∀ data dest, SdAction.sendto data dest ∈ sdActions actions → line? data = none) :
    (datagrams actions).filterMap line? =
      (notifications actions).filterMap fun sent => line? sent.1 := by
  rw [datagrams, notifications, List.filterMap_filterMap, List.filterMap_filterMap]
  apply List.filterMap_congr
  intro action hmem
  cases action with
  | sd action =>
      cases action with
      | sendto data dest =>
          exact hsd data dest (List.mem_filterMap.mpr ⟨.sd (.sendto data dest), hmem, rfl⟩)
      | onSubscribe sub => rfl
  | _ => rfl

variable [DoubleOps D]

/-- The gateway and a tool that listens to it. -/
def delivery (dbc : DbcParser D) : Protocol Delivery GatewayEvent (List UInt8) where
  act state event := (state.gateway.serve dbc event).map fun served =>
    ({ state with gateway := served.1 }, datagrams served.2)
  deliver state datagram := some ({ state with listener := state.listener.receive datagram }, [])

/-- The lines that frames call for. -/
def linesOf (dbc : DbcParser D) (routes : List SignalRoute) (frames : List CanFrame) :
    List ReceivedSignal :=
  (numbered 1 (frames.flatMap (frameAnnouncements dbc routes))).filterMap announcedLine?

/-- A run of the network is a run of the gateway on the events that it served, and the tool
shows a line for each datagram that reached it. -/
theorem run_delivery {dbc : DbcParser D} {first last : Net Delivery (List UInt8)}
    {moves : List (Move GatewayEvent (List UInt8))} {sent : List (List UInt8)}
    (hrun : (delivery dbc).machine.Run first moves last sent) :
    last.parties.listener.shown =
      first.parties.listener.shown ++ (delivered moves).filterMap line? ∧
    ∃ actions, (Gateway.machine dbc).Run first.parties.gateway (acted moves)
        last.parties.gateway actions ∧ sent = datagrams actions := by
  induction hrun with
  | nil => exact ⟨(List.append_nil _).symm, [], .nil _, rfl⟩
  | @cons net move middle out moves last outs henabled hstep _ ih =>
      obtain ⟨hshown, actions, hgateway, houts⟩ := ih
      rcases step_cases henabled hstep with ⟨event, rfl, hact, -⟩ |
        ⟨datagram, rfl, -, hdeliver, -⟩ | ⟨datagram, rfl, -, hparties, rfl, -⟩ |
        ⟨datagram, rfl, -, hparties, rfl, -⟩
      · obtain ⟨⟨gateway, served⟩, hserve, hnext⟩ := Option.map_eq_some_iff.mp hact
        rw [Prod.mk.injEq] at hnext
        obtain ⟨hmiddle, rfl⟩ := hnext
        rw [← hmiddle] at hshown hgateway
        refine ⟨hshown, served ++ actions, .cons trivial hserve hgateway, ?_⟩
        rw [houts, datagrams_append]
      -- only a delivery reaches the tool, and the gateway takes no part in it
      · obtain ⟨hmiddle, rfl⟩ := Prod.mk.inj (Option.some.inj hdeliver)
        rw [← hmiddle] at hshown hgateway
        refine ⟨?_, actions, hgateway, houts⟩
        rw [hshown, shown_receive, delivered_cons, List.filterMap_append, List.append_assoc]
        rfl
      · rw [hparties] at hshown hgateway
        exact ⟨hshown, actions, hgateway, houts⟩
      · rw [hparties] at hshown hgateway
        exact ⟨hshown, actions, hgateway, houts⟩

/-- What a run of the gateway sends is shown as the lines that its frames call for. -/
theorem lines_run {dbc : DbcParser D} {routes : List SignalRoute} {first last : Gateway}
    {events : List GatewayEvent} {actions : List (GatewayAction D)}
    (hpublisher : first.publisher =
      (create (ofLittle32 239 0 0 1) 30490).registerRoutes routes)
    (hschedule : first.OnSchedule 0)
    (hrun : (Gateway.machine dbc).Run first events last actions) :
    (datagrams actions).filterMap line? =
      linesOf dbc routes (events.filterMap GatewayEvent.frame?) := by
  obtain ⟨last', actions', hrun', hannounces⟩ := Gateway.exists_run dbc first events
  obtain ⟨rfl, rfl⟩ := hrun.deterministic hrun'
  have hsession : first.publisher.session = 1 := by
    rw [hpublisher, registerRoutes_eq]
    rfl
  rw [filterMap_line?_datagrams fun data dest hmem => line?_of_run (hschedule.run hrun).sd hmem,
    hannounces.sent, linesOf, announce, List.filterMap_map, hsession, hpublisher,
    announced_registerRoutes]
  apply List.filterMap_congr
  intro step _
  exact line?_floatNotification step.1 step.2

omit [DoubleOps D] in
/-- The start of the gateway, with its schedule. -/
theorem exists_start_delivery (routes : List SignalRoute) (localIp : UInt32) :
    ∃ first opening, @Gateway.start D routes localIp = some (first, opening) ∧
      first.publisher = (create (ofLittle32 239 0 0 1) 30490).registerRoutes routes ∧
      first.OnSchedule 0 ∧ (datagrams opening).filterMap line? = [] := by
  obtain ⟨first, opening, hstart, hpublisher, hnone⟩ := @exists_start D routes localIp
  obtain ⟨first', opening', hstart', hschedule, hsd, -⟩ :=
    @Gateway.exists_start_schedule D routes localIp
  obtain ⟨rfl, rfl⟩ := Prod.mk.inj (Option.some.inj (hstart.symm.trans hstart'))
  refine ⟨first, opening, hstart, hpublisher, hschedule, ?_⟩
  rw [filterMap_line?_datagrams fun data dest hmem => line?_of_run hsd hmem, hnone]
  rfl

/-- In every run of the gateway and its tool, over a network that loses, copies and reorders
datagrams, the lines that the tool has shown, those still under way and those that were lost are
together the lines that the received frames call for, and one more for each copy: each with the
ids of its route, the number of its notification and the bits of its value. -/
theorem lines_conserved (dbc : DbcParser D) (routes : List SignalRoute) (localIp : UInt32)
    (buf : List UInt8) :
    ∃ first opening, @Gateway.start D routes localIp = some (first, opening) ∧
      ∀ moves last sent, (delivery dbc).machine.Run
          { parties := { gateway := first, listener := { buf } }, inFlight := datagrams opening }
          moves last sent →
        (last.parties.listener.shown : Multiset ReceivedSignal) +
            last.inFlight.filterMap line? + (lost moves).filterMap line? =
          linesOf dbc routes ((acted moves).filterMap GatewayEvent.frame?) +
            ((duplicated moves).filterMap line? : Multiset ReceivedSignal) := by
  obtain ⟨first, opening, hstart, hpublisher, hschedule, hopening⟩ :=
    @exists_start_delivery D routes localIp
  refine ⟨first, opening, hstart, fun moves last sent hrun => ?_⟩
  obtain ⟨hshown, actions, hgateway, rfl⟩ := run_delivery hrun
  have hbalance := congrArg (Multiset.filterMap line?) (balance hrun)
  simp only [Multiset.filterMap_add, Multiset.filterMap_coe, hopening,
    lines_run hpublisher hschedule hgateway] at hbalance
  rw [Multiset.coe_nil, zero_add, add_comm (last.inFlight.filterMap line?)] at hbalance
  rw [hshown, List.nil_append]
  exact hbalance

/-! ## What a line says -/

end AutomotiveGateway
