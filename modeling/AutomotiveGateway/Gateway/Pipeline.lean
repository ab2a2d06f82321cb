import AutomotiveGateway.Gateway.Callback

/-!
# From CAN frames to notifications

The notifications of a run are determined by the frames it received, the DBC file and
the routes. Nothing else the gateway does in between shows in them.
-/

namespace AutomotiveGateway

open ByteOrder Can LastWrite Numbering Someip SomeIpPublisher

/-- The datagram sent by the publisher, and its destination. -/
def GatewayAction.notification? {D : Type} : GatewayAction D → Option (List UInt8 × SockaddrIn)
  | notify datagram dest => some (datagram, dest)
  | _ => none

/-- The frame an event hands to the callback. -/
def GatewayEvent.frame? : GatewayEvent → Option CanFrame
  | can read _ => read.frame?
  | sd _ => none

/-- The actions of the callback behind the publishing of a frame. -/
def GatewayAction.IsUpkeep {D : Type} : GatewayAction D → Prop
  | sd _ | alert | printTable _ => True
  | _ => False

variable {D : Type}

/-- The notifications among actions. -/
def notifications (actions : List (GatewayAction D)) : List (List UInt8 × SockaddrIn) :=
  actions.filterMap GatewayAction.notification?

theorem notifications_append (actions more : List (GatewayAction D)) :
    notifications (actions ++ more) = notifications actions ++ notifications more :=
  List.filterMap_append

theorem notifications_map_notify (sent : List (List UInt8 × SockaddrIn)) :
    notifications (sent.map fun sent => (GatewayAction.notify sent.1 sent.2 : GatewayAction D)) =
      sent := by
  rw [notifications, List.filterMap_map]
  exact List.filterMap_some

theorem notifications_of_upkeep {actions : List (GatewayAction D)}
    (hupkeep : ∀ action ∈ actions, action.IsUpkeep) : notifications actions = [] := by
  rw [notifications, List.filterMap_eq_nil_iff]
  intro action hmem
  cases action with
  | notify datagram dest => exact (hupkeep _ hmem).elim
  | _ => rfl

theorem isUpkeep_map_sd (actions : List SdAction) :
    ∀ action ∈ actions.map (GatewayAction.sd : SdAction → GatewayAction D), action.IsUpkeep := by
  intro action hmem
  obtain ⟨sd, _, rfl⟩ := List.mem_map.mp hmem
  trivial

/-- Between two states of the publisher exactly these announcements were sent. -/
structure Announces (first : SomeIpPublisher) (announcements : List Announcement)
    (last : SomeIpPublisher) (actions : List (GatewayAction D)) : Prop where
  last : last = (first.announce announcements).1
  sent : notifications actions = (first.announce announcements).2

namespace Announces

theorem nil (publisher : SomeIpPublisher) {actions : List (GatewayAction D)}
    (hnone : notifications actions = []) : Announces publisher [] publisher actions where
  last := by rw [announce_nil]
  sent := by rw [announce_nil, hnone]

theorem append {first middle last : SomeIpPublisher} {announcements more : List Announcement}
    {actions rest : List (GatewayAction D)} (hfirst : Announces first announcements middle actions)
    (hrest : Announces middle more last rest) :
    Announces first (announcements ++ more) last (actions ++ rest) where
  last := by rw [announce_append, hrest.last, hfirst.last]
  sent := by rw [announce_append, notifications_append, hfirst.sent, hrest.sent, hfirst.last]

end Announces

variable [DoubleOps D]

/-- What a frame lets the publisher announce. -/
def announced (dbc : DbcParser D) (publisher : SomeIpPublisher) (frame : CanFrame) :
    List Announcement :=
  ((dbc.findMessage (frame.canId &&& canEffMask)).elim [] (decode frame)).filterMap
    publisher.announcement?

namespace Gateway

/-! ## One event -/

/-- The watchdog at the end of the callback, and whether it reported. Only every 50th frame
checks it. -/
def checked (gateway : Gateway) (clock : Clock) : Watchdog × Bool :=
  if (gateway.frameCount + 1) % 50 = 0 then gateway.watchdog.check clock.check
  else (gateway.watchdog, false)

omit [DoubleOps D] in
/-- What the end of the callback does. -/
theorem exists_afterPublish_eq (gateway : Gateway) (clock : Clock) :
    ∃ next, ∃ offers : List SdAction, @afterPublish D gateway clock = some (next,
        (if (gateway.checked clock).2 then [.alert] else []) ++ offers.map .sd ++
          if (gateway.frameCount + 1) % 10 = 0 then [.printTable (gateway.frameCount + 1)]
          else []) ∧
      next.publisher = gateway.publisher ∧ next.watchdog = (gateway.checked clock).1 := by
  obtain ⟨sd, offers, hoffers⟩ := gateway.sd.exists_sendOffers
  unfold afterPublish
  by_cases hoffering : gateway.frameCount + 1 - gateway.lastOfferFrame ≥ 100
  · simp only [if_pos hoffering, hoffers]
    exact ⟨_, offers, rfl, rfl, rfl⟩
  · simp only [if_neg hoffering]
    exact ⟨_, [], rfl, rfl, rfl⟩

omit [DoubleOps D] in
/-- The end of the callback neither decodes nor publishes. -/
theorem exists_afterPublish (gateway : Gateway) (clock : Clock) :
    ∃ next actions, @afterPublish D gateway clock = some (next, actions) ∧
      next.publisher = gateway.publisher ∧ ∀ action ∈ actions, action.IsUpkeep := by
  obtain ⟨next, offers, hafter, hpublisher, -⟩ := @exists_afterPublish_eq D gateway clock
  refine ⟨next, _, hafter, hpublisher, ?_⟩
  simp only [List.forall_mem_append]
  refine ⟨⟨?_, isUpkeep_map_sd offers⟩, ?_⟩
  · split_ifs <;> simp [GatewayAction.IsUpkeep]
  · split_ifs <;> simp [GatewayAction.IsUpkeep]

/-- What the callback does: it only feeds the watchdog for a frame without a message, and
otherwise decodes the frame and publishes between its measurements. -/
theorem onCanFrame_cases {dbc : DbcParser D} {gateway next : Gateway} {clock : Clock}
    {frame : CanFrame} {actions : List (GatewayAction D)}
    (hcallback : gateway.onCanFrame dbc clock frame = some (next, actions)) :
    (dbc.findMessage (frame.canId &&& canEffMask) = none ∧
      next = { gateway with watchdog := gateway.watchdog.feed clock.feed } ∧ actions = []) ∨
    ∃ msg publisher upkeep, ∃ sent : List (List UInt8 × SockaddrIn),
      dbc.findMessage (frame.canId &&& canEffMask) = some msg ∧
      ({ gateway with publisher, watchdog := gateway.watchdog.feed clock.feed } :
        Gateway).afterPublish clock = some (next, upkeep) ∧
      actions = [.record "dbc_lookup".toList ((clock.t1 - clock.t0) / 1000),
          .decode frame msg,
          .record "signal_decode".toList ((clock.t2 - clock.t1) / 1000)] ++
        sent.map (fun sent => .notify sent.1 sent.2) ++
        [.record "someip_publish".toList ((clock.t3 - clock.t2) / 1000),
          .record "end_to_end".toList ((clock.t3 - clock.t0) / 1000)] ++ upkeep := by
  unfold onCanFrame at hcallback
  cases hmsg : dbc.findMessage (frame.canId &&& canEffMask) with
  | none =>
      simp only [hmsg, Option.some.injEq, Prod.mk.injEq] at hcallback
      exact .inl ⟨rfl, hcallback.1.symm, hcallback.2.symm⟩
  | some msg =>
      simp only [hmsg, Option.bind_eq_bind, Option.bind_eq_some_iff] at hcallback
      obtain ⟨⟨publisher, sent⟩, -, ⟨last, upkeep⟩, hafter, hnext⟩ := hcallback
      cases hnext
      exact .inr ⟨msg, publisher, upkeep, sent, rfl, hafter, rfl⟩

/-- The callback always returns. It decodes the frame with the message found and
announces what comes of it. -/
theorem exists_onCanFrame (dbc : DbcParser D) (gateway : Gateway) (clock : Clock)
    (frame : CanFrame) :
    ∃ next actions, onCanFrame dbc gateway clock frame = some (next, actions) ∧
      Announces gateway.publisher (announced dbc gateway.publisher frame) next.publisher actions ∧
      ∀ msg, .decode frame msg ∈ actions ↔
        dbc.findMessage (frame.canId &&& canEffMask) = some msg := by
  unfold onCanFrame announced
  cases dbc.findMessage (frame.canId &&& canEffMask) with
  | none => exact ⟨_, _, rfl, .nil _ rfl, by simp⟩
  | some msg =>
      have hpublish := publishAll_eq gateway.publisher (decode frame msg)
      obtain ⟨next, actions, hafter, hpublisher, hupkeep⟩ := @exists_afterPublish D
        { gateway with
          publisher := (gateway.publisher.announce
            ((decode frame msg).filterMap gateway.publisher.announcement?)).1
          watchdog := gateway.watchdog.feed clock.feed } clock
      simp only [hpublish, Option.bind_eq_bind, Option.bind_some, hafter]
      refine ⟨_, _, rfl, ⟨hpublisher, ?_⟩, ?_⟩
      · rw [notifications_append, notifications_append, notifications_append,
          notifications_map_notify, notifications_of_upkeep hupkeep, List.append_nil]
        exact List.append_nil _
      · intro other
        have hnone : GatewayAction.decode frame other ∉ actions := fun hmem => hupkeep _ hmem
        simp [hnone, eq_comm]

/-- Serving an event always returns, and publishes what the frame it received announces. -/
theorem exists_serve (dbc : DbcParser D) (gateway : Gateway) (event : GatewayEvent) :
    ∃ next actions, serve dbc gateway event = some (next, actions) ∧
      Announces gateway.publisher (event.frame?.elim [] (announced dbc gateway.publisher))
        next.publisher actions := by
  cases event with
  | can read clock =>
      rw [serve, GatewayEvent.frame?]
      cases read.frame? with
      | none => exact ⟨_, _, rfl, .nil _ rfl⟩
      | some frame =>
          obtain ⟨next, actions, hcallback, hannounces, _⟩ :=
            exists_onCanFrame dbc gateway clock frame
          exact ⟨next, actions, hcallback, hannounces⟩
  | sd received =>
      obtain ⟨next, actions, hreadable⟩ := gateway.sd.exists_onReadable received
      rw [serve, hreadable]
      exact ⟨_, _, rfl, .nil _ (notifications_of_upkeep (isUpkeep_map_sd actions))⟩

/-! ## Runs -/

theorem exists_run (dbc : DbcParser D) (gateway : Gateway) (events : List GatewayEvent) :
    ∃ last actions, (machine dbc).Run gateway events last actions ∧
      Announces gateway.publisher
        ((events.filterMap GatewayEvent.frame?).flatMap (announced dbc gateway.publisher))
        last.publisher actions := by
  induction events generalizing gateway with
  | nil => exact ⟨gateway, [], .nil gateway, .nil _ rfl⟩
  | cons event events ih =>
      obtain ⟨next, actions, hserve, hfirst⟩ := exists_serve dbc gateway event
      obtain ⟨last, rest, hrun, hrest⟩ := ih next
      have hsplit : ((event :: events).filterMap GatewayEvent.frame?).flatMap
            (announced dbc gateway.publisher) =
          event.frame?.elim [] (announced dbc gateway.publisher) ++
            (events.filterMap GatewayEvent.frame?).flatMap (announced dbc gateway.publisher) := by
        rw [List.filterMap_cons]
        cases event.frame? <;> rfl
      -- The routes are those of the first state throughout.
      have hroutes : announced dbc next.publisher = announced dbc gateway.publisher := by
        rw [hfirst.last]
        rfl
      rw [hroutes] at hrest
      rw [hsplit]
      exact ⟨last, actions ++ rest, .cons trivial hserve hrun, hfirst.append hrest⟩

end Gateway

/-! ## What the routes make of a frame -/

/-- The announcements a frame calls for: those of the routed signals of its message, in
the order of the DBC file, each with the last route of its name and its own value. -/
def frameAnnouncements (dbc : DbcParser D) (routes : List SignalRoute) (frame : CanFrame) :
    List Announcement :=
  match dbc.findMessage (frame.canId &&& canEffMask) with
  | none => []
  | some msg =>
      msg.signals.filterMap fun sig =>
        (lastRoute routes sig.name).map fun ids =>
          (ids.1, ids.2, DoubleOps.toFloatBits (signalValue frame.data sig))

/-- The destination of the notifications, 239.0.0.1:30490. -/
def notificationAddr : SockaddrIn where
  sinFamily := 2
  sinPort := htons 30490
  sinAddr := ofLittle32 239 0 0 1

theorem announced_registerRoutes (dbc : DbcParser D) (routes : List SignalRoute)
    (multicastAddr : UInt32) (port : UInt16) :
    announced dbc ((create multicastAddr port).registerRoutes routes) =
      frameAnnouncements dbc routes := by
  funext frame
  unfold announced frameAnnouncements
  cases dbc.findMessage (frame.canId &&& canEffMask) with
  | none => rfl
  | some msg =>
      rw [Option.elim_some, decode, List.filterMap_map]
      apply List.filterMap_congr
      intro sig _
      have hname : (decodeSignal frame sig).name = sig.name := rfl
      have hempty : (create multicastAddr port).signalMap.lookup sig.name = none :=
        Finmap.lookup_empty sig.name
      rw [Function.comp_apply, announcement?, hname, registerRoutes_eq, lookup_writeAll, hempty,
        Option.or_none, value_decodeSignal]
      rfl

omit [DoubleOps D] in
theorem exists_start (routes : List SignalRoute) (localIp : UInt32) :
    ∃ first opening, @Gateway.start D routes localIp = some (first, opening) ∧
      first.publisher = (create (ofLittle32 239 0 0 1) 30490).registerRoutes routes ∧
      notifications opening = [] := by
  unfold Gateway.start
  obtain ⟨sd, offers, hoffers⟩ := SomeIpSdService.exists_sendOffers
    (((({} : SomeIpSdService).offerService 0x0101 localIp 30501).offerService
      0x0102 localIp 30501).offerService 0x0103 localIp 30501)
  simp only [hoffers]
  exact ⟨_, _, rfl, rfl, notifications_of_upkeep (isUpkeep_map_sd offers)⟩

/-- In every run of the gateway, whatever else happens in between, the notifications are
those the received frames call for, numbered from 1 on. Every event is served. -/
theorem run_notifications (dbc : DbcParser D) (routes : List SignalRoute) (localIp : UInt32)
    (events : List GatewayEvent) :
    ∃ first opening, Gateway.start routes localIp = some (first, opening) ∧
      (∃ last actions, (Gateway.machine dbc).Run first events last actions) ∧
      ∀ last actions, (Gateway.machine dbc).Run first events last actions →
        notifications (opening ++ actions) =
          ((events.filterMap GatewayEvent.frame?).flatMap
            (frameAnnouncements dbc routes)).zipIdx.map fun step =>
              (floatNotification step.1.1 step.1.2.1 (UInt16.ofNat (step.2 + 1)) step.1.2.2,
                notificationAddr) := by
  obtain ⟨first, opening, hstart, hpublisher, hnone⟩ := @exists_start D routes localIp
  obtain ⟨last, actions, hrun, hannounces⟩ := Gateway.exists_run dbc first events
  refine ⟨first, opening, hstart, ⟨last, actions, hrun⟩, ?_⟩
  intro last' actions' hrun'
  obtain ⟨rfl, rfl⟩ := hrun.deterministic hrun'
  have hsession : ∀ n, (1 : UInt16) + UInt16.ofNat n = UInt16.ofNat (n + 1) := by
    intro n
    rw [UInt16.ofNat_add, UInt16.add_comm]
    rfl
  have hfirst : first.publisher.session = 1 ∧ first.publisher.destAddr = notificationAddr := by
    rw [hpublisher, registerRoutes_eq]
    exact ⟨rfl, rfl⟩
  rw [notifications_append, hnone, List.nil_append, hannounces.sent, hpublisher,
    announced_registerRoutes, ← hpublisher, announce, numbered_eq_zipIdx, hfirst.1, hfirst.2,
    List.map_map]
  simp only [Function.comp_def, hsession]

end AutomotiveGateway
