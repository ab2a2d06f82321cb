import AutomotiveGateway.Gateway.Discovery

/-!
# Tools that wait

A subscriber tool that waits has missed every offer so far: each is still on its way to it, or was
lost. It has not missed its chance, though. Whatever happened before, the gateway offers its
services again within 100 processed frames, and the tool is served when that offer and its three
requests are delivered.
-/

namespace AutomotiveGateway

open Can Memory Protocol Someip

namespace Hosts

/-- The services that a datagram of the gateway offers to a tool. -/
def offersTo (hosts : Hosts) (tool : SockaddrIn) (datagram : Datagram) : Multiset UInt16 :=
  if datagram.source = hosts.gateway ∧ datagram.dest = tool then
    ((SdAction.sendto datagram.data datagram.dest).offers : List UInt16)
  else 0

/-- What a move gives the gateway to serve. -/
def event? (hosts : Hosts) : Move (Happening hosts) Datagram → Option GatewayEvent
  | .act (.can read clock) => some (.can read clock)
  | .deliver datagram =>
      if datagram.dest = hosts.gateway then some (.sd (some (datagram.data, datagram.source)))
      else none
  | _ => none

variable {hosts : Hosts} {tool : SockaddrIn}

theorem bind_offersTo_of_source {datagrams : List Datagram}
    (hsource : ∀ datagram ∈ datagrams, datagram.source ≠ hosts.gateway) :
    (datagrams : Multiset Datagram).bind (hosts.offersTo tool) = 0 := by
  rw [Multiset.eq_zero_iff_forall_notMem]
  intro serviceId hmem
  obtain ⟨datagram, hdatagram, hoffers⟩ := Multiset.mem_bind.mp hmem
  rw [offersTo, if_neg fun h => hsource datagram (Multiset.mem_coe.mp hdatagram) h.1] at hoffers
  exact absurd hoffers (Multiset.notMem_zero serviceId)

/-- A datagram to a group comes to each member once. -/
theorem bind_offersTo_group (data : List UInt8) (members : List SockaddrIn) :
    ((members.map fun dest => { dest, source := hosts.gateway, data } : List Datagram) :
        Multiset Datagram).bind (hosts.offersTo tool) =
      members.count tool • ((SdAction.sendto data tool).offers : Multiset UInt16) := by
  induction members with
  | nil => simp
  | cons dest members ih =>
      rw [List.map_cons, ← Multiset.cons_coe, Multiset.cons_bind, ih, offersTo]
      by_cases hdest : dest = tool
      · rw [if_pos ⟨rfl, hdest⟩, hdest, List.count_cons_self, succ_nsmul, add_comm]
      · rw [if_neg fun h => hdest h.2, zero_add, List.count_cons_of_ne hdest]

variable {D : Type}

/-- What the gateway offers, it offers to every tool. -/
theorem bind_offersTo_sendAction (htool : hosts.tools.count tool = 1) {action : GatewayAction D}
    (hgroup : ∀ own ∈ sdActions [action], own.offers ≠ [] →
      ∃ data, own = .sendto data sdMulticast) :
    (hosts.sendAction action : Multiset Datagram).bind (hosts.offersTo tool) =
      ((sdActions [action]).flatMap SdAction.offers : List UInt16) := by
  cases action with
  | notify data dest =>
      rw [bind_offersTo_of_source fun datagram hmem =>
        source_of_mem_send hmem ▸ hosts.publisher_ne]
      rfl
  | sd own =>
      have hown : (sdActions [(.sd own : GatewayAction D)]).flatMap SdAction.offers = own.offers :=
        List.append_nil _
      rw [hown]
      by_cases hnone : own.offers = []
      · have hnothing : ∀ datagram ∈ hosts.sendAction (.sd own : GatewayAction D),
            hosts.offersTo tool datagram = 0 := by
          intro datagram hmem
          cases own with
          | sendto data dest =>
              obtain ⟨_, -, rfl⟩ := List.mem_map.mp hmem
              rw [offersTo]
              split_ifs
              · rw [← Multiset.coe_nil]
                exact congrArg _ hnone
              · rfl
          | onSubscribe sub => exact absurd hmem List.not_mem_nil
        rw [Multiset.bind_congr hnothing, Multiset.bind_zero, hnone]
        rfl
      · obtain ⟨data, rfl⟩ := hgroup own List.mem_cons_self hnone
        have hmember : hosts.gateway ≠ tool := by
          rintro rfl
          exact hosts.gateway_new (List.count_pos_iff.mp (by omega))
        have hmulticast : IsGroup sdMulticast := .inl rfl
        rw [sendAction, send, if_pos hmulticast, bind_offersTo_group,
          List.count_cons_of_ne hmember, htool, one_nsmul]
        rfl
  | _ => rfl

theorem bind_offersTo_actions (htool : hosts.tools.count tool = 1)
    {actions : List (GatewayAction D)}
    (hgroup : ∀ own ∈ sdActions actions, own.offers ≠ [] → ∃ data, own = .sendto data sdMulticast) :
    (actions.flatMap hosts.sendAction : Multiset Datagram).bind (hosts.offersTo tool) =
      ((sdActions actions).flatMap SdAction.offers : List UInt16) := by
  induction actions with
  | nil => rfl
  | cons action actions ih =>
      have hsplit : sdActions (action :: actions) = sdActions [action] ++ sdActions actions :=
        sdActions_append [action] actions
      rw [hsplit] at hgroup
      obtain ⟨hfirst, hrest⟩ := List.forall_mem_append.mp hgroup
      rw [List.flatMap_cons, ← Multiset.coe_add, Multiset.add_bind, hsplit, List.flatMap_append,
        ← Multiset.coe_add, ih hrest, bind_offersTo_sendAction htool hfirst]

variable [DoubleOps D] {dbc : DbcParser D}

variable {net after : Net Discovery Datagram} {move : Move (Happening hosts) Datagram}
  {sent : List Datagram}

/-- A move of the gateway is a step of it, and no other move offers anything in its name. -/
theorem move_gateway (hnet : ∀ datagram ∈ net.inFlight, ¬ IsGroup datagram.source)
    (henabled : (hosts.protocol dbc).machine.Enabled net move)
    (hstep : (hosts.protocol dbc).machine.step net move = some (after, sent)) :
    ∃ actions, (Gateway.machine dbc).Run net.parties.gateway ([move].filterMap hosts.event?)
        after.parties.gateway actions ∧
      ∀ tool, (sent : Multiset Datagram).bind (hosts.offersTo tool) =
        (actions.flatMap hosts.sendAction : Multiset Datagram).bind (hosts.offersTo tool) := by
  have hserved : ∀ event served, hosts.event? move = some event →
      net.parties.gateway.serve dbc event = some (after.parties.gateway, served) →
      (Gateway.machine dbc).Run net.parties.gateway ([move].filterMap hosts.event?)
        after.parties.gateway (served ++ []) := by
    intro event served hevent hserve
    rw [List.filterMap_cons_some hevent]
    exact .cons trivial hserve (.nil _)
  have hidle : hosts.event? move = none → after.parties.gateway = net.parties.gateway →
      (∀ datagram ∈ sent, datagram.source ≠ hosts.gateway) →
      ∃ actions, (Gateway.machine dbc).Run net.parties.gateway ([move].filterMap hosts.event?)
          after.parties.gateway actions ∧
        ∀ tool, (sent : Multiset Datagram).bind (hosts.offersTo tool) =
          (actions.flatMap hosts.sendAction : Multiset Datagram).bind (hosts.offersTo tool) := by
    intro hevent hafter hsource
    rw [List.filterMap_cons_none hevent, hafter]
    exact ⟨[], .nil _, fun tool => bind_offersTo_of_source hsource⟩
  rcases step_cases henabled hstep with ⟨happening, rfl, hact, -⟩ |
    ⟨datagram, rfl, hmem, hdeliver, -⟩ | ⟨datagram, rfl, -, hparties, rfl, -⟩ |
    ⟨datagram, rfl, -, hparties, rfl, -⟩
  · cases happening with
    | can read clock =>
        obtain ⟨⟨gateway, served⟩, hserve, hnext⟩ := Option.map_eq_some_iff.mp hact
        obtain ⟨hafter, rfl⟩ := Prod.mk.inj hnext
        refine ⟨served ++ [], hserved _ served rfl ?_, fun tool => by rw [List.append_nil]⟩
        rw [← hafter]
        exact hserve
    | foreign source dest data =>
        obtain ⟨hafter, rfl⟩ := Prod.mk.inj (Option.some.inj hact)
        exact hidle rfl (by rw [← hafter]) fun datagram hmem =>
          source_of_mem_send hmem ▸ source.2.1
  · simp only [Hosts.protocol] at hdeliver
    split_ifs at hdeliver with hdest htool
    · obtain ⟨⟨gateway, served⟩, hserve, hnext⟩ := Option.map_eq_some_iff.mp hdeliver
      obtain ⟨hafter, rfl⟩ := Prod.mk.inj hnext
      refine ⟨served ++ [], hserved _ served (if_pos hdest) ?_,
        fun tool => by rw [List.append_nil]⟩
      rw [← hafter]
      exact hserve
    -- a tool sends its requests under its own address
    · obtain ⟨requests, hrequests, hsource, -⟩ := exists_subscribe htool.1 (hnet datagram hmem)
      rw [hrequests, Option.map_some] at hdeliver
      obtain ⟨hafter, rfl⟩ := Prod.mk.inj (Option.some.inj hdeliver)
      refine hidle (if_neg hdest) (by rw [← hafter]) fun other hother => ?_
      rw [hsource other hother]
      exact fun heq => hosts.gateway_new (heq ▸ htool.1)
    · obtain ⟨hafter, rfl⟩ := Prod.mk.inj (Option.some.inj hdeliver)
      exact hidle (if_neg hdest) (by rw [← hafter]) (List.forall_mem_nil _)
  · exact hidle rfl (by rw [hparties]) (List.forall_mem_nil _)
  · exact hidle rfl (by rw [hparties]) (List.forall_mem_nil _)

/-- For the gateway a run is one on what it is given to serve, and only what it does there offers
anything in its name. -/
theorem run_gateway {first last : Net Discovery Datagram}
    {moves : List (Move (Happening hosts) Datagram)}
    (hfirst : ∀ datagram ∈ first.inFlight, ¬ IsGroup datagram.source)
    (hrun : (hosts.protocol dbc).machine.Run first moves last sent) :
    ∃ actions, (Gateway.machine dbc).Run first.parties.gateway (moves.filterMap hosts.event?)
        last.parties.gateway actions ∧
      ∀ tool, (sent : Multiset Datagram).bind (hosts.offersTo tool) =
        (actions.flatMap hosts.sendAction : Multiset Datagram).bind (hosts.offersTo tool) := by
  induction hrun with
  | nil => exact ⟨[], .nil _, fun tool => rfl⟩
  | @cons net move middle out moves last outs henabled hstep _ ih =>
      obtain ⟨served, hmove, hout⟩ := move_gateway hfirst henabled hstep
      obtain ⟨actions, hrest, houts⟩ := ih (move_serves hfirst henabled hstep).2
      refine ⟨served ++ actions, ?_, fun tool => ?_⟩
      · rw [← List.singleton_append, List.filterMap_append]
        exact hmove.append hrest
      · rw [List.flatMap_append, ← Multiset.coe_add, ← Multiset.coe_add, Multiset.add_bind,
          Multiset.add_bind, hout, houts]

/-- A tool that something is delivered to has asked, then or before. -/
theorem asked_of_move (henabled : (hosts.protocol dbc).machine.Enabled net move)
    (hstep : (hosts.protocol dbc).machine.step net move = some (after, sent)) :
    net.parties.asked ⊆ after.parties.asked ∧
      ∀ datagram ∈ delivered [move], datagram.dest ∈ hosts.tools →
        datagram.dest ∈ after.parties.asked.map Prod.fst := by
  rcases step_cases henabled hstep with ⟨happening, rfl, hact, -⟩ |
    ⟨datagram, rfl, -, hdeliver, -⟩ | ⟨datagram, rfl, -, hparties, -, -⟩ |
    ⟨datagram, rfl, -, hparties, -, -⟩
  · refine ⟨?_, List.forall_mem_nil _⟩
    cases happening with
    | can read clock =>
        obtain ⟨served, -, hnext⟩ := Option.map_eq_some_iff.mp hact
        rw [← (Prod.mk.inj hnext).1]
        exact List.Subset.refl _
    | foreign source dest data =>
        rw [← (Prod.mk.inj (Option.some.inj hact)).1]
        exact List.Subset.refl _
  · have hone : delivered [(.deliver datagram : Move (Happening hosts) Datagram)] = [datagram] :=
      rfl
    rw [hone, List.forall_mem_singleton]
    simp only [Hosts.protocol] at hdeliver
    split_ifs at hdeliver with hdest htool
    · obtain ⟨served, -, hnext⟩ := Option.map_eq_some_iff.mp hdeliver
      rw [← (Prod.mk.inj hnext).1]
      exact ⟨List.Subset.refl _, fun hmem => absurd (hdest ▸ hmem) hosts.gateway_new⟩
    · obtain ⟨requests, -, hnext⟩ := Option.map_eq_some_iff.mp hdeliver
      rw [← (Prod.mk.inj hnext).1]
      exact ⟨List.subset_append_left _ _, fun _ =>
        List.mem_map_of_mem (List.mem_append_right _ List.mem_cons_self)⟩
    · rw [← (Prod.mk.inj (Option.some.inj hdeliver)).1]
      refine ⟨List.Subset.refl _, fun hmem => ?_⟩
      by_contra hnew
      exact htool ⟨hmem, hnew⟩
  · rw [hparties]
    exact ⟨List.Subset.refl _, List.forall_mem_nil _⟩
  · rw [hparties]
    exact ⟨List.Subset.refl _, List.forall_mem_nil _⟩

theorem asked_of_delivered {first last : Net Discovery Datagram}
    {moves : List (Move (Happening hosts) Datagram)}
    (hrun : (hosts.protocol dbc).machine.Run first moves last sent) :
    first.parties.asked ⊆ last.parties.asked ∧
      ∀ datagram ∈ delivered moves, datagram.dest ∈ hosts.tools →
        datagram.dest ∈ last.parties.asked.map Prod.fst := by
  induction hrun with
  | nil => exact ⟨List.Subset.refl _, List.forall_mem_nil _⟩
  | @cons net move middle out moves last outs henabled hstep _ ih =>
      obtain ⟨hmove, hdelivered⟩ := asked_of_move henabled hstep
      refine ⟨List.Subset.trans hmove ih.1, fun datagram hmem htool => ?_⟩
      rw [delivered_cons, List.mem_append] at hmem
      rcases hmem with hmem | hmem
      · exact List.map_subset _ ih.1 (hdelivered datagram hmem htool)
      · exact ih.2 datagram hmem htool

/-! ## The next offer -/

/-- Frames that the gateway reads are moves of the network. -/
theorem run_reads {reads : List (CanRead × Clock)} {gateway last : Gateway}
    {actions : List (GatewayAction D)} (asked : List (SockaddrIn × SockaddrIn))
    (inFlight : Multiset Datagram)
    (hrun : (Gateway.machine dbc).Run gateway
      (reads.map fun read => .can read.1 read.2) last actions) :
    (hosts.protocol dbc).machine.Run { parties := { gateway, asked }, inFlight }
      (reads.map fun read => .act (.can read.1 read.2))
      { parties := { gateway := last, asked }
        inFlight := inFlight + (actions.flatMap hosts.sendAction : List Datagram) }
      (actions.flatMap hosts.sendAction) := by
  induction reads generalizing gateway actions inFlight with
  | nil =>
      cases hrun
      rw [List.flatMap_nil, Multiset.coe_nil, add_zero]
      exact .nil _
  | cons read reads ih =>
      cases hrun with
      | @cons _ _ middle served _ _ later _ hserve hrest =>
          have hstep : (hosts.protocol dbc).machine.step
              { parties := { gateway, asked }, inFlight } (.act (.can read.1 read.2)) =
              some ({ parties := { gateway := middle, asked }
                      inFlight := inFlight + (served.flatMap hosts.sendAction : List Datagram) },
                served.flatMap hosts.sendAction) := by
            have hact : (hosts.protocol dbc).act { gateway, asked } (.can read.1 read.2) =
                some ({ gateway := middle, asked }, served.flatMap hosts.sendAction) :=
              congrArg (Option.map _) hserve
            exact congrArg (Option.map _) hact
          have hlater := ih (inFlight + (served.flatMap hosts.sendAction : List Datagram)) hrest
          rw [add_assoc, Multiset.coe_add, ← List.flatMap_append] at hlater
          rw [List.flatMap_append] at hlater ⊢
          exact .cons trivial hstep hlater

/-- Among 100 processed frames there is one at which the services are offered. -/
theorem exists_offer {localIp : UInt32} {first middle last : Gateway}
    {opening actions later : List (GatewayAction D)} {events more : List GatewayEvent}
    (hopening : SomeIpSdService.machine.Run {} (openingCalls localIp) first.sd (sdActions opening))
    (hfirst : first.OnSchedule 0) (hrun : (Gateway.machine dbc).Run first events middle actions)
    (hmore : (Gateway.machine dbc).Run middle more last later)
    (hhundred : 100 ≤ processed dbc more) :
    ∃ data, GatewayAction.sd (.sendto data sdMulticast) ∈ later := by
  have hbefore := (offers_behind_start hopening hfirst hrun).2
  obtain ⟨hsd, hafter⟩ := offers_behind_start hopening hfirst (hrun.append hmore)
  rw [← List.append_assoc, sdActions_append, List.flatMap_append, hbefore] at hafter
  -- otherwise the offers would be as many as before, though 100 more frames were processed
  have hsome : (sdActions later).flatMap SdAction.offers ≠ [] := by
    intro hnone
    have hthree : ∀ count, (List.replicate count
        ([0x0101, 0x0102, 0x0103] : List UInt16)).flatten.length = count * 3 := by simp
    have hlength := congrArg List.length hafter
    rw [hnone, List.append_nil, hthree, hthree, processed_append] at hlength
    omega
  obtain ⟨own, hown, hoffers⟩ : ∃ own ∈ sdActions later, own.offers ≠ [] := by
    by_contra hnone
    exact hsome (List.flatMap_eq_nil_iff.mpr fun own hown =>
      by_contra fun hoffers => hnone ⟨own, hown, hoffers⟩)
  have hmem : own ∈ sdActions (opening ++ (actions ++ later)) := by
    rw [sdActions_append, sdActions_append]
    exact List.mem_append_right _ (List.mem_append_right _ hown)
  obtain ⟨data, rfl⟩ := hsd.forall_out (fun _ _ _ _ => dest_of_offers_step) own hmem hoffers
  obtain ⟨action, haction, hsdAction⟩ := List.mem_filterMap.mp hown
  cases action with
  | sd own =>
      cases hsdAction
      exact ⟨data, haction⟩
  | _ => cases hsdAction

theorem deliver_isSome (state : Discovery) (datagram : Datagram) :
    ((hosts.protocol dbc).deliver state datagram).isSome := by
  simp only [Hosts.protocol]
  split_ifs
  · obtain ⟨next, actions, hserve, -⟩ :=
      Gateway.exists_serve dbc state.gateway (.sd (some (datagram.data, datagram.source)))
    rw [hserve]
    rfl
  · rw [Option.isSome_map, subscribe]
    simp only [sendSubscribe_eq]
    rfl
  · rfl

/-- A tool that an offer is on its way to is served when that is delivered, and what the tool
then asks for. -/
theorem exists_run_served (hunicast : ∀ datagram ∈ net.inFlight, ¬ IsGroup datagram.source)
    (htool : tool ∈ hosts.tools) (hwaiting : tool ∉ net.parties.asked.map Prod.fst)
    {data : List UInt8}
    (hoffer : { dest := tool, source := hosts.gateway, data } ∈ net.inFlight) :
    ∃ requests last sent, hosts.subscribe tool hosts.gateway = some requests ∧
      (hosts.protocol dbc).machine.Run net
        (({ dest := tool, source := hosts.gateway, data } :: requests).map .deliver) last sent ∧
      wants tool ≤ hosts.recorded last.parties := by
  obtain ⟨requests, hrequests, -, hasked⟩ := exists_subscribe htool hosts.gateway_unicast
  have hwants : hosts.wanted [(tool, hosts.gateway)] = wants tool := by
    rw [wanted, List.filter_cons_of_pos (by simp)]
    exact Multiset.singleton_bind _ _
  have hnew : tool ≠ hosts.gateway := fun heq => hosts.gateway_new (heq ▸ htool)
  have hdeliver : (hosts.protocol dbc).deliver net.parties
      { dest := tool, source := hosts.gateway, data } =
      some ({ net.parties with asked := net.parties.asked ++ [(tool, hosts.gateway)] },
        requests) := by
    simp only [Hosts.protocol]
    rw [if_neg hnew, if_pos ⟨htool, hwaiting⟩, hrequests]
    rfl
  obtain ⟨last, sent, hrest⟩ := @exists_run_deliver _ _ _ _ (hosts.protocol dbc)
    { parties := { net.parties with asked := net.parties.asked ++ [(tool, hosts.gateway)] }
      inFlight := net.inFlight.erase { dest := tool, source := hosts.gateway, data } + requests }
    requests (Multiset.le_add_left _ _) fun parties datagram _ => deliver_isSome parties datagram
  have hrun : (hosts.protocol dbc).machine.Run net
      (({ dest := tool, source := hosts.gateway, data } :: requests).map .deliver) last
      (requests ++ sent) :=
    .cons hoffer (congrArg (Option.map _) hdeliver) hrest
  refine ⟨requests, last, _, hrequests, hrun, ?_⟩
  have hdelivered : delivered (({ dest := tool, source := hosts.gateway, data } :: requests).map
      (Move.deliver : Datagram → Move (Happening hosts) Datagram)) =
      { dest := tool, source := hosts.gateway, data } :: requests := by
    rw [delivered, List.filterMap_map]
    exact List.filterMap_some
  rw [(run_serves hrun hunicast).recorded, hdelivered, ← List.singleton_append, allRequests_append,
    hasked, hwants]
  exact (Multiset.le_add_left _ _).trans (Multiset.le_add_left _ _)

end Hosts

theorem coe_flatten_replicate (count : Nat) (serviceIds : List UInt16) :
    (((List.replicate count serviceIds).flatten : List UInt16) : Multiset UInt16) =
      count • (serviceIds : Multiset UInt16) := by
  induction count with
  | zero => rw [zero_nsmul]; rfl
  | succ count ih =>
      rw [List.replicate_succ, List.flatten_cons, ← Multiset.coe_add, ih, succ_nsmul, add_comm]

/-- In every run of the gateway, its tools and other hosts, over a network that loses, copies and
reorders datagrams: what the gateway has offered to a tool, and is on its way, delivered or lost,
are the three services, once for the start and once for every 100 processed frames, and what was
copied. A tool that still waits was delivered nothing. However long it has waited, as soon as the
gateway has processed 100 more frames there is an offer with which it can be served: when this is
delivered, and what the tool then asks for, the gateway has recorded all that it wants. -/
theorem waiting_served {D : Type} [DoubleOps D] (hosts : Hosts) (dbc : DbcParser D)
    (routes : List SignalRoute) (localIp : UInt32) {tool : SockaddrIn}
    (htool : hosts.tools.count tool = 1) :
    ∃ first opening, @Gateway.start D routes localIp = some (first, opening) ∧
      ∀ moves last sent, (hosts.protocol dbc).machine.Run
          { parties := { gateway := first }, inFlight := opening.flatMap hosts.sendAction }
          moves last sent →
        last.inFlight.bind (hosts.offersTo tool) +
            (delivered moves : Multiset Datagram).bind (hosts.offersTo tool) +
            (lost moves : Multiset Datagram).bind (hosts.offersTo tool) =
          (1 + processed dbc (moves.filterMap hosts.event?) / 100) •
              ({0x0101, 0x0102, 0x0103} : Multiset UInt16) +
            (duplicated moves : Multiset Datagram).bind (hosts.offersTo tool) ∧
        (tool ∉ last.parties.asked.map Prod.fst →
          (∀ datagram ∈ delivered moves, datagram.dest ≠ tool) ∧
          ∀ reads : List (CanRead × Clock),
            100 ≤ processed dbc (reads.map fun read => .can read.1 read.2) →
            ∃ data requests final more, hosts.subscribe tool hosts.gateway = some requests ∧
              (hosts.protocol dbc).machine.Run last
                ((reads.map fun read => .act (.can read.1 read.2)) ++
                  ({ dest := tool, source := hosts.gateway, data } :: requests).map .deliver)
                final more ∧
              wants tool ≤ hosts.recorded final.parties) := by
  have hmem : tool ∈ hosts.tools := List.count_pos_iff.mp (by omega)
  obtain ⟨first, opening, hstart, hschedule, hopening, -⟩ :=
    @Gateway.exists_start_schedule D routes localIp
  refine ⟨first, opening, hstart, fun moves last sent hrun => ?_⟩
  have hunicast := (@sendAction_spec hosts D opening).1
  obtain ⟨actions, hgateway, hoffered⟩ := Hosts.run_gateway hunicast hrun
  obtain ⟨hsd, hoffers⟩ := offers_behind_start hopening hschedule hgateway
  have hgroup : ∀ own ∈ sdActions (opening ++ actions), own.offers ≠ [] →
      ∃ data, own = .sendto data sdMulticast :=
    hsd.forall_out fun _ _ _ _ => dest_of_offers_step
  refine ⟨?_, fun hwaiting => ⟨fun datagram hdelivered hdest => ?_, fun reads hreads => ?_⟩⟩
  · rw [balance_bind (hosts.offersTo tool) hrun, hoffered tool, ← Multiset.add_bind,
      Multiset.coe_add, ← List.flatMap_append, Hosts.bind_offersTo_actions htool hgroup, hoffers,
      coe_flatten_replicate]
    rfl
  · have hasked := (Hosts.asked_of_delivered hrun).2 datagram hdelivered (hdest ▸ hmem)
    exact hwaiting (hdest ▸ hasked)
  · obtain ⟨later, sentLater, hlater, -⟩ := Gateway.exists_run dbc last.parties.gateway
      (reads.map fun read => .can read.1 read.2)
    obtain ⟨data, hdata⟩ := Hosts.exists_offer hopening hschedule hgateway hlater hreads
    -- 100 frames are read, the offer this brings is delivered, and then the requests of the tool
    have hread := @Hosts.run_reads hosts _ _ dbc _ _ _ _ last.parties.asked last.inFlight hlater
    let net : Net Discovery Datagram :=
      { parties := { gateway := later, asked := last.parties.asked }
        inFlight := last.inFlight + (sentLater.flatMap hosts.sendAction : List Datagram) }
    have hwhole := hrun.append hread
    have hsources : ∀ datagram ∈ net.inFlight, ¬ IsGroup datagram.source :=
      fun datagram hdatagram => (mem_sent_of_run hwhole (.inl hdatagram)).elim
        (fun hopened => hunicast datagram (Multiset.mem_coe.mp hopened))
        ((run_serves hwhole hunicast).unicast datagram)
    have hoffer : { dest := tool, source := hosts.gateway, data } ∈
        hosts.sendAction (.sd (.sendto data sdMulticast) : GatewayAction D) := by
      have hmulticast : IsGroup sdMulticast := .inl rfl
      rw [Hosts.sendAction, Hosts.send, if_pos hmulticast]
      exact List.mem_map.mpr ⟨tool, List.mem_cons_of_mem _ hmem, rfl⟩
    have hflight : { dest := tool, source := hosts.gateway, data } ∈ net.inFlight :=
      Multiset.mem_add.mpr (.inr (Multiset.mem_coe.mpr (List.mem_flatMap.mpr ⟨_, hdata, hoffer⟩)))
    obtain ⟨requests, final, more, hrequests, hserved, hwants⟩ :=
      @Hosts.exists_run_served hosts tool _ _ dbc net hsources hmem hwaiting data hflight
    exact ⟨data, requests, final, _, hrequests, hread.append hserved, hwants⟩

/-- A gateway and one tool, on three ports of one host. -/
def oneTool : Hosts where
  gateway := { sinPort := 1 }
  publisher := { sinPort := 2 }
  tools := [{ sinPort := 3 }]
  gateway_unicast := by decide
  publisher_unicast := by decide
  tools_unicast := List.forall_mem_singleton.mpr (by decide)
  gateway_new := by decide
  publisher_new := by decide
  publisher_ne := by decide

/-- The tool is served at the latest behind 100 frames of a message that the gateway knows. -/
theorem waiting_served_oneTool :
    ∃ first opening moves final sent, @Gateway.start Int [] 0 = some (first, opening) ∧
      (@Hosts.protocol Int intOps oneTool
          { messages := Finmap.singleton 0x123 { canId := 0x123, name := [], length := 8 } }
        ).machine.Run
        { parties := { gateway := first }, inFlight := opening.flatMap oneTool.sendAction }
        moves final sent ∧
      wants { sinPort := 3 } ≤ oneTool.recorded final.parties := by
  let := intOps
  let dbc : DbcParser Int :=
    { messages := Finmap.singleton 0x123 { canId := 0x123, name := [], length := 8 } }
  have hmessage : messageOf dbc (.can { n := 16, frame := { canId := 0x123 } } {}) =
      some { canId := 0x123, name := [], length := 8 } := Finmap.lookup_singleton_eq
  let reads : List (CanRead × Clock) :=
    List.replicate 100 ({ n := 16, frame := { canId := 0x123 } }, {})
  have hreads : 100 ≤ processed dbc (reads.map fun read => .can read.1 read.2) := by
    rw [List.map_replicate, processed, List.filterMap_replicate_of_some hmessage,
      List.length_replicate]
  obtain ⟨first, opening, hstart, hrun⟩ :=
    waiting_served oneTool dbc [] 0 (by decide : oneTool.tools.count { sinPort := 3 } = 1)
  obtain ⟨-, hwaiting⟩ := hrun [] _ [] (.nil _)
  obtain ⟨data, requests, final, more, -, hserved, hwants⟩ :=
    (hwaiting List.not_mem_nil).2 reads hreads
  exact ⟨first, opening, _, final, more, hstart, hserved, hwants⟩

end AutomotiveGateway
