import AutomotiveGateway.Foundation.Network
import AutomotiveGateway.Gateway.Schedule
import AutomotiveGateway.Someip.Renewals

/-!
# Gateway and subscriber tools on one network

A subscriber tool waits for the first datagram on its service discovery socket, asks its sender
for the three services and closes the socket. Datagrams may be lost, copied and delivered in any
order, and other hosts may send what they like. What the gateway has recorded, what is under way
and what was lost together are what the tools have asked for, and no more than was copied.
-/

namespace AutomotiveGateway

open ByteOrder Can Memory Protocol Someip

/-- The groups that the gateway sends to. -/
def IsGroup (addr : SockaddrIn) : Prop := addr = sdMulticast ∨ addr = notificationAddr

instance decidableIsGroup (addr : SockaddrIn) : Decidable (IsGroup addr) := by
  unfold IsGroup
  infer_instance

/-- The addresses of the gateway's two sockets and of the tools. -/
structure Hosts where
  gateway : SockaddrIn
  publisher : SockaddrIn
  tools : List SockaddrIn
  gateway_unicast : ¬ IsGroup gateway
  publisher_unicast : ¬ IsGroup publisher
  tools_unicast : ∀ tool ∈ tools, ¬ IsGroup tool
  gateway_new : gateway ∉ tools
  publisher_new : publisher ∉ tools
  publisher_ne : publisher ≠ gateway

structure Datagram where
  dest : SockaddrIn
  source : SockaddrIn
  data : List UInt8
deriving DecidableEq, Repr

/-- The gateway, and the tools that have left their service discovery socket, each with the
sender it has asked. -/
structure Discovery where
  gateway : Gateway
  asked : List (SockaddrIn × SockaddrIn) := []

/-- An address of no host of the model. -/
def Hosts.Foreign (hosts : Hosts) (addr : SockaddrIn) : Prop :=
  addr ≠ hosts.gateway ∧ addr ∉ hosts.tools ∧ ¬ IsGroup addr

/-- What happens without a datagram of the model: the CAN socket is readable, or another host
sends. -/
inductive Happening (hosts : Hosts)
  | can (read : CanRead) (clock : Clock)
  | foreign (source : { addr // hosts.Foreign addr }) (dest : SockaddrIn) (data : List UInt8)

namespace Hosts

/-- A datagram to a group reaches every host, unless it is lost. -/
def send (hosts : Hosts) (source dest : SockaddrIn) (data : List UInt8) : List Datagram :=
  (if IsGroup dest then hosts.gateway :: hosts.tools else [dest]).map fun dest =>
    { dest, source, data }

variable {D : Type}

/-- The datagrams that an action of the gateway sends. -/
def sendAction (hosts : Hosts) : GatewayAction D → List Datagram
  | .notify data dest => hosts.send hosts.publisher dest data
  | .sd (.sendto data dest) => hosts.send hosts.gateway dest data
  | _ => []

/-- The requests of a tool, to the sender of the first datagram that it receives. -/
def subscribe (hosts : Hosts) (tool sender : SockaddrIn) : Option (List Datagram) := do
  let engine ← sendSubscribe 0x0101 0x0001
  let speed ← sendSubscribe 0x0102 0x0001
  let brake ← sendSubscribe 0x0103 0x0001
  return hosts.send tool sender engine ++ hosts.send tool sender speed ++
    hosts.send tool sender brake

variable [DoubleOps D]

/-- What the parties do. -/
def protocol (hosts : Hosts) (dbc : DbcParser D) :
    Protocol Discovery (Happening hosts) Datagram where
  act state
    | .can read clock => (state.gateway.serve dbc (.can read clock)).map fun served =>
        ({ state with gateway := served.1 }, served.2.flatMap hosts.sendAction)
    | .foreign source dest data => some (state, hosts.send source dest data)
  deliver state datagram :=
    if datagram.dest = hosts.gateway then
      (state.gateway.serve dbc (.sd (some (datagram.data, datagram.source)))).map fun served =>
        ({ state with gateway := served.1 }, served.2.flatMap hosts.sendAction)
    else if datagram.dest ∈ hosts.tools ∧ datagram.dest ∉ state.asked.map Prod.fst then
      (hosts.subscribe datagram.dest datagram.source).map fun requests =>
        ({ state with asked := state.asked ++ [(datagram.dest, datagram.source)] }, requests)
    else some (state, [])

end Hosts

/-! ## Requests -/

/-- The subscriptions of the tools that a datagram asks the gateway for. -/
def Hosts.requests (hosts : Hosts) (datagram : Datagram) : Multiset Subscriber :=
  if datagram.dest = hosts.gateway ∧ datagram.source ∈ hosts.tools then
    ((SdCall.onReadable (some (datagram.data, datagram.source))).requested : List Subscriber)
  else 0

/-- The subscriptions that the requests of a tool stand for. It asks for eventgroup 0x0001, but
writes it behind the place where the gateway reads, which is 0. -/
def wants (tool : SockaddrIn) : Multiset Subscriber :=
  {⟨tool, 0x0101, 0⟩, ⟨tool, 0x0102, 0⟩, ⟨tool, 0x0103, 0⟩}

/-- What the tools have asked the gateway for. -/
def Hosts.wanted (hosts : Hosts) (asked : List (SockaddrIn × SockaddrIn)) : Multiset Subscriber :=
  ((asked.filter fun asked => asked.2 = hosts.gateway : List (SockaddrIn × SockaddrIn)) :
    Multiset (SockaddrIn × SockaddrIn)).bind fun asked => wants asked.1

/-- The records of the tools. -/
def Hosts.recorded (hosts : Hosts) (state : Discovery) : Multiset Subscriber :=
  (state.gateway.sd.subscribers.filter fun sub => sub.addr ∈ hosts.tools : List Subscriber)

variable {hosts : Hosts}

/-- Several datagrams ask for what each of them asks for. -/
def Hosts.allRequests (hosts : Hosts) (datagrams : Multiset Datagram) : Multiset Subscriber :=
  datagrams.bind hosts.requests

theorem allRequests_add (datagrams more : Multiset Datagram) :
    hosts.allRequests (datagrams + more) = hosts.allRequests datagrams + hosts.allRequests more :=
  Multiset.add_bind datagrams more hosts.requests

theorem allRequests_append (datagrams more : List Datagram) :
    hosts.allRequests ((datagrams ++ more : List Datagram) : Multiset Datagram) =
      hosts.allRequests datagrams + hosts.allRequests more := by
  rw [← Multiset.coe_add, allRequests_add]

/-- Only tools ask for subscriptions of tools. -/
theorem allRequests_of_source {datagrams : List Datagram}
    (hsource : ∀ datagram ∈ datagrams, datagram.source ∉ hosts.tools) :
    hosts.allRequests datagrams = 0 := by
  rw [Hosts.allRequests, Multiset.eq_zero_iff_forall_notMem]
  intro sub hmem
  obtain ⟨datagram, hdatagram, hsub⟩ := Multiset.mem_bind.mp hmem
  rw [Hosts.requests, if_neg fun h => hsource datagram (Multiset.mem_coe.mp hdatagram) h.2] at hsub
  exact absurd hsub (Multiset.notMem_zero sub)

theorem source_of_mem_send {source dest : SockaddrIn} {data : List UInt8} {datagram : Datagram}
    (hmem : datagram ∈ hosts.send source dest data) : datagram.source = source := by
  obtain ⟨_, -, rfl⟩ := List.mem_map.mp hmem
  rfl

theorem requested_subscribeImage (serviceId eventgroupId : UInt16) (sender : SockaddrIn) :
    (SdCall.onReadable (some (subscribeImage serviceId eventgroupId, sender))).requested =
      [⟨sender, serviceId, 0⟩] := by
  have hwhole : (subscribeImage serviceId eventgroupId).take 1500 =
      subscribeImage serviceId eventgroupId := List.take_of_length_le (Nat.le_of_ble_eq_true rfl)
  rw [SdCall.requested, hwhole, if_pos (isSd_subscribeImage serviceId eventgroupId),
    subscriptions_subscribeImage]

/-- A request that a tool sends to the gateway asks for one subscription. -/
theorem allRequests_send_subscribeImage {tool sender : SockaddrIn} (htool : tool ∈ hosts.tools)
    (hsender : ¬ IsGroup sender) (serviceId eventgroupId : UInt16) :
    hosts.allRequests (hosts.send tool sender (subscribeImage serviceId eventgroupId)) =
      if sender = hosts.gateway then {⟨tool, serviceId, 0⟩} else 0 := by
  rw [Hosts.send, if_neg hsender, List.map_singleton, Hosts.allRequests, Multiset.coe_singleton,
    Multiset.singleton_bind, Hosts.requests, requested_subscribeImage]
  by_cases hgateway : sender = hosts.gateway
  · rw [if_pos ⟨hgateway, htool⟩, if_pos hgateway]
    rfl
  · rw [if_neg fun h => hgateway h.1, if_neg hgateway]

theorem addr_of_mem_requested {datagram : List UInt8} {sender : SockaddrIn} {sub : Subscriber}
    (hsub : sub ∈ (SdCall.onReadable (some (datagram, sender))).requested) : sub.addr = sender := by
  rw [SdCall.requested] at hsub
  split at hsub
  · obtain ⟨entry, -, hentry⟩ := List.mem_filterMap.mp hsub
    rw [ReadEntry.subscriber?] at hentry
    split at hentry
    · rw [← Option.some.inj hentry]
    · exact absurd hentry (by simp)
  · exact absurd hsub List.not_mem_nil

/-- The requests of a tool always leave, and ask the gateway for what the tool wants, if they go
there. -/
theorem exists_subscribe {tool sender : SockaddrIn} (htool : tool ∈ hosts.tools)
    (hsender : ¬ IsGroup sender) :
    ∃ requests, hosts.subscribe tool sender = some requests ∧
      (∀ datagram ∈ requests, datagram.source = tool) ∧
      hosts.allRequests requests = hosts.wanted [(tool, sender)] := by
  simp only [Hosts.subscribe, sendSubscribe_eq, Option.bind_eq_bind, Option.bind_some]
  refine ⟨_, rfl, ?_, ?_⟩
  · intro datagram hmem
    rw [List.mem_append, List.mem_append] at hmem
    rcases hmem with (hmem | hmem) | hmem
    · exact source_of_mem_send hmem
    · exact source_of_mem_send hmem
    · exact source_of_mem_send hmem
  · rw [allRequests_append, allRequests_append, allRequests_send_subscribeImage htool hsender,
      allRequests_send_subscribeImage htool hsender, allRequests_send_subscribeImage htool hsender,
      Hosts.wanted]
    by_cases hgateway : sender = hosts.gateway
    · rw [if_pos hgateway, if_pos hgateway, if_pos hgateway,
        List.filter_cons_of_pos (by simpa using hgateway)]
      rfl
    · rw [if_neg hgateway, if_neg hgateway, if_neg hgateway,
        List.filter_cons_of_neg (by simpa using hgateway)]
      rfl

theorem wanted_append (asked more : List (SockaddrIn × SockaddrIn)) :
    hosts.wanted (asked ++ more) = hosts.wanted asked + hosts.wanted more := by
  rw [Hosts.wanted, List.filter_append, ← Multiset.coe_add, Multiset.add_bind]
  rfl

/-! ## The gateway -/

section Gateway

variable {D : Type}

theorem source_of_mem_sendAction {action : GatewayAction D} {datagram : Datagram}
    (hmem : datagram ∈ hosts.sendAction action) :
    datagram.source = hosts.gateway ∨ datagram.source = hosts.publisher := by
  cases action with
  | notify data dest => exact .inr (source_of_mem_send hmem)
  | sd action =>
      cases action with
      | sendto data dest => exact .inl (source_of_mem_send hmem)
      | onSubscribe sub => exact absurd hmem List.not_mem_nil
  | _ => exact absurd hmem List.not_mem_nil

/-- The gateway sends as itself, and asks for nothing. -/
theorem sendAction_spec (actions : List (GatewayAction D)) :
    (∀ datagram ∈ actions.flatMap hosts.sendAction, ¬ IsGroup datagram.source) ∧
      hosts.allRequests (actions.flatMap hosts.sendAction) = 0 := by
  have hsource : ∀ datagram ∈ actions.flatMap hosts.sendAction,
      datagram.source = hosts.gateway ∨ datagram.source = hosts.publisher := by
    intro datagram hmem
    obtain ⟨action, -, hmem⟩ := List.mem_flatMap.mp hmem
    exact source_of_mem_sendAction hmem
  refine ⟨fun datagram hmem => ?_, allRequests_of_source fun datagram hmem => ?_⟩
  · rcases hsource datagram hmem with heq | heq
    · exact heq ▸ hosts.gateway_unicast
    · exact heq ▸ hosts.publisher_unicast
  · rcases hsource datagram hmem with heq | heq
    · exact heq ▸ hosts.gateway_new
    · exact heq ▸ hosts.publisher_new

variable [DoubleOps D]

/-- Serving a frame records nothing, and serving a datagram records what it asks for. -/
theorem Gateway.subscribers_serve {dbc : DbcParser D} {gateway next : Gateway}
    {event : GatewayEvent} {actions : List (GatewayAction D)}
    (hserve : gateway.serve dbc event = some (next, actions)) :
    next.sd.subscribers = gateway.sd.subscribers ++
      match event with
      | .sd received => (SdCall.onReadable received).requested
      | .can _ _ => [] := by
  cases event with
  | can read clock =>
      rw [Gateway.serve] at hserve
      cases hframe : read.frame? with
      | none =>
          rw [hframe] at hserve
          cases hserve
          exact (List.append_nil _).symm
      | some frame =>
          rw [hframe] at hserve
          rcases Gateway.onCanFrame_cases hserve with ⟨-, rfl, -⟩ |
            ⟨msg, publisher, upkeep, sent, -, hafter, -⟩
          · exact (List.append_nil _).symm
          · obtain ⟨-, -, body, -, -, hsd, -⟩ := Gateway.afterPublish_schedule hafter
            rw [(run_requested hsd).1]
            split_ifs <;> rfl
  | sd received =>
      simp only [Gateway.serve, Option.bind_eq_bind, Option.bind_eq_some_iff] at hserve
      obtain ⟨⟨sd, actions⟩, hreadable, hnext⟩ := hserve
      cases hnext
      exact (@step_requested _ _ (.onReadable received) _ hreadable).1

end Gateway

/-! ## One move -/

section Moves

variable {D : Type} [DoubleOps D] {dbc : DbcParser D} {state next : Discovery}
  {sent : List Datagram}

/-- What is asked for and recorded when a party moves, `asking` being what it is asked for. -/
structure Serves (hosts : Hosts) (state next : Discovery) (sent : List Datagram)
    (asking : Multiset Subscriber) : Prop where
  unicast : ∀ datagram ∈ sent, ¬ IsGroup datagram.source
  wanted : hosts.wanted next.asked = hosts.wanted state.asked + hosts.allRequests sent
  recorded : hosts.recorded next = hosts.recorded state + asking
  tools : (state.asked.map Prod.fst).Nodup → (next.asked.map Prod.fst).Nodup

/-- Each subscription is recorded with the address that asked for it. -/
theorem filter_requested (datagram : Datagram) (hdest : datagram.dest = hosts.gateway) :
    (((SdCall.onReadable (some (datagram.data, datagram.source))).requested.filter
      fun sub => sub.addr ∈ hosts.tools : List Subscriber) : Multiset Subscriber) =
      hosts.requests datagram := by
  have haddr : ∀ sub ∈ (SdCall.onReadable (some (datagram.data, datagram.source))).requested,
      sub.addr = datagram.source := fun sub hsub => addr_of_mem_requested hsub
  rw [Hosts.requests]
  by_cases htool : datagram.source ∈ hosts.tools
  · rw [if_pos ⟨hdest, htool⟩, List.filter_eq_self.mpr]
    intro sub hsub
    simpa [haddr sub hsub] using htool
  · rw [if_neg fun h => htool h.2, List.filter_eq_nil_iff.mpr]
    · rfl
    · intro sub hsub
      simpa [haddr sub hsub] using htool

theorem act_serves {happening : Happening hosts}
    (hact : (hosts.protocol dbc).act state happening = some (next, sent)) :
    Serves hosts state next sent 0 := by
  cases happening with
  | can read clock =>
      obtain ⟨⟨gateway, actions⟩, hserve, hnext⟩ := Option.map_eq_some_iff.mp hact
      cases hnext
      obtain ⟨hunicast, hnothing⟩ := @sendAction_spec hosts D actions
      exact
        { unicast := hunicast
          wanted := by rw [hnothing, add_zero]
          recorded := by
            rw [Hosts.recorded, Gateway.subscribers_serve hserve, List.append_nil, add_zero]
            rfl
          tools := id }
  | foreign source dest data =>
      cases hact
      have hsource : ∀ datagram ∈ hosts.send source dest data, datagram.source = source :=
        fun datagram hmem => source_of_mem_send hmem
      exact
        { unicast := fun datagram hmem => hsource datagram hmem ▸ source.2.2.2
          wanted := by
            rw [allRequests_of_source fun datagram hmem => hsource datagram hmem ▸ source.2.2.1,
              add_zero]
          recorded := (add_zero _).symm
          tools := id }

theorem deliver_serves {datagram : Datagram} (hunicast : ¬ IsGroup datagram.source)
    (hdeliver : (hosts.protocol dbc).deliver state datagram = some (next, sent)) :
    Serves hosts state next sent (hosts.requests datagram) := by
  have hnone : datagram.dest ≠ hosts.gateway → hosts.requests datagram = 0 :=
    fun hdest => if_neg fun h => hdest h.1
  simp only [Hosts.protocol] at hdeliver
  split_ifs at hdeliver with hdest htool
  · obtain ⟨⟨gateway, actions⟩, hserve, hnext⟩ := Option.map_eq_some_iff.mp hdeliver
    cases hnext
    obtain ⟨hown, hnothing⟩ := @sendAction_spec hosts D actions
    exact
      { unicast := hown
        wanted := by rw [hnothing, add_zero]
        recorded := by
          rw [Hosts.recorded, Gateway.subscribers_serve hserve, List.filter_append,
            ← Multiset.coe_add, filter_requested datagram hdest]
          rfl
        tools := id }
  -- the first datagram that a tool gets is the one it waits for; it then asks whoever sent it
  · obtain ⟨requests, hrequests, hsource, hasked⟩ := exists_subscribe htool.1 hunicast
    rw [hrequests, Option.map_some] at hdeliver
    cases hdeliver
    exact
      { unicast := fun other hmem => hsource other hmem ▸ hosts.tools_unicast _ htool.1
        wanted := by rw [wanted_append, hasked]
        recorded := by
          rw [hnone hdest, add_zero]
          rfl
        tools := by
          intro hnodup
          rw [List.map_append, List.nodup_append]
          refine ⟨hnodup, List.nodup_singleton _, ?_⟩
          rintro tool hmem _ hlast rfl
          have hsame : tool = datagram.dest := List.mem_singleton.mp hlast
          exact htool.2 (hsame ▸ hmem) }
  · cases hdeliver
    exact
      { unicast := by simp
        wanted := (add_zero _).symm
        recorded := by rw [hnone hdest, add_zero]
        tools := id }

theorem Serves.refl (state : Discovery) : Serves hosts state state [] 0 where
  unicast := by simp
  wanted := (add_zero _).symm
  recorded := (add_zero _).symm
  tools := id

/-- A move serves the datagram that it delivers, and nobody sends from a group. -/
theorem move_serves {net after : Net Discovery Datagram} {move : Move (Happening hosts) Datagram}
    (hnet : ∀ datagram ∈ net.inFlight, ¬ IsGroup datagram.source)
    (henabled : (hosts.protocol dbc).machine.Enabled net move)
    (hstep : (hosts.protocol dbc).machine.step net move = some (after, sent)) :
    Serves hosts net.parties after.parties sent (hosts.allRequests (delivered [move])) ∧
      ∀ datagram ∈ after.inFlight, ¬ IsGroup datagram.source := by
  have hserves : Serves hosts net.parties after.parties sent
      (hosts.allRequests (delivered [move])) := by
    rcases step_cases henabled hstep with ⟨happening, rfl, hact, -⟩ |
      ⟨datagram, rfl, hmem, hdeliver, -⟩ | ⟨datagram, rfl, -, hparties, rfl, -⟩ |
      ⟨datagram, rfl, -, hparties, rfl, -⟩
    · exact act_serves hact
    · have hone : hosts.allRequests
          (delivered [(.deliver datagram : Move (Happening hosts) Datagram)]) =
          hosts.requests datagram := Multiset.singleton_bind datagram hosts.requests
      rw [hone]
      exact deliver_serves (hnet datagram hmem) hdeliver
    · rw [hparties]
      exact .refl _
    · rw [hparties]
      exact .refl _
  exact ⟨hserves, fun datagram hmem =>
    (mem_inFlight_of_step henabled hstep hmem).elim (hnet datagram) (hserves.unicast datagram)⟩

/-! ## Whole runs -/

/-- What is asked for and recorded in a run. -/
theorem run_serves {first last : Net Discovery Datagram}
    {moves : List (Move (Happening hosts) Datagram)}
    (hrun : (hosts.protocol dbc).machine.Run first moves last sent)
    (hfirst : ∀ datagram ∈ first.inFlight, ¬ IsGroup datagram.source) :
    Serves hosts first.parties last.parties sent (hosts.allRequests (delivered moves)) := by
  induction hrun with
  | nil => exact .refl _
  | @cons net move middle out moves last outs henabled hstep _ ih =>
      obtain ⟨hmove, hmiddle⟩ := move_serves hfirst henabled hstep
      have hrest := ih hmiddle
      exact
        { unicast := fun datagram hmem =>
            (List.mem_append.mp hmem).elim (hmove.unicast datagram) (hrest.unicast datagram)
          wanted := by rw [hrest.wanted, hmove.wanted, allRequests_append, add_assoc]
          recorded := by
            rw [hrest.recorded, hmove.recorded, delivered_cons move moves, allRequests_append,
              add_assoc]
          tools := fun hnodup => hrest.tools (hmove.tools hnodup) }

theorem addr_of_mem_wants {tool : SockaddrIn} {sub : Subscriber} (hsub : sub ∈ wants tool) :
    sub.addr = tool := by
  simp only [wants, Multiset.insert_eq_cons, Multiset.mem_cons, Multiset.mem_singleton] at hsub
  rcases hsub with rfl | rfl | rfl
  · rfl
  · rfl
  · rfl

/-- Each tool asks once, so nothing is wanted twice. -/
theorem nodup_wanted {asked : List (SockaddrIn × SockaddrIn)}
    (htools : (asked.map Prod.fst).Nodup) : (hosts.wanted asked).Nodup := by
  have hmem : ∀ asked : List (SockaddrIn × SockaddrIn), ∀ sub ∈ hosts.wanted asked,
      sub.addr ∈ asked.map Prod.fst := by
    intro asked sub hsub
    obtain ⟨step, hstep, hsub⟩ := Multiset.mem_bind.mp hsub
    rw [addr_of_mem_wants hsub]
    exact List.mem_map_of_mem (List.mem_of_mem_filter (Multiset.mem_coe.mp hstep))
  induction asked with
  | nil => exact Multiset.nodup_zero
  | cons step asked ih =>
      rw [List.map_cons, List.nodup_cons] at htools
      have hsplit : hosts.wanted (step :: asked) = hosts.wanted [step] + hosts.wanted asked :=
        wanted_append [step] asked
      have hone : (hosts.wanted [step]).Nodup := by
        by_cases hgateway : step.2 = hosts.gateway
        · rw [Hosts.wanted, List.filter_cons_of_pos (by simpa using hgateway)]
          simp [wants]
        · rw [Hosts.wanted, List.filter_cons_of_neg (by simpa using hgateway)]
          exact Multiset.nodup_zero
      rw [hsplit, Multiset.nodup_add]
      refine ⟨hone, ih htools.2, Multiset.disjoint_left.mpr ?_⟩
      intro sub hfirst hrest
      have haddr := hmem [step] sub hfirst
      rw [List.map_singleton, List.mem_singleton] at haddr
      exact htools.1 (haddr ▸ hmem asked sub hrest)

/-- In every run of the gateway, its tools and other hosts, over a network that loses, copies and
reorders datagrams, the subscriptions of the tools that the gateway has recorded, those whose
requests are under way and those whose requests were lost are together those that the tools
woken by it want, and one more for each copy. Nothing else is recorded for a tool. Without
copies none is recorded twice, and one whose request was lost never is. -/
theorem subscriptions_conserved (hosts : Hosts) (dbc : DbcParser D) (routes : List SignalRoute)
    (localIp : UInt32) :
    ∃ first opening, @Gateway.start D routes localIp = some (first, opening) ∧
      ∀ moves last sent, (hosts.protocol dbc).machine.Run
          { parties := { gateway := first }, inFlight := opening.flatMap hosts.sendAction }
          moves last sent →
        hosts.recorded last.parties + hosts.allRequests last.inFlight +
            hosts.allRequests (lost moves) =
          hosts.wanted last.parties.asked + hosts.allRequests (duplicated moves) ∧
        hosts.recorded last.parties ⊆ hosts.wanted last.parties.asked ∧
        (hosts.allRequests (duplicated moves) = 0 →
          (hosts.recorded last.parties).Nodup ∧
          ∀ sub ∈ hosts.allRequests (lost moves), sub ∉ hosts.recorded last.parties) := by
  obtain ⟨first, opening, hstart, -, hopening, -⟩ :=
    @Gateway.exists_start_schedule D routes localIp
  refine ⟨first, opening, hstart, fun moves last sent hrun => ?_⟩
  obtain ⟨hunicast, hnothing⟩ := @sendAction_spec hosts D opening
  have hnone : hosts.recorded { gateway := first } = 0 := by
    rw [Hosts.recorded, (run_requested hopening).1]
    rfl
  have hserves := run_serves hrun hunicast
  have hrecorded : hosts.recorded last.parties = hosts.allRequests (delivered moves) := by
    rw [hserves.recorded, hnone, zero_add]
  have hwanted : hosts.wanted last.parties.asked = hosts.allRequests sent := by
    rw [hserves.wanted]
    exact zero_add _
  -- recorded is what was delivered, and wanted what was sent
  have hconserved : hosts.recorded last.parties + hosts.allRequests last.inFlight +
        hosts.allRequests (lost moves) =
      hosts.wanted last.parties.asked + hosts.allRequests (duplicated moves) := by
    have hbalance : hosts.allRequests last.inFlight + hosts.allRequests (delivered moves) +
          hosts.allRequests (lost moves) =
        hosts.allRequests (opening.flatMap hosts.sendAction) + hosts.allRequests sent +
          hosts.allRequests (duplicated moves) := balance_bind hosts.requests hrun
    rw [hnothing, zero_add] at hbalance
    rw [hrecorded, hwanted, add_comm (hosts.allRequests (delivered moves)), hbalance]
  refine ⟨hconserved, ?_, fun hcopies => ?_⟩
  · intro sub hsub
    rw [hrecorded] at hsub
    obtain ⟨datagram, hmem, hasks⟩ := Multiset.mem_bind.mp hsub
    -- what was delivered was sent: by the gateway at its start, which asks for nothing, or later
    rcases mem_sent_of_run hrun (.inr (Multiset.mem_coe.mp hmem)) with hopened | hsent
    · have hsome : sub ∈ hosts.allRequests (opening.flatMap hosts.sendAction) :=
        Multiset.mem_bind.mpr ⟨datagram, hopened, hasks⟩
      rw [hnothing] at hsome
      exact absurd hsome (Multiset.notMem_zero sub)
    · rw [hwanted]
      exact Multiset.mem_bind.mpr ⟨datagram, Multiset.mem_coe.mpr hsent, hasks⟩
  -- the three parts of something without duplicates are disjoint
  · have hnodup := @nodup_wanted hosts _ (hserves.tools List.nodup_nil)
    rw [hcopies, add_zero] at hconserved
    rw [← hconserved, add_right_comm, Multiset.nodup_add, Multiset.nodup_add] at hnodup
    refine ⟨hnodup.1.1, fun sub hlost hsub => ?_⟩
    exact Multiset.disjoint_left.mp hnodup.1.2.2 hsub hlost

end Moves

end AutomotiveGateway
