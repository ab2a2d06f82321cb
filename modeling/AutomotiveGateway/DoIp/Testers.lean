import AutomotiveGateway.DoIp.Diagnosis
import AutomotiveGateway.DoIp.Oversized

/-!
# The server and all its testers

Testers connect, send and leave in any order, while the loop of the server finds this or that
socket readable. Each tester has with the unit the conversation that it would have alone.
-/

namespace AutomotiveGateway.DoIp

/-- A tester sends, or the loop takes a turn. A tester that sends before it is accepted has its
bytes in the socket once it is. -/
inductive TesterEvent
  | send (fd : Int) (bytes : List UInt8)
  | turn (event : Event)

/-- The connection an event belongs to. -/
def TesterEvent.fd : TesterEvent → Int
  | send fd _ => fd
  | turn event => event.fd

def TesterEvent.bytes : TesterEvent → List UInt8
  | send _ bytes => bytes
  | turn _ => []

/-- What is sent over a connection. -/
def sentOn (fd : Int) (events : List TesterEvent) : List UInt8 :=
  (events.filter fun event => event.fd = fd).flatMap TesterEvent.bytes

namespace Event

/-- `recv` finds the bytes that wait first. -/
def Offered (queue : List UInt8) : Event → Prop
  | accept _ => True
  | receive _ (.data bytes) => bytes <+: queue
  | receive _ (.error _) => True

/-- The bytes that wait behind a turn: `recv` takes those it has room for. -/
def unread (entry : Option DoIpConnection) (queue : List UInt8) : Event → List UInt8
  | accept _ => []
  | receive _ received =>
      match entry with
      | none => queue
      | some conn => queue.drop (received.recv conn.capacity).2.length

end Event

/-- The tester has left, or its connection is broken. -/
def RecvResult.Ends : RecvResult → Prop
  | data bytes => bytes = []
  | error _ => True

/-- The server, and the bytes that wait in each socket. -/
structure Testers where
  world : World
  queue : Int → List UInt8

def Testers.start (uds : UdsHandler) (listenFd : Int) : Testers where
  world := World.start uds listenFd
  queue _ := []

/-- The socket of a descriptor. -/
def Testers.socket (net : Testers) (fd : Int) : ClientSocket where
  conn := net.world.server.connections.lookup fd
  queue := net.queue fd

/-- The server, with a 64-bit `size_t`, driven by what all testers do. -/
def testers : Machine Testers TesterEvent Action where
  Enabled net
    | .send _ _ => True
    | .turn event => net.world.Enabled event ∧ event.Offered (net.queue event.fd)
  step net
    | .send fd bytes =>
        some ({ net with queue := Function.update net.queue fd (net.queue fd ++ bytes) }, [])
    | .turn event => do
        let (world, actions) ← net.world.step 64 event
        let unread := event.unread (net.socket event.fd).conn (net.queue event.fd)
        return ({ world, queue := Function.update net.queue event.fd unread }, actions)

/-- One socket, driven by its own events. -/
def tester (uds : UdsHandler) (listenFd : Int) : Machine ClientSocket TesterEvent Action where
  Enabled socket
    | .send _ _ => True
    | .turn event =>
        (client 64 uds listenFd).Enabled socket.conn event ∧ event.Offered socket.queue
  step socket
    | .send _ bytes => some ({ socket with queue := socket.queue ++ bytes }, [])
    | .turn event => do
        let (conn, actions) ← entryStep 64 uds socket.conn event
        return ({ conn, queue := event.unread socket.conn socket.queue }, actions)

/-! ## One tester among all -/

section Projection

variable {uds : UdsHandler} {listenFd : Int} {net next : Testers} {event : TesterEvent}
  {actions : List Action}

/-- Everything a step of the testers can be. -/
theorem testers_step_cases (hstep : testers.step net event = some (next, actions)) :
    (∃ fd bytes, event = .send fd bytes ∧ next.world = net.world ∧ actions = [] ∧
      next.queue = Function.update net.queue fd (net.queue fd ++ bytes)) ∨
    ∃ turn, event = .turn turn ∧ net.world.step 64 turn = some (next.world, actions) ∧
      next.queue = Function.update net.queue turn.fd
        (turn.unread (net.socket turn.fd).conn (net.queue turn.fd)) := by
  cases event with
  | send fd bytes =>
      cases hstep
      exact .inl ⟨fd, bytes, rfl, rfl, rfl, rfl⟩
  | turn turn =>
      obtain ⟨⟨world, outs⟩, hturn, hnext⟩ := Option.bind_eq_some_iff.mp hstep
      cases hnext
      exact .inr ⟨turn, rfl, hturn, rfl⟩

theorem testers_step_send (net : Testers) (fd : Int) (bytes : List UInt8) :
    testers.step net (.send fd bytes) =
      some ({ net with queue := Function.update net.queue fd (net.queue fd ++ bytes) }, []) := rfl

theorem testers_step_turn (net : Testers) {turn : Event} {world : World}
    (hturn : net.world.step 64 turn = some (world, actions)) :
    testers.step net (.turn turn) =
      some ({ world
              queue := Function.update net.queue turn.fd
                (turn.unread (net.socket turn.fd).conn (net.queue turn.fd)) }, actions) := by
  simp only [testers, hturn]
  rfl

/-- The server with its testers is a family of sockets. -/
def bySocket (uds : UdsHandler) (listenFd : Int) :
    Machine.Projection testers (tester uds listenFd) Int where
  key := TesterEvent.fd
  outKey := Action.fd
  view := Testers.socket
  Inv net := net.world.Consistent uds listenFd
  enabled_iff := by
    rintro net (⟨fd, bytes⟩ | turn) hconsistent
    · rfl
    · exact and_congr_left' hconsistent.enabled_iff
  step_isSome := by
    rintro net (⟨fd, bytes⟩ | turn) hconsistent henabled hsome
    · rfl
    · obtain ⟨socket, hsocket⟩ := Option.isSome_iff_exists.mp hsome
      obtain ⟨served, hserved, -⟩ := Option.bind_eq_some_iff.mp hsocket
      obtain ⟨⟨world, outs⟩, hturn⟩ := Option.isSome_iff_exists.mp
        (hconsistent.step_isSome henabled.1 (Option.isSome_of_eq_some hserved))
      rw [testers_step_turn net hturn]
      rfl
  step_own := by
    intro net event next actions hconsistent henabled hstep
    rcases testers_step_cases hstep with ⟨fd, bytes, rfl, hworld, rfl, hqueue⟩ |
      ⟨turn, rfl, hturn, hqueue⟩
    · simp only [tester, TesterEvent.fd, Testers.socket, hworld, hqueue, Function.update_self]
    · have hown := hconsistent.step_own henabled.1 hturn
      have hentry : entryStep 64 uds (net.socket turn.fd).conn turn = _ := hown
      simp only [tester, TesterEvent.fd, hentry]
      simp only [Testers.socket, hqueue, Function.update_self]
      rfl
  step_other := by
    intro net event next actions hconsistent henabled hstep other hother
    rcases testers_step_cases hstep with ⟨fd, bytes, rfl, hworld, -, hqueue⟩ |
      ⟨turn, rfl, hturn, hqueue⟩
    · have hother' : next.queue other = net.queue other := by
        rw [hqueue]
        exact Function.update_of_ne hother _ _
      simp only [Testers.socket, hworld, hother']
    · have hentry := hconsistent.step_other henabled.1 hturn other hother
      have hother' : next.queue other = net.queue other := by
        rw [hqueue]
        exact Function.update_of_ne hother _ _
      simp only [Testers.socket, hentry, hother']
  step_out := by
    intro net event next actions hconsistent henabled hstep
    rcases testers_step_cases hstep with ⟨fd, bytes, rfl, -, rfl, -⟩ | ⟨turn, rfl, hturn, -⟩
    · exact List.forall_mem_nil _
    · exact hconsistent.step_out henabled.1 hturn
  step_inv := by
    intro net event next actions hconsistent henabled hstep
    rcases testers_step_cases hstep with ⟨fd, bytes, -, hworld, -, -⟩ | ⟨turn, rfl, hturn, -⟩
    · exact hworld ▸ hconsistent
    · exact hconsistent.step henabled.1 hturn

end Projection

/-! ## What the server has heard from a tester -/

/-- The tester has sent this stream and the server has served some of it. What it has not received
waits in the socket while the server keeps the connection. -/
def Heard (uds : UdsHandler) (fd : Int) (stream : List UInt8) (actions : List Action)
    (socket : ClientSocket) : Prop :=
  ∃ received rest conn, stream = received ++ rest ∧
    Served uds (DoIpConnection.accepted fd) conn received actions ∧
    ∀ kept, socket.conn = some kept → kept = conn ∧ rest = socket.queue

section Heard

variable {uds : UdsHandler} {listenFd fd : Int} {stream : List UInt8} {actions : List Action}
  {socket : ClientSocket}

theorem Heard.start (uds : UdsHandler) (fd : Int) :
    Heard uds fd [] [] { conn := some (.accepted fd) } := by
  refine ⟨[], [], .accepted fd, rfl, served_accepted uds fd, ?_⟩
  intro kept hkept
  exact ⟨(Option.some.inj hkept).symm, rfl⟩

theorem Heard.send (h : Heard uds fd stream actions socket) (bytes : List UInt8) :
    Heard uds fd (stream ++ bytes) actions { socket with queue := socket.queue ++ bytes } := by
  obtain ⟨received, rest, conn, rfl, hserved, hkept⟩ := h
  refine ⟨received, rest ++ bytes, conn, List.append_assoc received rest bytes, hserved, ?_⟩
  intro kept hconn
  obtain ⟨rfl, rfl⟩ := hkept kept hconn
  exact ⟨rfl, rfl⟩

/-- What `recv` takes and what it leaves is what waited. -/
theorem recv_append_unread {conn : DoIpConnection} {received : RecvResult} {queue : List UInt8}
    (hoffered : (Event.receive fd received).Offered queue) :
    (received.recv conn.capacity).2 ++ (Event.receive fd received).unread (some conn) queue =
      queue := by
  cases received with
  | error errno => rfl
  | data bytes =>
      exact List.prefix_iff_eq_append.mp ((List.take_prefix conn.capacity bytes).trans hoffered)

/-- The server serves what `recv` finds, or closes the connection if it finds nothing. -/
theorem Heard.receive (h : Heard uds fd stream actions socket) {conn : DoIpConnection}
    (hconn : socket.conn = some conn) {received : RecvResult} {other : Int}
    (hoffered : (Event.receive other received).Offered socket.queue)
    {entry : Option DoIpConnection} {outs : List Action}
    (hcall : conn.onClientData 64 uds received = some (entry, outs)) :
    Heard uds fd stream (actions ++ outs)
      { conn := entry
        queue := (Event.receive other received).unread (some conn) socket.queue } := by
  obtain ⟨heard, rest, conn', rfl, hserved, hkept⟩ := h
  obtain ⟨rfl, rfl⟩ := hkept conn hconn
  rcases conn.onClientData_cases uds received with ⟨-, hclosed⟩ | ⟨next, served, hnext, hmore⟩
  · rw [hclosed] at hcall
    cases hcall
    rw [List.append_nil]
    exact ⟨heard, socket.queue, conn, rfl, hserved, fun kept hnone => by cases hnone⟩
  · rw [hnext] at hcall
    cases hcall
    refine ⟨heard ++ (received.recv conn.capacity).2,
      (Event.receive other received).unread (some conn) socket.queue, next, ?_,
      hserved.trans hmore, fun kept hkept => ⟨(Option.some.inj hkept).symm, rfl⟩⟩
    rw [List.append_assoc, recv_append_unread hoffered]

/-- A tester that does not leave and sends frames that fit the buffer is not left either. -/
theorem Heard.isSome_receive (h : Heard uds fd stream actions socket) {conn : DoIpConnection}
    (hconn : socket.conn = some conn) {received : RecvResult} (hstays : ¬ received.Ends)
    {frames : List Frame}
    (hframes : ∀ frame ∈ frames, frame.Announced ∧ frame.payload.length ≤ 4088)
    (hstream : stream <+: frames.flatMap Frame.bytes)
    {entry : Option DoIpConnection} {outs : List Action}
    (hcall : conn.onClientData 64 uds received = some (entry, outs)) : entry.isSome := by
  obtain ⟨heard, rest, conn', rfl, hserved, hkept⟩ := h
  obtain ⟨rfl, rfl⟩ := hkept conn hconn
  obtain ⟨behind, hbehind⟩ := (List.prefix_append heard socket.queue).trans hstream
  have hparse := greedyParse_flatMap_bytes fun frame hmem => (hframes frame hmem).1
  rw [← hbehind] at hparse
  -- what is left of whole frames that fit is less than the buffer holds
  have hroom := leftover_lt_recvBufSize hparse fun frame hmem =>
    Nat.add_le_add_left (hframes frame hmem).2 doipHeaderSize
  rw [← hserved.pending, conn.length_pending] at hroom
  rcases conn.onClientData_cases uds received with ⟨hclosed, -⟩ | ⟨next, served, hnext, -⟩
  · cases received with
    | error errno => exact absurd trivial hstays
    | data bytes =>
        have hsome := List.length_pos_iff.mpr hstays
        simp only [RecvResult.recv, List.length_take, DoIpConnection.capacity] at hclosed
        omega
  · rw [hnext] at hcall
    cases hcall
    rfl

/-- What an event of a tester does, unless it is a new connection. -/
theorem tester_step_cases {event : TesterEvent} {next : ClientSocket}
    (henabled : (tester uds listenFd).Enabled socket event)
    (hstep : (tester uds listenFd).step socket event = some (next, actions))
    (hold : ∀ other, event ≠ .turn (.accept other)) :
    (∃ other bytes, event = .send other bytes ∧ actions = [] ∧
      next = { socket with queue := socket.queue ++ bytes }) ∨
    ∃ other received conn, event = .turn (.receive other received) ∧
      socket.conn = some conn ∧ (Event.receive other received).Offered socket.queue ∧
      conn.onClientData 64 uds received = some (next.conn, actions) ∧
      next.queue = (Event.receive other received).unread (some conn) socket.queue := by
  rcases event with ⟨other, bytes⟩ | ⟨other⟩ | ⟨other, received⟩
  · cases hstep
    exact .inl ⟨other, bytes, rfl, rfl, rfl⟩
  · exact absurd rfl (hold other)
  · obtain ⟨⟨-, hopen⟩, hoffered⟩ := henabled
    obtain ⟨conn, hconn⟩ := Option.isSome_iff_exists.mp hopen
    simp only [tester, entryStep, hconn] at hstep
    obtain ⟨⟨entry, outs⟩, hcall, hnext⟩ := Option.bind_eq_some_iff.mp hstep
    cases hnext
    exact .inr ⟨other, received, conn, rfl, hconn, hoffered, hcall, rfl⟩

theorem Heard.step (h : Heard uds fd stream actions socket) {event : TesterEvent}
    {next : ClientSocket} {outs : List Action}
    (henabled : (tester uds listenFd).Enabled socket event)
    (hstep : (tester uds listenFd).step socket event = some (next, outs))
    (hold : ∀ other, event ≠ .turn (.accept other)) :
    Heard uds fd (stream ++ event.bytes) (actions ++ outs) next := by
  rcases tester_step_cases henabled hstep hold with ⟨other, bytes, rfl, rfl, rfl⟩ |
    ⟨other, received, conn, rfl, hconn, hoffered, hcall, hqueue⟩
  · rw [List.append_nil]
    exact h.send bytes
  · have hnext := h.receive hconn hoffered hcall
    rw [← hqueue] at hnext
    rw [TesterEvent.bytes, List.append_nil]
    exact hnext

/-- Whatever a tester sends and whenever the loop turns to it, the server hears it in order. -/
theorem Heard.run {last : ClientSocket} {events : List TesterEvent} {outs : List Action}
    (hrun : (tester uds listenFd).Run socket events last outs)
    (h : Heard uds fd stream actions socket)
    (hold : ∀ other, TesterEvent.turn (.accept other) ∉ events) :
    Heard uds fd (stream ++ events.flatMap TesterEvent.bytes) (actions ++ outs) last := by
  induction hrun generalizing stream actions with
  | nil =>
      rw [List.flatMap_nil, List.append_nil, List.append_nil]
      exact h
  | @cons socket event middle out events last outs henabled hstep _ ih =>
      have hmiddle := h.step henabled hstep fun other heq =>
        hold other (heq ▸ List.mem_cons_self)
      rw [List.flatMap_cons, ← List.append_assoc, ← List.append_assoc]
      exact ih hmiddle fun other hmem => hold other (List.mem_cons_of_mem _ hmem)

theorem Heard.isSome_run {last : ClientSocket} {events : List TesterEvent} {outs : List Action}
    (hrun : (tester uds listenFd).Run socket events last outs)
    (h : Heard uds fd stream actions socket)
    (hold : ∀ other, TesterEvent.turn (.accept other) ∉ events) (hopen : socket.conn.isSome)
    (hstays : ∀ other received, TesterEvent.turn (.receive other received) ∈ events →
      ¬ received.Ends)
    {frames : List Frame}
    (hframes : ∀ frame ∈ frames, frame.Announced ∧ frame.payload.length ≤ 4088)
    (hstream : stream ++ events.flatMap TesterEvent.bytes <+: frames.flatMap Frame.bytes) :
    last.conn.isSome := by
  induction hrun generalizing stream actions with
  | nil => exact hopen
  | @cons socket event middle out events last outs henabled hstep _ ih =>
      have hold' : ∀ other, event ≠ .turn (.accept other) := fun other heq =>
        hold other (heq ▸ List.mem_cons_self)
      rw [List.flatMap_cons, ← List.append_assoc] at hstream
      refine ih (h.step henabled hstep hold') (fun other hmem =>
        hold other (List.mem_cons_of_mem _ hmem)) ?_ (fun other received hmem =>
        hstays other received (List.mem_cons_of_mem _ hmem)) hstream
      rcases tester_step_cases henabled hstep hold' with ⟨other, bytes, rfl, rfl, rfl⟩ |
        ⟨other, received, conn, rfl, hconn, -, hcall, -⟩
      · exact hopen
      · rw [TesterEvent.bytes, List.append_nil] at hstream
        exact h.isSome_receive hconn (hstays other received List.mem_cons_self) hframes
          ((List.prefix_append _ _).trans hstream) hcall

end Heard

/-! ## Whole runs -/

section Runs

variable {uds : UdsHandler} {listenFd fd : Int}

theorem testers_run_consistent {events : List TesterEvent} {net : Testers} {actions : List Action}
    (hrun : testers.Run (Testers.start uds listenFd) events net actions) :
    net.world.Consistent uds listenFd :=
  (bySocket uds listenFd).run_inv hrun (World.start_consistent uds listenFd)

/-- The run of a socket from the moment that its tester is accepted. -/
theorem tester_run_of_accept (hpos : 0 ≤ fd) {first last : Testers} {after : List TesterEvent}
    {actions : List Action} (hfirst : first.world.Consistent uds listenFd)
    (hrun : testers.Run first (.turn (.accept fd) :: after) last actions) :
    (tester uds listenFd).Run { conn := some (.accepted fd), queue := [] }
      (after.filter fun event => event.fd = fd) (last.socket fd)
      (actions.filter fun action => action.fd = fd) := by
  have hown := (bySocket uds listenFd).run_project hrun hfirst fd
  have hstep : (tester uds listenFd).step (first.socket fd) (.turn (.accept fd)) =
      some ({ conn := some (.accepted fd), queue := [] }, []) := by
    simp only [tester, entryStep, if_neg hpos.not_gt]
    rfl
  have hkey : (bySocket uds listenFd).key (.turn (.accept fd)) = fd := rfl
  rw [List.filter_cons_of_pos (by simpa using hkey)] at hown
  obtain ⟨rest, hrest, houts⟩ := hown.tail hstep
  rw [List.nil_append] at houts
  rw [← houts] at hrest
  exact hrest

/-- The server answers every event. -/
theorem testers_step_isSome {net : Testers} (hnet : net.world.Consistent uds listenFd)
    {event : TesterEvent} (henabled : testers.Enabled net event) :
    (testers.step net event).isSome := by
  cases event with
  | send other bytes => rfl
  | turn turn =>
      have hentry :
          (entryStep 64 uds (net.world.server.connections.lookup turn.fd) turn).isSome := by
        cases turn with
        | accept other => rfl
        | receive other received =>
            cases hlookup : net.world.server.connections.lookup other with
            | none => simp [entryStep, Event.fd, hlookup]
            | some conn =>
                simpa [entryStep, Event.fd, hlookup] using conn.onClientData_isSome uds received
      obtain ⟨⟨world, outs⟩, hturn⟩ :=
        Option.isSome_iff_exists.mp (hnet.step_isSome henabled.1 hentry)
      rw [testers_step_turn net hturn]
      rfl

theorem length_unread_lt (fd : Int) {conn : DoIpConnection} {queue : List UInt8}
    {entry : Option DoIpConnection} {outs : List Action}
    (hcall : conn.onClientData 64 uds (.data queue) = some (entry, outs)) (hkept : entry.isSome) :
    ((Event.receive fd (.data queue)).unread (some conn) queue).length < queue.length := by
  have htaken : ¬ ((RecvResult.data queue).recv conn.capacity).1 ≤ 0 := by
    intro hclosed
    simp only [DoIpConnection.onClientData, if_pos hclosed] at hcall
    cases hcall
    cases hkept
  simp only [RecvResult.recv, List.length_take] at htaken
  simp only [Event.unread, RecvResult.recv, List.length_drop, List.length_take]
  omega

/-- A turn to a tester with bytes that wait, of frames that fit the buffer. -/
theorem exists_run_turn {net : Testers} (hnet : net.world.Consistent uds listenFd)
    {frames : List Frame} {stream : List UInt8} {actions : List Action}
    (hframes : ∀ frame ∈ frames, frame.Announced ∧ frame.payload.length ≤ 4088)
    (hstream : stream <+: frames.flatMap Frame.bytes)
    (h : Heard uds fd stream actions (net.socket fd)) (hopen : (net.socket fd).conn.isSome)
    (hwaits : net.queue fd ≠ []) :
    ∃ next outs, testers.Run net [.turn (.receive fd (.data (net.queue fd)))] next outs ∧
      next.world.Consistent uds listenFd ∧
      Heard uds fd stream (actions ++ outs.filter fun action => action.fd = fd)
        (next.socket fd) ∧
      (next.socket fd).conn.isSome ∧ (next.queue fd).length < (net.queue fd).length := by
  obtain ⟨hclient, hfd⟩ := hnet.lookup_isSome.mp hopen
  have henabled : testers.Enabled net (.turn (.receive fd (.data (net.queue fd)))) :=
    ⟨⟨hfd, by rwa [hnet.listenFd_eq]⟩, List.prefix_rfl⟩
  obtain ⟨⟨next, outs⟩, hstep⟩ :=
    Option.isSome_iff_exists.mp (testers_step_isSome hnet henabled)
  have hrun : testers.Run net [.turn (.receive fd (.data (net.queue fd)))] next outs := by
    have hone := Machine.Run.cons henabled hstep (.nil next)
    rwa [List.append_nil] at hone
  refine ⟨next, outs, hrun, (bySocket uds listenFd).step_inv hnet henabled hstep, ?_⟩
  -- the turn is one of the tester's own socket
  have henabled' : (tester uds listenFd).Enabled (net.socket fd)
      (.turn (.receive fd (.data (net.queue fd)))) :=
    ((bySocket uds listenFd).enabled_iff hnet).mp henabled
  have hown : (tester uds listenFd).step (net.socket fd)
      (.turn (.receive fd (.data (net.queue fd)))) = some (next.socket fd, outs) :=
    (bySocket uds listenFd).step_own hnet henabled hstep
  have houts : outs.filter (fun action => action.fd = fd) = outs :=
    List.filter_eq_self.mpr fun output hmem =>
      decide_eq_true ((bySocket uds listenFd).step_out hnet henabled hstep output hmem)
  have hold : ∀ other, TesterEvent.turn (.receive fd (.data (net.queue fd))) ≠
      .turn (.accept other) := by
    rintro other ⟨⟩
  have hnext := h.step henabled' hown hold
  rw [TesterEvent.bytes, List.append_nil] at hnext
  rw [houts]
  refine ⟨hnext, ?_⟩
  rcases tester_step_cases henabled' hown hold with ⟨_, _, heq, -⟩ |
    ⟨_, _, conn, heq, hconn, -, hcall, hqueue⟩
  · cases heq
  · cases heq
    have hstays : ¬ (RecvResult.data (net.queue fd)).Ends := hwaits
    have hkept := h.isSome_receive hconn hstays hframes hstream hcall
    have hless := length_unread_lt fd hcall hkept
    have hqueue' : next.queue fd = _ := hqueue
    exact ⟨hkept, hqueue' ▸ hless⟩

/-- The loop can turn to a tester until it has heard all that waits. -/
theorem exists_run_unread {net : Testers} (hnet : net.world.Consistent uds listenFd)
    {frames : List Frame} {stream : List UInt8} {actions : List Action}
    (hframes : ∀ frame ∈ frames, frame.Announced ∧ frame.payload.length ≤ 4088)
    (hstream : stream <+: frames.flatMap Frame.bytes)
    (h : Heard uds fd stream actions (net.socket fd)) (hopen : (net.socket fd).conn.isSome) :
    ∃ turns last more, testers.Run net turns last more ∧
      (∀ event ∈ turns, ∃ bytes, bytes ≠ [] ∧ event = .turn (.receive fd (.data bytes))) ∧
      Heard uds fd stream (actions ++ more.filter fun action => action.fd = fd)
        (last.socket fd) ∧
      (last.socket fd).conn.isSome ∧ last.queue fd = [] := by
  -- on the bytes that wait: every turn takes some of them
  induction hlength : (net.queue fd).length using Nat.strong_induction_on
    generalizing net actions with
  | _ length ih =>
      by_cases hempty : net.queue fd = []
      · refine ⟨[], net, [], .nil net, List.forall_mem_nil _, ?_, hopen, hempty⟩
        rwa [List.filter_nil, List.append_nil]
      · obtain ⟨next, outs, hturn, hconsistent, hheard, hkept, hless⟩ :=
          exists_run_turn hnet hframes hstream h hopen hempty
        obtain ⟨turns, last, more, hrun, hturns, hlast, hdone⟩ :=
          ih _ (hlength ▸ hless) hconsistent hheard hkept rfl
        refine ⟨_, last, _, hturn.append hrun,
          List.forall_mem_cons.mpr ⟨⟨_, hempty, rfl⟩, hturns⟩, ?_, hdone⟩
        rw [List.filter_append, ← List.append_assoc]
        exact hlast

/-- A tester that has sent the beginning of its questions has the conversation about those that
the server has heard. -/
theorem Heard.converses (huds : uds.Readable) {questions : List Question}
    (hsize : ∀ question ∈ questions, question.message.2.length < 4294967296)
    {stream : List UInt8} (hstream : stream <+: makeStream (questions.map Question.message))
    {actions : List Action} {socket : ClientSocket} (h : Heard uds fd stream actions socket) :
    ∃ asked, asked <+: questions ∧ Converses uds asked actions ∧
      (stream = makeStream (questions.map Question.message) → socket.conn.isSome →
        socket.queue = [] → asked = questions) := by
  obtain ⟨received, rest, conn, rfl, hserved, hkept⟩ := h
  obtain ⟨asked, hasked, hall, hconverses⟩ := exists_asked huds hsize hserved
    ((List.prefix_append received rest).trans hstream)
  refine ⟨asked, hasked, hconverses, fun hwhole hopen hempty => hall ?_⟩
  obtain ⟨kept, hconn⟩ := Option.isSome_iff_exists.mp hopen
  rw [← hwhole, (hkept kept hconn).2, hempty, List.append_nil]

theorem makeStream_questions (questions : List Question) :
    makeStream (questions.map Question.message) =
      (questions.map Question.frame).flatMap Frame.bytes := by
  rw [makeStream, List.flatMap_map, List.flatMap_map]
  rfl

/-- In every run of the server with all its testers: one that sends its questions, in whatever
pieces, is handed the conversation with the unit that it would have alone. The server answers the
questions that it has received as a whole, and all of them once no bytes wait. A tester whose
questions fit the buffer keeps its connection until it leaves, and the loop can turn to it until
it has every answer. -/
theorem diagnosis (huds : uds.Readable) (hpos : 0 ≤ fd) {before after : List TesterEvent}
    {net : Testers} {actions : List Action}
    (hrun : testers.Run (Testers.start uds listenFd)
      (before ++ .turn (.accept fd) :: after) net actions)
    (honce : .turn (.accept fd) ∉ after) {questions : List Question}
    (hsize : ∀ question ∈ questions, question.message.2.length < 4294967296)
    (hsent : sentOn fd after <+: makeStream (questions.map Question.message)) :
    ∃ middle earlier later asked,
      testers.Run (Testers.start uds listenFd) before middle earlier ∧
      actions = earlier ++ later ∧ asked <+: questions ∧
      Converses uds asked (later.filter fun action => action.fd = fd) ∧
      (sentOn fd after = makeStream (questions.map Question.message) →
        (net.world.server.connections.lookup fd).isSome → net.queue fd = [] →
        asked = questions) ∧
      ((∀ question ∈ questions, question.message.2.length ≤ 4088) →
        (∀ received, .turn (.receive fd received) ∈ after → ¬ received.Ends) →
        (net.world.server.connections.lookup fd).isSome ∧
        (sentOn fd after = makeStream (questions.map Question.message) →
          ∃ turns last more, testers.Run net turns last more ∧
            (∀ event ∈ turns, ∃ bytes, bytes ≠ [] ∧ event = .turn (.receive fd (.data bytes))) ∧
            Converses uds questions ((later ++ more).filter fun action => action.fd = fd))) := by
  obtain ⟨middle, earlier, later, hbefore, hafter, rfl⟩ := hrun.split
  -- from its connection on the tester has a run of its own socket, whatever the others do
  have halone := tester_run_of_accept hpos (testers_run_consistent hbefore) hafter
  have hold : ∀ other, TesterEvent.turn (.accept other) ∉
      after.filter fun event => event.fd = fd := by
    intro other hmem
    obtain ⟨hlater, hother⟩ := List.mem_filter.mp hmem
    obtain rfl : other = fd := of_decide_eq_true hother
    exact honce hlater
  have hheard := (Heard.start uds fd).run halone hold
  rw [List.nil_append, List.nil_append, ← sentOn] at hheard
  obtain ⟨asked, hasked, hconverses, hall⟩ := hheard.converses huds hsize hsent
  refine ⟨middle, earlier, later, asked, hbefore, rfl, hasked, hconverses, hall, ?_⟩
  intro hfits hstays
  have hframes : ∀ frame ∈ questions.map Question.frame,
      frame.Announced ∧ frame.payload.length ≤ 4088 := by
    intro frame hmem
    obtain ⟨question, hquestion, rfl⟩ := List.mem_map.mp hmem
    exact ⟨Frame.announced_ofPayload _ (hsize question hquestion), hfits question hquestion⟩
  rw [makeStream_questions] at hsent
  have hopen := (Heard.start uds fd).isSome_run halone hold rfl
    (fun other received hmem => by
      obtain ⟨hlater, hother⟩ := List.mem_filter.mp hmem
      obtain rfl : other = fd := of_decide_eq_true hother
      exact hstays received hlater) hframes hsent
  refine ⟨hopen, fun hwhole => ?_⟩
  obtain ⟨turns, last, more, hrun', hturns, hlast, hkept, hempty⟩ :=
    exists_run_unread (testers_run_consistent hrun) hframes hsent hheard hopen
  obtain ⟨all, -, hconverses', hall'⟩ :=
    hlast.converses huds hsize (hwhole ▸ List.prefix_rfl)
  rw [hall' hwhole hkept hempty, ← List.filter_append] at hconverses'
  exact ⟨turns, last, more, hrun', hturns, hconverses'⟩

end Runs

/-- One tester activates and asks for the VIN, while another sends a byte. -/
theorem diagnosis_vin :
    ∃ net actions turns last more,
      testers.Run (Testers.start {} 3)
        [.turn (.accept 7), .turn (.accept 8), .send 8 [2],
          .send 7 (routingMessage ++ udsMessage [0x22, 0xF1, 0x90])] net actions ∧
      testers.Run net turns last more ∧
      Understands (sends ((actions ++ more).filter fun action => action.fd = 7)).flatten
        [.activated clientTesterAddr clientEcuAddr,
          .acknowledged clientTesterAddr clientEcuAddr,
          .answered clientTesterAddr clientEcuAddr
            (.data 0xF190 (UdsHandler.textBytes "BBB0000000000001"))] := by
  let questions : List Question :=
    [.activate clientTesterAddr, .ask clientTesterAddr clientEcuAddr [0x22, 0xF1, 0x90]]
  have hstream : makeStream (questions.map Question.message) =
      routingMessage ++ udsMessage [0x22, 0xF1, 0x90] := rfl
  have hfits : ∀ question ∈ questions, question.message.2.length ≤ 4088 := by
    simp [questions, Question.message]
  have hstart := World.start_consistent {} 3
  have hfree : (7 : Int) ∉ (World.start {} 3).openFds := by decide
  have hfree' : (8 : Int) ∉ ((World.start {} 3).withClient 7).openFds := by decide
  have hfirst := hstart.step_accept 64 (by decide) hfree
  have hsecond := (hstart.accept hfree).step_accept 64 (by decide) hfree'
  have hrun : testers.Run (Testers.start {} 3)
      ([] ++ .turn (.accept 7) :: [.turn (.accept 8), .send 8 [2],
        .send 7 (routingMessage ++ udsMessage [0x22, 0xF1, 0x90])]) _ _ :=
    .cons ⟨.inr hfree, trivial⟩ (testers_step_turn _ hfirst)
      (.cons ⟨.inr hfree', trivial⟩ (testers_step_turn _ hsecond)
        (.cons trivial (testers_step_send _ _ _)
          (.cons trivial (testers_step_send _ _ _) (.nil _))))
  obtain ⟨middle, earlier, later, asked, hbefore, hactions, -, -, -, hall⟩ :=
    diagnosis UdsHandler.readable_default (by decide) hrun (by simp)
      (fun question hmem => (hfits question hmem).trans_lt (by decide)) List.prefix_rfl
  obtain ⟨-, hall⟩ := hall hfits fun received hmem => by simp at hmem
  obtain ⟨turns, last, more, hturns, -, hconverses⟩ := hall rfl
  cases hbefore
  exact ⟨_, _, turns, last, more, hrun, hturns, hactions ▸ hconverses.whole⟩

end AutomotiveGateway.DoIp
