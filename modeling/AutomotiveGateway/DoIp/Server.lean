import AutomotiveGateway.DoIp.Reassembly
import Mathlib.Data.Finmap

/-!
# The DoIP server and its clients

All clients share one connection table, one table of event-loop callbacks and one
UDS handler. Callbacks of closed descriptors stay in the table until the
descriptor is accepted again. The entry of a descriptor in the connection table
nevertheless evolves by the events of that descriptor alone.
-/

namespace AutomotiveGateway.DoIp

/-- A callback registered with the event loop. -/
inductive Reader
  | acceptClient
  | onClientData (clientFd : Int)
deriving DecidableEq, Repr

/-- The callbacks of the loop, and the descriptors its epoll instance watches. -/
structure EventLoop where
  readers : Finmap fun _ : Int => Reader := ∅
  watched : Finset Int := ∅

/-- Registering a descriptor that is watched already throws. Others are taken to be accepted by
epoll. -/
def EventLoop.addReader (loop : EventLoop) (fd : Int) (callback : Reader) : Option EventLoop :=
  if fd ∈ loop.watched then none
  else some { readers := loop.readers.insert fd callback, watched := insert fd loop.watched }

structure DoIpServer where
  listenFd : Int
  uds : UdsHandler
  connections : Finmap fun _ : Int => DoIpConnection := ∅

/-- The server in its event loop, and the descriptors the kernel holds open for it. -/
structure World where
  server : DoIpServer
  loop : EventLoop
  openFds : Finset Int

/-- What the kernel offers: the result of `accept` when a client is waiting, or a
readable client descriptor with the result of `recv`. -/
inductive Event
  | accept (clientFd : Int)
  | receive (fd : Int) (received : RecvResult)
deriving DecidableEq, Repr

/-- The client an event belongs to. -/
def Event.fd : Event → Int
  | accept clientFd => clientFd
  | receive fd _ => fd

namespace World

/-- The world after `register_with_loop`, before any client arrives. -/
def start (uds : UdsHandler) (listenFd : Int) : World where
  server := { listenFd, uds }
  loop := { readers := Finmap.singleton listenFd .acceptClient, watched := {listenFd} }
  openFds := {listenFd}

/-- `close` also ends the watch on the descriptor. -/
def close (world : World) (fd : Int) : World :=
  { world with
    loop := { world.loop with watched := world.loop.watched.erase fd }
    openFds := world.openFds.erase fd }

def setConnections (world : World) (connections : Finmap fun _ : Int => DoIpConnection) : World :=
  { world with server := { world.server with connections } }

/-- The callback of the listening socket. -/
def acceptClient (world : World) (clientFd : Int) : Option World :=
  if clientFd < 0 then some world
  else
    let accepted := { world with openFds := insert clientFd world.openFds }
    let stored := accepted.setConnections
      (world.server.connections.insert clientFd (DoIpConnection.accepted clientFd))
    (world.loop.addReader clientFd (.onClientData clientFd)).map fun loop => { stored with loop }

/-- The callback of a client's socket. -/
def onClientData (w : Nat) (world : World) (clientFd : Int) (received : RecvResult) :
    Option (World × List Action) :=
  match world.server.connections.lookup clientFd with
  | none => some (world, [])
  | some conn =>
      (conn.onClientData w world.server.uds received).map fun served =>
        match served.1 with
        | some next =>
            (world.setConnections (world.server.connections.insert clientFd next), served.2)
        | none =>
            ((world.close clientFd).setConnections (world.server.connections.erase clientFd),
              served.2)

/-- One turn of the event loop. A readable descriptor without a callback is passed
over; which callback there is decides which system call gives the event. -/
def step (w : Nat) (world : World) : Event → Option (World × List Action)
  | .accept clientFd =>
      match world.loop.readers.lookup world.server.listenFd with
      | some .acceptClient => (world.acceptClient clientFd).map fun next => (next, [])
      | _ => some (world, [])
  | .receive fd received =>
      match world.loop.readers.lookup fd with
      | some (.onClientData clientFd) => world.onClientData w clientFd received
      | _ => some (world, [])

/-- `accept` fails or returns a descriptor that is not open, and only open client
descriptors are readable. -/
def Enabled (world : World) : Event → Prop
  | .accept clientFd => clientFd < 0 ∨ clientFd ∉ world.openFds
  | .receive fd _ => fd ∈ world.openFds ∧ fd ≠ world.server.listenFd

end World

/-- The server, driven by the events of all its clients. -/
def server (w : Nat) : Machine World Event Action where
  Enabled := World.Enabled
  step := World.step w

/-! ## One client -/

/-- What an event does to the table entry of its descriptor. -/
def entryStep (w : Nat) (uds : UdsHandler) (entry : Option DoIpConnection) :
    Event → Option (Option DoIpConnection × List Action)
  | .accept clientFd =>
      some (if clientFd < 0 then entry else some (DoIpConnection.accepted clientFd), [])
  | .receive _ received =>
      match entry with
      | none => some (none, [])
      | some conn => conn.onClientData w uds received

/-- The table entry of one descriptor, driven by its own events. -/
def client (w : Nat) (uds : UdsHandler) (listenFd : Int) :
    Machine (Option DoIpConnection) Event Action where
  Enabled entry
    | .accept clientFd => clientFd < 0 ∨ (clientFd ≠ listenFd ∧ entry = none)
    | .receive fd _ => fd ≠ listenFd ∧ entry.isSome
  step := entryStep w uds

/-! ## What ties the tables together -/

/-- The invariant of the server: exactly the accepted descriptors have an entry in
the connection table, under their own number, and a callback for it. -/
structure World.Consistent (uds : UdsHandler) (listenFd : Int) (world : World) : Prop where
  uds_eq : world.server.uds = uds
  listenFd_eq : world.server.listenFd = listenFd
  listening : world.loop.readers.lookup listenFd = some .acceptClient
  listening_open : listenFd ∈ world.openFds
  watched : world.loop.watched = world.openFds
  keys : world.server.connections.keys = world.openFds.erase listenFd
  callback : ∀ fd ∈ world.openFds, fd ≠ listenFd →
    world.loop.readers.lookup fd = some (.onClientData fd)
  conn_fd : ∀ fd conn, world.server.connections.lookup fd = some conn → conn.fd = fd

/-! ## Descriptor numbers of a connection -/

namespace DoIpConnection

theorem handleDoipMessage_fd (uds : UdsHandler) (conn : DoIpConnection) (header : DoIpHeader)
    (payload : List UInt8) (len : Nat) :
    (conn.handleDoipMessage uds header payload len).1.fd = conn.fd ∧
      ∀ action ∈ (conn.handleDoipMessage uds header payload len).2, action.fd = conn.fd := by
  unfold handleDoipMessage handleRoutingActivation handleDiagnosticMessage
  dsimp only
  split_ifs <;> simp [Action.fd]

theorem reassembleOne_fd {w : Nat} {uds : UdsHandler} {conn next : DoIpConnection}
    {actions : List Action} (hstep : conn.reassembleOne w uds = some (next, actions)) :
    next.fd = conn.fd ∧ ∀ action ∈ actions, action.fd = conn.fd := by
  by_cases hlen : doipHeaderSize ≤ conn.recvLen
  · rw [reassembleOne_of_header w uds hlen rfl] at hstep
    split at hstep
    · exact absurd hstep (by simp)
    · rw [Option.some.injEq, Prod.mk.injEq] at hstep
      obtain ⟨rfl, rfl⟩ := hstep
      exact conn.handleDoipMessage_fd uds _ _ _
  · rw [reassembleOne, if_pos (by omega)] at hstep
    exact absurd hstep (by simp)

/-- Whatever arrives, a connection keeps its descriptor and acts on it only. -/
theorem onClientData_fd {w : Nat} {uds : UdsHandler} {conn : DoIpConnection}
    {received : RecvResult} {entry : Option DoIpConnection} {actions : List Action}
    (hcall : conn.onClientData w uds received = some (entry, actions)) :
    (∀ next, entry = some next → next.fd = conn.fd) ∧
      ∀ action ∈ actions, action.fd = conn.fd := by
  unfold onClientData at hcall
  by_cases hclosed : (received.recv conn.capacity).1 ≤ 0
  · simp only [if_pos hclosed, Option.some.injEq, Prod.mk.injEq] at hcall
    obtain ⟨rfl, rfl⟩ := hcall
    simp
  simp only [if_neg hclosed, Option.map_eq_some_iff, Prod.mk.injEq] at hcall
  obtain ⟨⟨last, outs⟩, hrun, rfl, rfl⟩ := hcall
  have hreach := (Loop.run_reaches hrun).1
  have hkeep : ∀ state next out, state.fd = conn.fd → reassembleOne w uds state = some (next, out) →
      next.fd = conn.fd ∧ ∀ action ∈ out, action.fd = conn.fd := by
    intro state next out hstate hstep
    rw [← hstate]
    exact reassembleOne_fd hstep
  refine ⟨?_, hreach.forall_out (fun state => state.fd = conn.fd) _ hkeep rfl⟩
  rintro next hnext
  obtain rfl := Option.some.inj hnext
  exact hreach.invariant (fun state => state.fd = conn.fd)
    (fun state next out hstate hstep => (hkeep state next out hstate hstep).1) rfl

/-- With a 64-bit `size_t`, every call returns, whatever `recv` gave. -/
theorem onClientData_isSome (uds : UdsHandler) (conn : DoIpConnection) (received : RecvResult) :
    (conn.onClientData 64 uds received).isSome := by
  unfold onClientData
  dsimp only
  split
  · rfl
  · obtain ⟨next, actions, hrun, _⟩ := run_reassembleOne (by decide) uds
      (conn.append (received.recv conn.capacity).2) (totalFits_host _) (Nat.lt_succ_self _)
    rw [hrun]
    rfl

end DoIpConnection

/-! ## One turn of the loop -/

namespace World

variable {w : Nat} {uds : UdsHandler} {listenFd : Int} {world next : World}
  {actions : List Action}

theorem start_consistent (uds : UdsHandler) (listenFd : Int) :
    (start uds listenFd).Consistent uds listenFd where
  uds_eq := rfl
  listenFd_eq := rfl
  listening := Finmap.lookup_singleton_eq
  listening_open := Finset.mem_singleton_self listenFd
  watched := rfl
  keys := by simp [start]
  callback := fun fd hopen hne => absurd (Finset.mem_singleton.mp hopen) hne
  conn_fd := fun fd conn hlookup => by simp [start] at hlookup

theorem Consistent.listening_lookup (h : world.Consistent uds listenFd) :
    world.loop.readers.lookup world.server.listenFd = some .acceptClient := by
  rw [h.listenFd_eq]
  exact h.listening

/-- An open client descriptor is one with an entry in the connection table. -/
theorem Consistent.lookup_isSome (h : world.Consistent uds listenFd) {fd : Int} :
    (world.server.connections.lookup fd).isSome ↔ fd ≠ listenFd ∧ fd ∈ world.openFds := by
  rw [Finmap.lookup_isSome, ← Finmap.mem_keys, h.keys, Finset.mem_erase]

theorem Consistent.lookup_eq_none (h : world.Consistent uds listenFd) {fd : Int}
    (hclosed : fd ∉ world.openFds) : world.server.connections.lookup fd = none := by
  rw [Finmap.lookup_eq_none, ← Finmap.mem_keys, h.keys, Finset.mem_erase]
  exact fun hmem => hclosed hmem.2

/-- A world with one more client, stored under its descriptor as a fresh connection. -/
def withClient (world : World) (fd : Int) : World where
  server :=
    { world.server with
      connections := world.server.connections.insert fd (DoIpConnection.accepted fd) }
  loop :=
    { readers := world.loop.readers.insert fd (.onClientData fd)
      watched := insert fd world.loop.watched }
  openFds := insert fd world.openFds

theorem Consistent.step_accept (h : world.Consistent uds listenFd) (w : Nat) {fd : Int}
    (hpos : ¬ fd < 0) (hclosed : fd ∉ world.openFds) :
    world.step w (.accept fd) = some (world.withClient fd, []) := by
  have hwatched : fd ∉ world.loop.watched := by rwa [h.watched]
  simp only [step, h.listening_lookup, acceptClient, if_neg hpos, EventLoop.addReader,
    if_neg hwatched, Option.map_some, setConnections, withClient]

theorem Consistent.step_accept_failed (h : world.Consistent uds listenFd) (w : Nat) {fd : Int}
    (hneg : fd < 0) : world.step w (.accept fd) = some (world, []) := by
  simp only [step, h.listening_lookup, acceptClient, if_pos hneg, Option.map_some]

/-- Readiness of a client descriptor runs its own connection, and stores or removes
only its entry. -/
theorem Consistent.step_receive (h : world.Consistent uds listenFd) (w : Nat) {fd : Int}
    (hclient : fd ≠ listenFd) {conn : DoIpConnection}
    (hlookup : world.server.connections.lookup fd = some conn) (received : RecvResult) :
    world.step w (.receive fd received) =
      (conn.onClientData w uds received).map fun served =>
        match served.1 with
        | some next => (world.setConnections (world.server.connections.insert fd next), served.2)
        | none =>
            ((world.close fd).setConnections (world.server.connections.erase fd), served.2) := by
  have hopen := (h.lookup_isSome.mp (Option.isSome_of_eq_some hlookup)).2
  simp only [step, h.callback fd hopen hclient, onClientData, hlookup, h.uds_eq]

/-- Everything one turn of the loop can do. -/
theorem Consistent.step_cases (h : world.Consistent uds listenFd) {event : Event}
    (henabled : world.Enabled event) (hstep : world.step w event = some (next, actions)) :
    (∃ fd, event = .accept fd ∧ fd < 0 ∧ next = world ∧ actions = []) ∨
    (∃ fd, event = .accept fd ∧ ¬ fd < 0 ∧ fd ∉ world.openFds ∧ actions = [] ∧
      next = world.withClient fd) ∨
    (∃ fd received conn, event = .receive fd received ∧ fd ≠ listenFd ∧
      world.server.connections.lookup fd = some conn ∧
      ((∃ kept, conn.onClientData w uds received = some (some kept, actions) ∧
          next = world.setConnections (world.server.connections.insert fd kept)) ∨
        (conn.onClientData w uds received = some (none, actions) ∧
          next = (world.close fd).setConnections (world.server.connections.erase fd)))) := by
  cases event with
  | accept fd =>
      by_cases hneg : fd < 0
      · rw [h.step_accept_failed w hneg, Option.some.injEq, Prod.mk.injEq] at hstep
        exact .inl ⟨fd, rfl, hneg, hstep.1.symm, hstep.2.symm⟩
      · have hclosed : fd ∉ world.openFds := henabled.resolve_left hneg
        rw [h.step_accept w hneg hclosed, Option.some.injEq, Prod.mk.injEq] at hstep
        exact .inr (.inl ⟨fd, rfl, hneg, hclosed, hstep.2.symm, hstep.1.symm⟩)
  | receive fd received =>
      obtain ⟨hopen, hclient⟩ := henabled
      rw [h.listenFd_eq] at hclient
      obtain ⟨conn, hlookup⟩ := Option.isSome_iff_exists.mp (h.lookup_isSome.mpr ⟨hclient, hopen⟩)
      rw [h.step_receive w hclient hlookup, Option.map_eq_some_iff] at hstep
      obtain ⟨⟨entry, outs⟩, hcall, hnext⟩ := hstep
      refine .inr (.inr ⟨fd, received, conn, rfl, hclient, hlookup, ?_⟩)
      cases entry with
      | some kept =>
          rw [Prod.mk.injEq] at hnext
          obtain ⟨rfl, rfl⟩ := hnext
          exact .inl ⟨kept, hcall, rfl⟩
      | none =>
          rw [Prod.mk.injEq] at hnext
          obtain ⟨rfl, rfl⟩ := hnext
          exact .inr ⟨hcall, rfl⟩

/-- A turn changes the entry of its own descriptor as a client alone would. -/
theorem Consistent.step_own (h : world.Consistent uds listenFd) {event : Event}
    (henabled : world.Enabled event) (hstep : world.step w event = some (next, actions)) :
    entryStep w uds (world.server.connections.lookup event.fd) event =
      some (next.server.connections.lookup event.fd, actions) := by
  rcases h.step_cases henabled hstep with ⟨fd, rfl, hneg, rfl, rfl⟩ |
    ⟨fd, rfl, hpos, _, rfl, rfl⟩ |
    ⟨fd, received, conn, rfl, _, hlookup, ⟨kept, hcall, rfl⟩ | ⟨hcall, rfl⟩⟩
  · simp only [entryStep, if_pos hneg, Event.fd]
  · simp only [entryStep, if_neg hpos, Event.fd, withClient, Finmap.lookup_insert]
  · simp only [entryStep, Event.fd, hlookup, hcall, setConnections, Finmap.lookup_insert]
  · simp only [entryStep, Event.fd, hlookup, hcall, setConnections, Finmap.lookup_erase]

/-- A turn leaves the entries of all other descriptors alone. -/
theorem Consistent.step_other (h : world.Consistent uds listenFd) {event : Event}
    (henabled : world.Enabled event) (hstep : world.step w event = some (next, actions))
    (other : Int) (hother : other ≠ event.fd) :
    next.server.connections.lookup other = world.server.connections.lookup other := by
  rcases h.step_cases henabled hstep with ⟨fd, rfl, _, rfl, _⟩ | ⟨fd, rfl, _, _, _, rfl⟩ |
    ⟨fd, received, conn, rfl, _, _, ⟨kept, _, rfl⟩ | ⟨_, rfl⟩⟩
  · rfl
  · exact Finmap.lookup_insert_of_ne _ hother
  · exact Finmap.lookup_insert_of_ne _ hother
  · exact Finmap.lookup_erase_ne hother

/-- Only its own callback closes a descriptor. -/
theorem Consistent.step_open (h : world.Consistent uds listenFd) {event : Event}
    (henabled : world.Enabled event) (hstep : world.step w event = some (next, actions))
    {fd : Int} (hopen : fd ∈ world.openFds) (hother : ∀ received, event ≠ .receive fd received) :
    fd ∈ next.openFds := by
  rcases h.step_cases henabled hstep with ⟨_, rfl, _, rfl, _⟩ | ⟨_, rfl, _, _, _, rfl⟩ |
    ⟨own, received, conn, rfl, _, _, ⟨kept, _, rfl⟩ | ⟨_, rfl⟩⟩
  · exact hopen
  · exact Finset.mem_insert_of_mem hopen
  · exact hopen
  · exact Finset.mem_erase.mpr ⟨fun heq => hother received (by rw [heq]), hopen⟩

/-- A turn acts on its own descriptor only. -/
theorem Consistent.step_out (h : world.Consistent uds listenFd) {event : Event}
    (henabled : world.Enabled event) (hstep : world.step w event = some (next, actions)) :
    ∀ action ∈ actions, action.fd = event.fd := by
  rcases h.step_cases henabled hstep with ⟨fd, rfl, _, _, rfl⟩ | ⟨fd, rfl, _, _, rfl, _⟩ |
    ⟨fd, received, conn, rfl, _, hlookup, ⟨kept, hcall, _⟩ | ⟨hcall, _⟩⟩
  · simp
  · simp
  · rw [Event.fd, ← h.conn_fd fd conn hlookup]
    exact (DoIpConnection.onClientData_fd hcall).2
  · rw [Event.fd, ← h.conn_fd fd conn hlookup]
    exact (DoIpConnection.onClientData_fd hcall).2

/-- Storing a connection of a descriptor that has one keeps the tables consistent. -/
theorem Consistent.setConnections (h : world.Consistent uds listenFd) {fd : Int}
    {conn kept : DoIpConnection} (hlookup : world.server.connections.lookup fd = some conn)
    (hkept : kept.fd = fd) :
    (world.setConnections (world.server.connections.insert fd kept)).Consistent uds listenFd :=
  { h with
    keys := by
      have hmem : fd ∈ world.server.connections := Finmap.mem_of_lookup_eq_some hlookup
      refine Eq.trans ?_ h.keys
      ext other
      simp only [World.setConnections, Finmap.mem_keys, Finmap.mem_insert]
      constructor
      · rintro (rfl | hother)
        · exact hmem
        · exact hother
      · exact Or.inr
    conn_fd := by
      intro other found hfound
      by_cases hother : other = fd
      · subst hother
        rw [World.setConnections, Finmap.lookup_insert, Option.some.injEq] at hfound
        rw [← hfound, hkept]
      · rw [World.setConnections, Finmap.lookup_insert_of_ne _ hother] at hfound
        exact h.conn_fd other found hfound }

/-- Closing a client keeps the tables consistent, though its callback stays. -/
theorem Consistent.close (h : world.Consistent uds listenFd) {fd : Int} (hclient : fd ≠ listenFd) :
    ((world.close fd).setConnections (world.server.connections.erase fd)).Consistent uds
      listenFd where
  uds_eq := h.uds_eq
  listenFd_eq := h.listenFd_eq
  listening := h.listening
  listening_open := Finset.mem_erase.mpr ⟨Ne.symm hclient, h.listening_open⟩
  watched := by simp only [World.close, World.setConnections, h.watched]
  keys := by
    simp only [World.close, World.setConnections, Finmap.keys_erase, h.keys]
    exact Finset.erase_right_comm
  callback := fun other hopen hother => h.callback other (Finset.mem_of_mem_erase hopen) hother
  conn_fd := by
    intro other found hfound
    have hother : other ≠ fd := by
      rintro rfl
      rw [World.setConnections, Finmap.lookup_erase] at hfound
      exact absurd hfound (by simp)
    rw [World.setConnections, Finmap.lookup_erase_ne hother] at hfound
    exact h.conn_fd other found hfound

/-- Accepting a client on any descriptor that is not open, used before or not, keeps
the tables consistent: the entry and a stale callback are both replaced. -/
theorem Consistent.accept (h : world.Consistent uds listenFd) {fd : Int}
    (hclosed : fd ∉ world.openFds) : (world.withClient fd).Consistent uds listenFd where
  uds_eq := h.uds_eq
  listenFd_eq := h.listenFd_eq
  listening := by
    have hne : listenFd ≠ fd := fun heq => hclosed (heq ▸ h.listening_open)
    exact (Finmap.lookup_insert_of_ne _ hne).trans h.listening
  listening_open := Finset.mem_insert_of_mem h.listening_open
  watched := by rw [withClient, h.watched]
  keys := by
    have hne : listenFd ≠ fd := fun heq => hclosed (heq ▸ h.listening_open)
    ext other
    simp only [withClient, Finmap.mem_keys, Finmap.mem_insert, Finset.mem_erase,
      Finset.mem_insert]
    rw [← Finmap.mem_keys, h.keys, Finset.mem_erase]
    constructor
    · rintro (rfl | ⟨hother, hopen⟩)
      · exact ⟨Ne.symm hne, Or.inl rfl⟩
      · exact ⟨hother, Or.inr hopen⟩
    · rintro ⟨hother, rfl | hopen⟩
      · exact Or.inl rfl
      · exact Or.inr ⟨hother, hopen⟩
  callback := by
    intro other hopen hother
    by_cases heq : other = fd
    · subst heq
      exact Finmap.lookup_insert _
    · rw [withClient, Finmap.lookup_insert_of_ne _ heq]
      exact h.callback other ((Finset.mem_insert.mp hopen).resolve_left heq) hother
  conn_fd := by
    intro other found hfound
    by_cases heq : other = fd
    · subst heq
      rw [withClient, Finmap.lookup_insert, Option.some.injEq] at hfound
      rw [← hfound]
      rfl
    · rw [withClient, Finmap.lookup_insert_of_ne _ heq] at hfound
      exact h.conn_fd other found hfound

theorem Consistent.step (h : world.Consistent uds listenFd) {event : Event}
    (henabled : world.Enabled event) (hstep : world.step w event = some (next, actions)) :
    next.Consistent uds listenFd := by
  rcases h.step_cases henabled hstep with ⟨_, _, _, rfl, _⟩ | ⟨fd, _, _, hclosed, _, rfl⟩ |
    ⟨fd, received, conn, _, hclient, hlookup, ⟨kept, hcall, rfl⟩ | ⟨_, rfl⟩⟩
  · exact h
  · exact h.accept hclosed
  · have hkept := (DoIpConnection.onClientData_fd hcall).1 kept rfl
    exact h.setConnections hlookup (hkept.trans (h.conn_fd fd conn hlookup))
  · exact h.close hclient

theorem Consistent.enabled_iff (h : world.Consistent uds listenFd) {event : Event} :
    world.Enabled event ↔ (client w uds listenFd).Enabled
      (world.server.connections.lookup event.fd) event := by
  cases event with
  | accept fd =>
      simp only [Enabled, client, Event.fd]
      refine or_congr_right ?_
      rw [← Option.not_isSome_iff_eq_none, h.lookup_isSome]
      constructor
      · intro hclosed
        refine ⟨?_, fun hopen => hclosed hopen.2⟩
        rintro rfl
        exact hclosed h.listening_open
      · rintro ⟨hne, hclosed⟩ hopen
        exact hclosed ⟨hne, hopen⟩
  | receive fd received =>
      simp only [Enabled, client, Event.fd, h.lookup_isSome, h.listenFd_eq]
      tauto

/-- The whole server answers an event whenever the client alone would. -/
theorem Consistent.step_isSome (h : world.Consistent uds listenFd) {event : Event}
    (henabled : world.Enabled event)
    (hclient : (entryStep w uds (world.server.connections.lookup event.fd) event).isSome) :
    (world.step w event).isSome := by
  cases event with
  | accept fd =>
      by_cases hneg : fd < 0
      · rw [h.step_accept_failed w hneg]
        rfl
      · rw [h.step_accept w hneg (henabled.resolve_left hneg)]
        rfl
  | receive fd received =>
      obtain ⟨hopen, hne⟩ := henabled
      rw [h.listenFd_eq] at hne
      obtain ⟨conn, hlookup⟩ := Option.isSome_iff_exists.mp (h.lookup_isSome.mpr ⟨hne, hopen⟩)
      simp only [entryStep, Event.fd, hlookup] at hclient
      rwa [h.step_receive w hne hlookup, Option.isSome_map]

end World

/-! ## Whole runs -/

/-- The server is a family of clients, one for every descriptor number. -/
def byDescriptor (w : Nat) (uds : UdsHandler) (listenFd : Int) :
    Machine.Projection (server w) (client w uds listenFd) Int where
  key := Event.fd
  outKey := Action.fd
  view world fd := world.server.connections.lookup fd
  Inv := World.Consistent uds listenFd
  enabled_iff h := h.enabled_iff
  step_isSome h henabled hclient := h.step_isSome henabled hclient
  step_own h henabled hstep := h.step_own henabled hstep
  step_other h henabled hstep := h.step_other henabled hstep
  step_out h henabled hstep := h.step_out henabled hstep
  step_inv h henabled hstep := h.step henabled hstep

theorem server_run_consistent {w : Nat} {uds : UdsHandler} {listenFd : Int}
    {events : List Event} {world : World} {actions : List Action}
    (hrun : (server w).Run (World.start uds listenFd) events world actions) :
    world.Consistent uds listenFd :=
  (byDescriptor w uds listenFd).run_inv hrun (World.start_consistent uds listenFd)

/-- In every interleaving of the clients' events the connection table holds exactly
the accepted and not yet closed descriptors, each under its own number, and with a
64-bit `size_t` every event is answered. An accepted connection starts fresh,
whatever the descriptor was used for before. From its acceptance on, what is done
for it and its whole entry in the table are those of a server that sees the events
of this descriptor alone. -/
theorem clients_isolated (w : Nat) (uds : UdsHandler) (listenFd : Int)
    {events : List Event} {world : World} {actions : List Action}
    (hrun : (server w).Run (World.start uds listenFd) events world actions) :
    world.server.connections.keys = world.openFds.erase listenFd ∧
    (∀ fd conn, world.server.connections.lookup fd = some conn → conn.fd = fd) ∧
    (∀ event, (server 64).Enabled world event → ((server 64).step world event).isSome) ∧
    (∀ fd, 0 ≤ fd → (server w).Enabled world (.accept fd) →
      ∃ next, (server w).step world (.accept fd) = some (next, []) ∧
        next.server.connections.lookup fd = some (DoIpConnection.accepted fd)) ∧
    (∀ before fd after, events = before ++ .accept fd :: after → 0 ≤ fd →
      ∃ middle earlier later,
        (server w).Run (World.start uds listenFd) before middle earlier ∧
        (server w).Run middle (.accept fd :: after) world later ∧
        actions = earlier ++ later ∧
        ∃ alone, (server w).Run (World.start uds listenFd)
            (.accept fd :: after.filter fun event => event.fd = fd) alone
            (later.filter fun action => action.fd = fd) ∧
          alone.server.connections.lookup fd = world.server.connections.lookup fd) := by
  have hconsistent := server_run_consistent hrun
  refine ⟨hconsistent.keys, hconsistent.conn_fd, ?_, ?_, ?_⟩
  · intro event henabled
    apply hconsistent.step_isSome henabled
    cases event with
    | accept fd => rfl
    | receive fd received =>
        unfold entryStep
        dsimp only
        split
        · rfl
        next conn _ => exact conn.onClientData_isSome uds received
  · intro fd hpos henabled
    have hneg : ¬ fd < 0 := by omega
    exact ⟨_, hconsistent.step_accept w hneg (henabled.resolve_left hneg), Finmap.lookup_insert _⟩
  · rintro before fd after rfl hpos
    obtain ⟨middle, earlier, later, hbefore, hafter, hactions⟩ := hrun.split
    have hmiddle := server_run_consistent hbefore
    have hstart := World.start_consistent uds listenFd
    -- the descriptor is not open when it is accepted, so neither world has an entry for it
    have hclosed : fd ∉ middle.openFds := by
      cases hafter with
      | cons henabled _ _ => exact henabled.resolve_left (by omega)
    have hempty : (World.start uds listenFd).server.connections.lookup fd = none :=
      Finmap.lookup_empty fd
    have hview : (byDescriptor w uds listenFd).view (World.start uds listenFd) fd =
        (byDescriptor w uds listenFd).view middle fd :=
      hempty.trans (hmiddle.lookup_eq_none hclosed).symm
    obtain ⟨alone, halone, hentry⟩ :=
      (byDescriptor w uds listenFd).isolated hafter hmiddle fd hstart hview
    rw [List.filter_cons_of_pos (by simp [byDescriptor, Event.fd])] at halone
    exact ⟨middle, earlier, later, hbefore, hafter, hactions, alone, halone, hentry⟩

/-- Descriptor 5 is activated and closed by one client, then given to another. -/
theorem clients_isolated_reusedDescriptor :
    ∃ world actions, (server 64).Run (World.start {} 3)
        [.accept 5, .receive 5 (.data [0x02, 0xFD, 0x00, 0x05, 0, 0, 0, 2, 0x0E, 0]),
          .receive 5 (.data []), .accept 5] world actions ∧
      world.server.connections.lookup 5 = some (DoIpConnection.accepted 5) ∧
      world.server.connections.keys = world.openFds.erase 3 := by
  have hstart := World.start_consistent {} 3
  have hfree : (5 : Int) ∉ (World.start {} 3).openFds := by decide
  have haccept := hstart.step_accept 64 (by decide) hfree
  have haccepted := hstart.accept hfree
  have hopen : ∀ received, ((World.start {} 3).withClient 5).Enabled (.receive 5 received) :=
    fun _ => ⟨by decide, by decide⟩
  have hfits : [0x02, 0xFD, 0x00, 0x05, 0, 0, 0, 2, 0x0E, (0 : UInt8)].length ≤
      (DoIpConnection.accepted 5).capacity := by decide
  have hw : recvBufSize < 2 ^ 64 := by decide
  obtain ⟨kept, outs, hcall, _⟩ := (DoIpConnection.accepted 5).onClientData_served hw {}
    (by simp) hfits (totalFits_host _)
  have hactivate := haccepted.step_receive 64 (by decide) (Finmap.lookup_insert _)
    (.data [0x02, 0xFD, 0x00, 0x05, 0, 0, 0, 2, 0x0E, 0])
  rw [hcall, Option.map_some] at hactivate
  have hclose := (haccepted.step (hopen _) hactivate).step_receive 64
    (by decide) (Finmap.lookup_insert _) (.data [])
  have hend : kept.onClientData 64 {} (.data []) = some (none, []) := by
    simp [DoIpConnection.onClientData, RecvResult.recv]
  rw [hend, Option.map_some] at hclose
  have hrun : (server 64).Run (World.start {} 3)
      [.accept 5, .receive 5 (.data [0x02, 0xFD, 0x00, 0x05, 0, 0, 0, 2, 0x0E, 0]),
        .receive 5 (.data [])] _ ([] ++ (outs ++ ([] ++ []))) :=
    .cons (.inr hfree) haccept
      (.cons (hopen (.data [0x02, 0xFD, 0x00, 0x05, 0, 0, 0, 2, 0x0E, 0])) hactivate
        (.cons (hopen (.data [])) hclose (.nil _)))
  have hreuse := Finset.notMem_erase 5 ((World.start {} 3).withClient 5).openFds
  obtain ⟨next, hagain, hfresh⟩ :=
    (clients_isolated 64 {} 3 hrun).2.2.2.1 5 (by decide) (Or.inr hreuse)
  have hwhole : (server 64).Run (World.start {} 3) (_ ++ [.accept 5]) next (_ ++ ([] ++ [])) :=
    hrun.append (.cons (Or.inr hreuse) hagain (.nil next))
  exact ⟨next, _, hwhole, hfresh, (clients_isolated 64 {} 3 hwhole).1⟩

end AutomotiveGateway.DoIp
