import AutomotiveGateway.DoIp.Server
import AutomotiveGateway.Foundation.Interleaving
import AutomotiveGateway.Foundation.RunLoop
import AutomotiveGateway.Gateway.Pipeline

/-!
# One event loop for everything

The CAN socket, the service discovery socket, the DoIP server and all its clients share one
event loop. Its batches may mix the ready descriptors in any order. Whatever the order, the
gateway and the DoIP server behave as each would alone, and no callback is lost, stale or
called for another descriptor than its own.
-/

namespace AutomotiveGateway

open Can DoIp Machine Someip

/-- The callbacks that are registered with the loop. -/
inductive Callback
  | canReadable
  | sdReadable
  | doip (reader : Reader)
deriving DecidableEq, Repr

/-- The descriptors that the objects of `main` own. -/
structure Descriptors where
  publisherFd : Int
  epollFd : Int
  canFd : Int
  sdFd : Int
  listenFd : Int
  nodup : [publisherFd, epollFd, canFd, sdFd, listenFd].Nodup
deriving DecidableEq, Repr

namespace Descriptors

def all (fds : Descriptors) : List Int :=
  [fds.publisherFd, fds.epollFd, fds.canFd, fds.sdFd, fds.listenFd]

/-- Those that are not of the DoIP server. -/
def ofGateway (fds : Descriptors) : Finset Int :=
  {fds.publisherFd, fds.epollFd, fds.canFd, fds.sdFd}

theorem listenFd_notMem (fds : Descriptors) : fds.listenFd ∉ fds.ofGateway := by
  have hnodup := fds.nodup
  simp only [List.nodup_cons, List.mem_cons, List.not_mem_nil, or_false, not_or] at hnodup
  simp only [ofGateway, Finset.mem_insert, Finset.mem_singleton, not_or]
  tauto

theorem all_of_ofGateway {fds : Descriptors} {fd : Int} (hfd : fd ∈ fds.ofGateway) :
    fd ∈ fds.all := by
  simp only [ofGateway, all, Finset.mem_insert, Finset.mem_singleton, List.mem_cons] at hfd ⊢
  tauto

theorem canFd_mem (fds : Descriptors) : fds.canFd ∈ fds.ofGateway := by simp [ofGateway]

theorem sdFd_mem (fds : Descriptors) : fds.sdFd ∈ fds.ofGateway := by simp [ofGateway]

theorem listenFd_ne (fds : Descriptors) :
    fds.listenFd ≠ fds.canFd ∧ fds.listenFd ≠ fds.sdFd :=
  ⟨fun heq => fds.listenFd_notMem (heq ▸ fds.canFd_mem),
    fun heq => fds.listenFd_notMem (heq ▸ fds.sdFd_mem)⟩

theorem sdFd_ne (fds : Descriptors) : fds.sdFd ≠ fds.canFd := by
  have hnodup := fds.nodup
  simp only [List.nodup_cons, List.mem_cons, List.not_mem_nil, or_false, not_or] at hnodup
  exact Ne.symm hnodup.2.2.1.1

end Descriptors

/-- The process between two callbacks: its components, the table of callbacks, the descriptors
watched by epoll and those that its objects hold open. -/
structure Process where
  fds : Descriptors
  gateway : Gateway
  server : DoIpServer
  readers : Finmap fun _ : Int => Callback := ∅
  watched : Finset Int := ∅
  openFds : Finset Int

/-- What the system calls of a callback return. The callback decides which of them it makes.
`registered` says whether epoll takes a new client. -/
structure Reply where
  canRead : CanRead
  clock : Clock
  datagram : Option (List UInt8 × SockaddrIn)
  accepted : Int
  registered : Bool
  received : RecvResult

/-- `EPOLLIN` -/
def epollIn : UInt32 := 0x001

structure EpollEvent where
  fd : Int
  events : UInt32
deriving DecidableEq, Repr

variable {D : Type}

/-- What a callback does towards the outside. -/
abbrev ProcessAction (D : Type) := GatewayAction D ⊕ Action

namespace Process

/-- `add_reader` throws if `epoll_ctl` fails, as it does for a descriptor that is watched
already. -/
def addReader (process : Process) (fd : Int) (callback : Callback) (registered : Bool) :
    Option Process :=
  if fd ∈ process.watched ∨ registered = false then none
  else some
    { process with
      readers := process.readers.insert fd callback
      watched := insert fd process.watched }

/-- The registrations of `main`, in their order, when epoll takes them. -/
def start (gateway : Gateway) (uds : UdsHandler) (fds : Descriptors) : Option Process := do
  let process : Process :=
    { fds, gateway, server := { listenFd := fds.listenFd, uds }, openFds := fds.all.toFinset }
  let process ← process.addReader fds.sdFd .sdReadable true
  let process ← process.addReader fds.canFd .canReadable true
  process.addReader fds.listenFd (.doip .acceptClient) true

/-- A new client has its connection before epoll is asked to watch it. -/
def storeClient (process : Process) (clientFd : Int) : Process :=
  { process with
    server :=
      { process.server with
        connections :=
          process.server.connections.insert clientFd (DoIpConnection.accepted clientFd) }
    openFds := insert clientFd process.openFds }

/-- The callback of the listening socket. -/
def acceptClient (process : Process) (clientFd : Int) (registered : Bool) : Option Process :=
  if clientFd < 0 then some process
  else
    (process.storeClient clientFd).addReader clientFd (.doip (.onClientData clientFd)) registered

/-- The callback of a client's socket. The entry in the table of callbacks outlives the
descriptor. -/
def onClientData (w : Nat) (process : Process) (clientFd : Int) (received : RecvResult) :
    Option (Process × List Action) :=
  match process.server.connections.lookup clientFd with
  -- a callback of a client that was closed finds no connection and returns
  | none => some (process, [])
  | some conn =>
      (conn.onClientData w process.server.uds received).map fun served =>
        match served.1 with
        | some next =>
            ({ process with
                server :=
                  { process.server with
                    connections := process.server.connections.insert clientFd next } },
              served.2)
        | none =>
            ({ process with
                server :=
                  { process.server with
                    connections := process.server.connections.erase clientFd }
                watched := process.watched.erase clientFd
                openFds := process.openFds.erase clientFd },
              served.2)

variable [DoubleOps D]

/-- Call a callback. -/
def call (w : Nat) (dbc : DbcParser D) (process : Process) (reply : Reply) :
    Callback → Option (Process × List (ProcessAction D))
  | .canReadable => (process.gateway.serve dbc (.can reply.canRead reply.clock)).map fun served =>
      ({ process with gateway := served.1 }, served.2.map .inl)
  | .sdReadable => (process.gateway.serve dbc (.sd reply.datagram)).map fun served =>
      ({ process with gateway := served.1 }, served.2.map .inl)
  | .doip .acceptClient => (process.acceptClient reply.accepted reply.registered).map
      fun next => (next, [])
  | .doip (.onClientData clientFd) => (process.onClientData w clientFd reply.received).map
      fun served => (served.1, served.2.map .inr)

/-- The body of the loop over a batch: errors and hang-ups alone are passed over, as are
descriptors without a callback. -/
def dispatch (w : Nat) (dbc : DbcParser D) (process : Process) (event : EpollEvent)
    (reply : Reply) : Option (Process × List (ProcessAction D)) :=
  if event.events &&& epollIn ≠ 0 then
    match process.readers.lookup event.fd with
    | some callback => process.call w dbc reply callback
    | none => some (process, [])
  else some (process, [])

/-- epoll reports watched descriptors, each once, and `accept` returns a descriptor that is not
open. -/
def dispatcher (w : Nat) (dbc : DbcParser D) :
    Dispatcher Process EpollEvent Reply (ProcessAction D) where
  Ready process batch := (batch.map EpollEvent.fd).Nodup ∧
    ∀ event ∈ batch, event.fd ∈ process.watched
  Reply process _ reply := reply.accepted < 0 ∨ reply.accepted ∉ process.openFds
  dispatch := dispatch w dbc

/-- `EventLoop::run`, with its array of 32 events. -/
def eventLoop (w : Nat) (dbc : DbcParser D) :
    Machine (RunLoop.LoopState Process EpollEvent) (RunLoop.Turn EpollEvent Reply)
      (RunLoop.Served EpollEvent Reply (ProcessAction D)) :=
  RunLoop.machine (dispatcher w dbc) 32

end Process

/-! ## The events of the components -/

/-- The event of a component that a ready descriptor is. Which one follows from the descriptor
alone. -/
def eventOf (fds : Descriptors) (served : EpollEvent × Reply) : Option (GatewayEvent ⊕ Event) :=
  if served.1.events &&& epollIn = 0 then none
  else if served.1.fd = fds.canFd then some (.inl (.can served.2.canRead served.2.clock))
  else if served.1.fd = fds.sdFd then some (.inl (.sd served.2.datagram))
  else if served.1.fd = fds.listenFd then some (.inr (.accept served.2.accepted))
  else some (.inr (.receive served.1.fd served.2.received))

namespace Process

/-- The tables of the process are those of the DoIP server with the two sockets of the gateway
added: every socket that is watched has its own callback. -/
structure Wired (uds : UdsHandler) (fds : Descriptors) (process : Process) (world : World) :
    Prop where
  fds_eq : process.fds = fds
  server_eq : process.server = world.server
  consistent : world.Consistent uds fds.listenFd
  openFds : process.openFds = fds.ofGateway ∪ world.openFds
  other : ∀ fd ∈ fds.ofGateway, fd ∉ world.openFds
  watched : process.watched = insert fds.canFd (insert fds.sdFd world.openFds)
  can : process.readers.lookup fds.canFd = some .canReadable
  sd : process.readers.lookup fds.sdFd = some .sdReadable
  doip : ∀ fd ∈ world.openFds,
    process.readers.lookup fd = (world.loop.readers.lookup fd).map .doip

variable {uds : UdsHandler} {fds : Descriptors} {process next : Process} {world : World}

theorem Wired.mem_watched (h : process.Wired uds fds world) {fd : Int} :
    fd ∈ process.watched ↔ fd = fds.canFd ∨ fd = fds.sdFd ∨ fd ∈ world.openFds := by
  rw [h.watched, Finset.mem_insert, Finset.mem_insert]

theorem Wired.canFd_new (h : process.Wired uds fds world) : fds.canFd ∉ world.openFds :=
  h.other fds.canFd fds.canFd_mem

theorem Wired.sdFd_new (h : process.Wired uds fds world) : fds.sdFd ∉ world.openFds :=
  h.other fds.sdFd fds.sdFd_mem

theorem Wired.listening (h : process.Wired uds fds world) :
    process.readers.lookup fds.listenFd = some (.doip .acceptClient) := by
  rw [h.doip fds.listenFd h.consistent.listening_open, h.consistent.listening]
  rfl

/-- Only open descriptors are watched. -/
theorem Wired.watched_subset (h : process.Wired uds fds world) :
    process.watched ⊆ process.openFds := by
  intro fd hfd
  rw [h.openFds, Finset.mem_union]
  rcases h.mem_watched.mp hfd with rfl | rfl | hopen
  · exact .inl fds.canFd_mem
  · exact .inl fds.sdFd_mem
  · exact .inr hopen

/-- The descriptors of a process are those of its objects and of its clients. -/
theorem Wired.openFds_eq (h : process.Wired uds fds world) :
    process.openFds = fds.all.toFinset ∪ process.server.connections.keys := by
  have hlisten := h.consistent.listening_open
  rw [h.openFds, h.server_eq, h.consistent.keys]
  ext fd
  by_cases heq : fd = fds.listenFd
  · simp [Descriptors.all, heq, hlisten]
  · simp [Descriptors.all, Descriptors.ofGateway, heq]

/-- The registrations do not throw, and leave the DoIP server without clients. -/
theorem exists_start (gateway : Gateway) (uds : UdsHandler) (fds : Descriptors) :
    ∃ process, start gateway uds fds = some process ∧ process.gateway = gateway ∧
      process.Wired uds fds (World.start uds fds.listenFd) := by
  have hother := fds.listenFd_notMem
  have hcan := fds.listenFd_ne.1.symm
  have hlisten := fds.listenFd_ne.2.symm
  have hsd := fds.sdFd_ne
  have hempty : ¬ (fds.sdFd ∈ (∅ : Finset Int) ∨ true = false) := by simp
  have hnew : ¬ (fds.canFd ∈ insert fds.sdFd (∅ : Finset Int) ∨ true = false) := by
    simp [Ne.symm hsd]
  have hlast : ¬ (fds.listenFd ∈ insert fds.canFd (insert fds.sdFd (∅ : Finset Int)) ∨
      true = false) := by
    simp [Ne.symm hcan, Ne.symm hlisten]
  simp only [start, addReader, if_neg hempty, if_neg hnew, if_neg hlast,
    Option.bind_eq_bind, Option.bind_some]
  refine ⟨_, rfl, rfl, ?_⟩
  exact
    { fds_eq := rfl
      server_eq := rfl
      consistent := World.start_consistent uds fds.listenFd
      openFds := by
        ext fd
        simp [Descriptors.all, Descriptors.ofGateway, World.start]
      other := by
        intro fd hfd hlistening
        obtain rfl := Finset.mem_singleton.mp hlistening
        exact hother hfd
      watched := by
        ext fd
        simp only [World.start, Finset.mem_insert, Finset.mem_singleton, Finset.notMem_empty,
          or_false]
        tauto
      can := by rw [Finmap.lookup_insert_of_ne _ hcan, Finmap.lookup_insert]
      sd := by
        rw [Finmap.lookup_insert_of_ne _ hlisten, Finmap.lookup_insert_of_ne _ hsd,
          Finmap.lookup_insert]
      doip := by
        intro fd hfd
        obtain rfl := Finset.mem_singleton.mp hfd
        have hlistening : (World.start uds fds.listenFd).loop.readers.lookup fds.listenFd =
            some .acceptClient := Finmap.lookup_singleton_eq
        rw [Finmap.lookup_insert, hlistening]
        rfl }

/-! ## One callback -/

/-- A new client gets its own callback, and takes nothing from the sockets of the gateway. -/
theorem Wired.withClient (h : process.Wired uds fds world) {fd : Int}
    (hnew : fd ∉ process.openFds) :
    Wired uds fds
      { process with
        server := (world.withClient fd).server
        readers := process.readers.insert fd (.doip (.onClientData fd))
        watched := insert fd process.watched
        openFds := insert fd process.openFds } (world.withClient fd) := by
  rw [h.openFds, Finset.mem_union, not_or] at hnew
  obtain ⟨hother, hclosed⟩ := hnew
  have hcan : fds.canFd ≠ fd := fun heq => hother (heq ▸ fds.canFd_mem)
  have hsd : fds.sdFd ≠ fd := fun heq => hother (heq ▸ fds.sdFd_mem)
  exact
    { fds_eq := h.fds_eq
      server_eq := rfl
      consistent := h.consistent.accept hclosed
      openFds := by rw [h.openFds, World.withClient, Finset.union_insert]
      other := by
        intro own hown
        rw [World.withClient, Finset.mem_insert, not_or]
        exact ⟨fun heq => hother (heq ▸ hown), h.other own hown⟩
      watched := by
        rw [h.watched, World.withClient, Finset.insert_comm fd, Finset.insert_comm fd]
      can := (Finmap.lookup_insert_of_ne _ hcan).trans h.can
      sd := (Finmap.lookup_insert_of_ne _ hsd).trans h.sd
      doip := by
        intro other hother
        rw [World.withClient]
        by_cases heq : other = fd
        · rw [heq, Finmap.lookup_insert, Finmap.lookup_insert]
          rfl
        · rw [Finmap.lookup_insert_of_ne _ heq, Finmap.lookup_insert_of_ne _ heq]
          exact h.doip other ((Finset.mem_insert.mp hother).resolve_left heq) }

/-- Storing a connection of an open descriptor changes no table. -/
theorem Wired.stored (h : process.Wired uds fds world) {fd : Int}
    {conn kept : DoIpConnection} (hlookup : world.server.connections.lookup fd = some conn)
    (hkept : kept.fd = fd) :
    Wired uds fds
      { process with
        server :=
          (world.setConnections (world.server.connections.insert fd kept)).server }
      (world.setConnections (world.server.connections.insert fd kept)) :=
  { h with
    server_eq := rfl
    consistent := h.consistent.setConnections hlookup hkept }

/-- A client that is closed leaves only its callback behind. -/
theorem Wired.closed (h : process.Wired uds fds world) {fd : Int}
    (hopen : fd ∈ world.openFds) (hclient : fd ≠ fds.listenFd) :
    Wired uds fds
      { process with
        server := ((world.close fd).setConnections (world.server.connections.erase fd)).server
        watched := process.watched.erase fd
        openFds := process.openFds.erase fd }
      ((world.close fd).setConnections (world.server.connections.erase fd)) where
  fds_eq := h.fds_eq
  server_eq := rfl
  consistent := h.consistent.close hclient
  openFds := by
    have hother : fd ∉ fds.ofGateway := fun hown => h.other fd hown hopen
    rw [h.openFds, Finset.erase_union_distrib, Finset.erase_eq_of_notMem hother]
    rfl
  other := fun own hown hmem => h.other own hown (Finset.mem_of_mem_erase hmem)
  watched := by
    have hcan : fds.canFd ≠ fd := fun heq => h.canFd_new (heq ▸ hopen)
    have hsd : fds.sdFd ≠ fd := fun heq => h.sdFd_new (heq ▸ hopen)
    rw [h.watched, Finset.erase_insert_of_ne hcan, Finset.erase_insert_of_ne hsd]
    rfl
  can := h.can
  sd := h.sd
  doip := fun other hmem => h.doip other (Finset.mem_of_mem_erase hmem)

/-- The callback of the listening socket throws exactly if epoll refuses the client. -/
theorem Wired.acceptClient_isSome (h : process.Wired uds fds world) {fd : Int}
    (hnew : fd < 0 ∨ fd ∉ process.openFds) (registered : Bool) :
    (process.acceptClient fd registered).isSome ↔ fd < 0 ∨ registered = true := by
  rw [Process.acceptClient]
  by_cases hneg : fd < 0
  · simp [hneg]
  · have hwatched : fd ∉ process.watched := fun hmem =>
      hnew.resolve_left hneg (h.watched_subset hmem)
    cases registered with
    | true => simp [hneg, addReader, storeClient, hwatched]
    | false => simp [hneg, addReader]

/-- Accepting a client is the step of the DoIP server. -/
theorem Wired.acceptClient (h : process.Wired uds fds world) (w : Nat) {fd : Int}
    (hnew : fd < 0 ∨ fd ∉ process.openFds) {registered : Bool}
    (haccept : process.acceptClient fd registered = some next) :
    world.Enabled (.accept fd) ∧ ∃ after, world.step w (.accept fd) = some (after, []) ∧
      next.gateway = process.gateway ∧ next.Wired uds fds after := by
  rw [Process.acceptClient] at haccept
  by_cases hneg : fd < 0
  · rw [if_pos hneg] at haccept
    cases haccept
    exact ⟨.inl hneg, world, h.consistent.step_accept_failed w hneg, rfl, h⟩
  · have hopen := hnew.resolve_left hneg
    have hclosed : fd ∉ world.openFds := by
      rw [h.openFds, Finset.mem_union, not_or] at hopen
      exact hopen.2
    rw [if_neg hneg, addReader] at haccept
    split_ifs at haccept
    cases haccept
    refine ⟨.inr hclosed, _, h.consistent.step_accept w hneg hclosed, rfl, ?_⟩
    have hserver : (process.storeClient fd).server = (world.withClient fd).server := by
      rw [storeClient, World.withClient, h.server_eq]
    rw [hserver]
    exact h.withClient hopen

/-- Serving a client is the step of the DoIP server. -/
theorem Wired.onClientData (h : process.Wired uds fds world) {w : Nat} {fd : Int}
    (hopen : fd ∈ world.openFds) (hclient : fd ≠ fds.listenFd) {received : RecvResult}
    {actions : List Action}
    (hcall : process.onClientData w fd received = some (next, actions)) :
    ∃ after, world.step w (.receive fd received) = some (after, actions) ∧
      next.gateway = process.gateway ∧ next.Wired uds fds after := by
  obtain ⟨conn, hlookup⟩ :=
    Option.isSome_iff_exists.mp (h.consistent.lookup_isSome.mpr ⟨hclient, hopen⟩)
  have hstep := h.consistent.step_receive w hclient hlookup received
  rw [← h.consistent.uds_eq] at hstep
  simp only [Process.onClientData, h.server_eq, hlookup, Option.map_eq_some_iff] at hcall
  obtain ⟨⟨entry, outs⟩, hserved, hnext⟩ := hcall
  rw [hserved, Option.map_some] at hstep
  cases entry with
  | some kept =>
      cases hnext
      have hkept := (DoIpConnection.onClientData_fd hserved).1 kept rfl
      exact ⟨_, hstep, rfl,
        h.stored hlookup (hkept.trans (h.consistent.conn_fd fd conn hlookup))⟩
  | none =>
      cases hnext
      exact ⟨_, hstep, rfl, h.closed hopen hclient⟩

/-! ## One ready descriptor -/

variable [DoubleOps D]

/-- The gateway and the DoIP server, each on its own. -/
def components (w : Nat) (dbc : DbcParser D) :
    Machine (Gateway × World) (GatewayEvent ⊕ Event) (ProcessAction D) :=
  (Gateway.machine dbc).beside (DoIp.server w)

variable {w : Nat} {dbc : DbcParser D} {event : EpollEvent} {reply : Reply}
  {actions : List (ProcessAction D)}

/-- The gateway serves what its sockets receive. -/
theorem Wired.dispatch_gateway (h : process.Wired uds fds world)
    {received : GatewayEvent}
    (hevent : eventOf fds (event, reply) = some (.inl received)) :
    process.dispatch w dbc event reply = (process.gateway.serve dbc received).map fun served =>
      ({ process with gateway := served.1 }, served.2.map .inl) := by
  simp only [eventOf] at hevent
  split_ifs at hevent with hnone hcan hsd hlisten
  · cases hevent
    rw [dispatch, if_pos hnone, hcan, h.can]
    rfl
  · cases hevent
    rw [dispatch, if_pos hnone, hsd, h.sd]
    rfl
  · cases hevent
  · cases hevent

/-- The listening socket and the clients are served by the DoIP server. -/
theorem Wired.dispatch_doip (w : Nat) (dbc : DbcParser D)
    (h : process.Wired uds fds world) (hfd : event.fd ∈ process.watched)
    {arrival : Event}
    (hevent : eventOf fds (event, reply) = some (.inr arrival)) :
    (arrival = .accept reply.accepted ∧
      process.dispatch w dbc event reply =
        (process.acceptClient reply.accepted reply.registered).map fun next => (next, [])) ∨
    (arrival = .receive event.fd reply.received ∧ event.fd ∈ world.openFds ∧
      event.fd ≠ fds.listenFd ∧
      process.dispatch w dbc event reply =
        (process.onClientData w event.fd reply.received).map fun served =>
          (served.1, served.2.map .inr)) := by
  simp only [eventOf] at hevent
  split_ifs at hevent with hnone hcan hsd hlisten
  · cases hevent
  · cases hevent
  · cases hevent
    refine .inl ⟨rfl, ?_⟩
    rw [dispatch, if_pos hnone, hlisten, h.listening]
    rfl
  · cases hevent
    have hopen := ((h.mem_watched.mp hfd).resolve_left hcan).resolve_left hsd
    have hcallback : process.readers.lookup event.fd = some (.doip (.onClientData event.fd)) := by
      rw [h.doip event.fd hopen, h.consistent.callback event.fd hopen hlisten]
      rfl
    refine .inr ⟨rfl, hopen, hlisten, ?_⟩
    rw [dispatch, if_pos hnone, hcallback]
    rfl

/-- A descriptor that only has an error or hang-up is passed over. -/
theorem dispatch_of_none (hevent : eventOf fds (event, reply) = none) :
    process.dispatch w dbc event reply = some (process, []) := by
  simp only [eventOf] at hevent
  split_ifs at hevent with hnone
  rw [dispatch, if_neg (not_not_intro hnone)]

/-- Serving a ready descriptor is the step of the component it belongs to. -/
theorem Wired.dispatch_step (h : process.Wired uds fds world)
    (hfd : event.fd ∈ process.watched)
    (hreply : reply.accepted < 0 ∨ reply.accepted ∉ process.openFds)
    (hdispatch : process.dispatch w dbc event reply = some (next, actions)) :
    (eventOf fds (event, reply) = none ∧ next = process ∧ actions = []) ∨
    ∃ arrival after, eventOf fds (event, reply) = some arrival ∧
      (components w dbc).Enabled (process.gateway, world) arrival ∧
      (components w dbc).step (process.gateway, world) arrival =
        some ((next.gateway, after), actions) ∧
      next.Wired uds fds after := by
  cases hevent : eventOf fds (event, reply) with
  | none =>
      rw [dispatch_of_none hevent] at hdispatch
      cases hdispatch
      exact .inl ⟨rfl, rfl, rfl⟩
  | some arrival =>
      right
      cases arrival with
      | inl received =>
          rw [h.dispatch_gateway hevent, Option.map_eq_some_iff] at hdispatch
          obtain ⟨served, hserve, hnext⟩ := hdispatch
          cases hnext
          exact ⟨.inl received, world, rfl, trivial, beside_step_inl hserve world, { h with }⟩
      | inr arrival =>
          rcases h.dispatch_doip w dbc hfd hevent with ⟨rfl, hcall⟩ | ⟨rfl, hopen, hclient, hcall⟩
          · rw [hcall, Option.map_eq_some_iff] at hdispatch
            obtain ⟨accepted, haccept, hnext⟩ := hdispatch
            cases hnext
            obtain ⟨henabled, after, hstep, hgateway, hwired⟩ := h.acceptClient w hreply haccept
            refine ⟨_, after, rfl, henabled, ?_, hwired⟩
            have hserved : (DoIp.server w).step world (.accept reply.accepted) =
                some (after, []) := hstep
            rw [hgateway]
            exact beside_step_inr process.gateway hserved
          · rw [hcall, Option.map_eq_some_iff] at hdispatch
            obtain ⟨⟨served, outs⟩, honClientData, hnext⟩ := hdispatch
            cases hnext
            obtain ⟨after, hstep, hgateway, hwired⟩ :=
              h.onClientData hopen hclient honClientData
            refine ⟨_, after, rfl, ⟨hopen, ?_⟩, ?_, hwired⟩
            · rwa [h.consistent.listenFd_eq]
            · rw [hgateway]
              exact beside_step_inr process.gateway hstep

/-- A callback ends the watch on no other descriptor. -/
theorem Wired.watched_dispatch (h : process.Wired uds fds world)
    (hfd : event.fd ∈ process.watched)
    (hreply : reply.accepted < 0 ∨ reply.accepted ∉ process.openFds)
    (hdispatch : process.dispatch w dbc event reply = some (next, actions)) {fd : Int}
    (hwatched : fd ∈ process.watched) (hother : fd ≠ event.fd) : fd ∈ next.watched := by
  -- only a client's own callback closes a descriptor, and then its own
  rcases h.dispatch_step hfd hreply hdispatch with ⟨-, rfl, -⟩ |
    ⟨arrival, after, hevent, henabled, hstep, hwired⟩
  · exact hwatched
  · rw [hwired.mem_watched]
    refine (h.mem_watched.mp hwatched).imp id (Or.imp id fun hopen => ?_)
    cases arrival with
    | inl received =>
        obtain ⟨served, -, hnext⟩ := Option.map_eq_some_iff.mp hstep
        obtain ⟨hstate, -⟩ := Prod.mk.inj hnext
        obtain ⟨-, rfl⟩ := Prod.mk.inj hstate
        exact hopen
    | inr arrival =>
        obtain ⟨served, hserved, hnext⟩ := Option.map_eq_some_iff.mp hstep
        obtain ⟨hstate, -⟩ := Prod.mk.inj hnext
        obtain ⟨-, rfl⟩ := Prod.mk.inj hstate
        refine h.consistent.step_open henabled hserved hopen ?_
        rintro received rfl
        rcases h.dispatch_doip w dbc hfd hevent with ⟨harrival, -⟩ | ⟨harrival, -⟩
        · cases harrival
        · cases harrival
          exact hother rfl

/-! ## Runs -/

/-- Every descriptor still to be served of a batch is there once and is watched. -/
def Serving (uds : UdsHandler) (fds : Descriptors) (process : Process)
    (rest : List EpollEvent) : Prop :=
  (∃ world, process.Wired uds fds world) ∧ (rest.map EpollEvent.fd).Nodup ∧
    ∀ event ∈ rest, event.fd ∈ process.watched

/-- A process that waits has nothing left to serve. -/
theorem Wired.serving (h : process.Wired uds fds world) : Serving uds fds process [] :=
  ⟨⟨world, h⟩, List.nodup_nil, fun _ hmem => absurd hmem List.not_mem_nil⟩

theorem keeps_serving (w : Nat) (dbc : DbcParser D) (uds : UdsHandler) (fds : Descriptors) :
    RunLoop.Keeps (dispatcher w dbc) (Serving uds fds) where
  ready := fun hserving hready => ⟨hserving.1, hready.1, hready.2⟩
  dispatch := by
    rintro process event rest reply next actions ⟨⟨world, h⟩, hnodup, hwatched⟩ hreply hdispatch
    rw [List.map_cons, List.nodup_cons] at hnodup
    have hfd := hwatched event List.mem_cons_self
    -- what is left of the batch was watched when epoll reported it, and nothing served since
    -- has closed it, because no descriptor is twice in a batch
    refine ⟨?_, hnodup.2, fun other hother => ?_⟩
    · rcases h.dispatch_step hfd hreply hdispatch with ⟨-, rfl, -⟩ |
        ⟨_, after, -, -, -, hwired⟩
      · exact ⟨world, h⟩
      · exact ⟨after, hwired⟩
    · refine h.watched_dispatch hfd hreply hdispatch
        (hwatched other (List.mem_cons_of_mem _ hother)) fun heq => hnodup.1 ?_
      rw [← heq]
      exact List.mem_map_of_mem hother

/-- What is served, source by source, is a run of the components. -/
theorem Wired.run_components {last : Process} {served : List (EpollEvent × Reply)}
    (hrun : ((dispatcher w dbc).machine (Serving uds fds)).Run process served last
      actions) (h : process.Wired uds fds world) :
    ∃ after, last.Wired uds fds after ∧
      (components w dbc).Run (process.gateway, world)
        (served.filterMap (eventOf fds)) (last.gateway, after) actions := by
  induction hrun generalizing world with
  | nil process => exact ⟨world, h, .nil _⟩
  | @cons process one middle out served last outs henabled hdispatch _ ih =>
      obtain ⟨⟨rest, -, -, hwatched⟩, hreply⟩ := henabled
      rcases h.dispatch_step (hwatched _ List.mem_cons_self) hreply hdispatch with
        ⟨hevent, rfl, rfl⟩ | ⟨arrival, after, hevent, hallowed, hstep, hwired⟩
      -- a descriptor that was passed over is no step of a component
      · rw [List.filterMap_cons_none hevent]
        exact ih h
      · obtain ⟨finish, hfinish, hrest⟩ := ih hwired
        rw [List.filterMap_cons_some hevent]
        exact ⟨finish, hfinish, .cons hallowed hstep hrest⟩

/-- Epoll refuses the client that the listening socket has just accepted. -/
def Refuses (fds : Descriptors) (event : EpollEvent) (reply : Reply) : Prop :=
  event.events &&& epollIn ≠ 0 ∧ event.fd = fds.listenFd ∧ 0 ≤ reply.accepted ∧
    reply.registered = false

/-- The callback that accepted a client throws if epoll refuses it. -/
theorem Wired.dispatch_refuses (h : process.Wired uds fds world) (w : Nat) (dbc : DbcParser D)
    (hrefuses : Refuses fds event reply) : process.dispatch w dbc event reply = none := by
  obtain ⟨hin, hlisten, haccepted, hrefused⟩ := hrefuses
  rw [dispatch, if_pos hin, hlisten, h.listening]
  simp only [call, Process.acceptClient, if_neg (Int.not_lt.mpr haccepted), addReader, hrefused,
    or_true, if_true, Option.map_none]

/-- A callback returns if the connection it may serve does, unless epoll refuses a client. -/
theorem Wired.dispatch_isSome (h : process.Wired uds fds world)
    (dbc : DbcParser D) (hfd : event.fd ∈ process.watched)
    (hreply : reply.accepted < 0 ∨ reply.accepted ∉ process.openFds)
    (hreturns : ∀ conn, world.server.connections.lookup event.fd = some conn →
      (conn.onClientData w uds reply.received).isSome) :
    (process.dispatch w dbc event reply).isSome ↔ ¬ Refuses fds event reply := by
  constructor
  · intro hsome hrefuses
    rw [h.dispatch_refuses w dbc hrefuses] at hsome
    cases hsome
  intro hrefuses
  cases hevent : eventOf fds (event, reply) with
  | none =>
      rw [dispatch_of_none hevent]
      rfl
  | some arrival =>
      cases arrival with
      | inl received =>
          obtain ⟨_, _, hserve, -⟩ := Gateway.exists_serve dbc process.gateway received
          rw [h.dispatch_gateway hevent, hserve]
          rfl
      | inr arrival =>
          rcases h.dispatch_doip w dbc hfd hevent with ⟨rfl, hcall⟩ | ⟨-, hopen, hclient, hcall⟩
          · rw [hcall, Option.isSome_map, h.acceptClient_isSome hreply]
            by_contra hrefused
            rw [not_or, Int.not_lt, Bool.not_eq_true] at hrefused
            simp only [eventOf] at hevent
            split_ifs at hevent with hnone hcan hsd hlisten
            -- only the listening socket has this event
            · cases hevent
            · cases hevent
            · exact hrefuses ⟨hnone, hlisten, hrefused⟩
            · cases hevent
          · obtain ⟨conn, hlookup⟩ :=
              Option.isSome_iff_exists.mp (h.consistent.lookup_isSome.mpr ⟨hclient, hopen⟩)
            rw [hcall, Option.isSome_map, Process.onClientData, h.server_eq, hlookup,
              h.consistent.uds_eq]
            simp only [Option.isSome_map]
            exact hreturns conn hlookup

/-! ## Every interleaving -/

/-- There is nothing to read, and nobody to accept. -/
def nothing : Reply where
  canRead := { n := -1, frame := { canId := 0 } }
  clock := {}
  datagram := none
  accepted := -1
  registered := true
  received := .error 0

/-- A ready descriptor that is an event of a component. -/
def readyFor (fds : Descriptors) : GatewayEvent ⊕ Event → EpollEvent × Reply
  | .inl (.can canRead clock) =>
      ({ fd := fds.canFd, events := epollIn }, { nothing with canRead, clock })
  | .inl (.sd datagram) => ({ fd := fds.sdFd, events := epollIn }, { nothing with datagram })
  | .inr (.accept accepted) =>
      ({ fd := fds.listenFd, events := epollIn }, { nothing with accepted })
  | .inr (.receive fd received) => ({ fd, events := epollIn }, { nothing with received })

theorem registered_readyFor (fds : Descriptors) (arrival : GatewayEvent ⊕ Event) :
    (readyFor fds arrival).2.registered = true := by
  rcases arrival with (_ | _) | (_ | _) <;> rfl

/-- Any event a component may be offered can be offered to the process, which then takes the
step of that component. -/
theorem Wired.exists_dispatch (h : process.Wired uds fds world)
    {arrival : GatewayEvent ⊕ Event} {after : Gateway × World}
    (henabled : (components w dbc).Enabled (process.gateway, world) arrival)
    (hstep : (components w dbc).step (process.gateway, world) arrival = some (after, actions))
    (hnew : ∀ fd, arrival = .inr (.accept fd) → fd ∉ fds.ofGateway) :
    ∃ event reply next, eventOf fds (event, reply) = some arrival ∧
      event.fd ∈ process.watched ∧ (reply.accepted < 0 ∨ reply.accepted ∉ process.openFds) ∧
      process.dispatch w dbc event reply = some (next, actions) ∧ next.gateway = after.1 ∧
      next.Wired uds fds after.2 := by
  have hin : epollIn &&& epollIn ≠ 0 := by decide
  have hunused : (-1 : Int) < 0 := by decide
  obtain ⟨served, hserved⟩ : ∃ served, readyFor fds arrival = served := ⟨_, rfl⟩
  -- the descriptor is one of those watched, and is taken for the event
  have hready : eventOf fds served = some arrival ∧
      served.1.fd ∈ process.watched ∧
      (served.2.accepted < 0 ∨ served.2.accepted ∉ process.openFds) := by
    subst hserved
    rw [h.mem_watched]
    match arrival with
    | .inl (.can canRead clock) =>
        refine ⟨?_, .inl rfl, .inl hunused⟩
        rw [eventOf, readyFor, if_neg hin, if_pos rfl]
    | .inl (.sd datagram) =>
        refine ⟨?_, .inr (.inl rfl), .inl hunused⟩
        rw [eventOf, readyFor, if_neg hin, if_neg fds.sdFd_ne, if_pos rfl]
    | .inr (.accept accepted) =>
        refine ⟨?_, .inr (.inr h.consistent.listening_open), ?_⟩
        · rw [eventOf, readyFor, if_neg hin, if_neg fds.listenFd_ne.1, if_neg fds.listenFd_ne.2,
            if_pos rfl]
        · rw [h.openFds, Finset.mem_union, not_or]
          exact henabled.imp id fun hclosed => ⟨hnew accepted rfl, hclosed⟩
    | .inr (.receive fd received) =>
        obtain ⟨hopen, hclient⟩ := henabled
        rw [h.consistent.listenFd_eq] at hclient
        have hfd : fd ≠ fds.canFd := fun heq => h.canFd_new (heq ▸ hopen)
        have hfd' : fd ≠ fds.sdFd := fun heq => h.sdFd_new (heq ▸ hopen)
        refine ⟨?_, .inr (.inr hopen), .inl hunused⟩
        rw [eventOf, readyFor, if_neg hin, if_neg hfd, if_neg hfd', if_neg hclient]
  obtain ⟨hevent, hfd, hreply⟩ := hready
  -- a callback that returned took the step of the component, so it suffices that it returns
  have hreturns : (process.dispatch w dbc served.1 served.2).isSome := by
    refine (h.dispatch_isSome dbc hfd hreply ?_).mpr ?_
    · intro conn hlookup
      have hopen := h.consistent.lookup_isSome.mp (Option.isSome_of_eq_some hlookup)
      have hfd' : served.1.fd ≠ fds.canFd := fun heq => h.canFd_new (heq ▸ hopen.2)
      have hfd'' : served.1.fd ≠ fds.sdFd := fun heq => h.sdFd_new (heq ▸ hopen.2)
      obtain rfl : arrival = .inr (.receive served.1.fd served.2.received) := by
        rw [eventOf] at hevent
        split_ifs at hevent with hnone hlisten
        · exact absurd hlisten hopen.1
        · exact (Option.some.inj hevent).symm
      obtain ⟨⟨_, _⟩, hworld, -⟩ := Option.map_eq_some_iff.mp hstep
      have hreceive := h.consistent.step_receive w hopen.1 hlookup served.2.received
      obtain ⟨entry, hconn, -⟩ := Option.map_eq_some_iff.mp (hreceive.symm.trans hworld)
      exact Option.isSome_of_eq_some hconn
    · intro hrefuses
      have hregistered := registered_readyFor fds arrival
      rw [hserved, hrefuses.2.2.2] at hregistered
      cases hregistered
  obtain ⟨⟨next, outs⟩, hdispatch⟩ := Option.isSome_iff_exists.mp hreturns
  rcases h.dispatch_step hfd hreply hdispatch with ⟨hnone, -⟩ |
    ⟨arrival', finish, hevent', -, hstep', hwired⟩
  · rw [hevent] at hnone
    cases hnone
  · obtain rfl := Option.some.inj (hevent.symm.trans hevent')
    rw [hstep, Option.some.injEq, Prod.mk.injEq] at hstep'
    obtain ⟨rfl, rfl⟩ := hstep'
    exact ⟨served.1, served.2, next, hevent, hfd, hreply, hdispatch, rfl, hwired⟩

/-- The callbacks that a run of the loop served. -/
abbrev Trace (D : Type) := List (RunLoop.Served EpollEvent Reply (ProcessAction D))

/-- The events of the components that a run served, in order. -/
def eventsOf (fds : Descriptors) (trace : Trace D) : List (GatewayEvent ⊕ Event) :=
  (trace.map fun served => (served.source, served.reply)).filterMap (eventOf fds)

def actionsOf (trace : Trace D) : List (ProcessAction D) := trace.flatMap RunLoop.Served.outs

/-- A run of the event loop is a run of the components on the events that it served. -/
theorem Wired.run_eventLoop {last : RunLoop.LoopState Process EpollEvent}
    {turns : List (RunLoop.Turn EpollEvent Reply)} {trace : Trace D}
    (h : process.Wired uds fds world)
    (hrun : (eventLoop w dbc).Run { state := process } turns last trace) :
    ∃ after, last.state.Wired uds fds after ∧
      (components w dbc).Run (process.gateway, world) (eventsOf fds trace)
        (last.state.gateway, after) (actionsOf trace) :=
  h.run_components ((keeps_serving w dbc uds fds).run_dispatcher hrun h.serving)

/-- A run of the components is found in the event loop, one event a batch. -/
theorem Wired.exists_turns {events : List (GatewayEvent ⊕ Event)} {finish : Gateway × World}
    (h : process.Wired uds fds world)
    (hrun : (components w dbc).Run (process.gateway, world) events finish actions)
    (hnew : ∀ fd, .inr (.accept fd) ∈ events → fd ∉ fds.ofGateway) :
    ∃ turns last, ∃ trace : Trace D,
      (eventLoop w dbc).Run { stage := .waiting, running := true, state := process } turns
        { stage := .waiting, running := true, state := last } trace ∧
      eventsOf fds trace = events ∧ actionsOf trace = actions ∧
      last.gateway = finish.1 ∧ last.Wired uds fds finish.2 := by
  -- on the events: each is reported in a batch of its own, of a descriptor that is still watched
  induction events generalizing process world actions with
  | nil =>
      cases hrun
      exact ⟨[], process, [], .nil _, rfl, rfl, rfl, h⟩
  | cons arrival events ih =>
      cases hrun with
      | @cons _ _ middle out _ _ outs henabled hstep hrest =>
          obtain ⟨event, reply, next, hevent, hfd, hreply, hdispatch, hgateway, hwired⟩ :=
            h.exists_dispatch henabled hstep fun fd harrival =>
              hnew fd (harrival ▸ List.mem_cons_self)
          have hmiddle : middle = (next.gateway, middle.2) := by rw [hgateway]
          rw [hmiddle] at hrest
          obtain ⟨turns, last, trace, hturns, hevents, hactions, hlast⟩ :=
            ih hwired hrest fun fd hmem => hnew fd (List.mem_cons_of_mem _ hmem)
          have hready : (dispatcher w dbc).Ready process [event] :=
            ⟨List.nodup_singleton _, fun other hother => by rwa [List.mem_singleton.mp hother]⟩
          have hone := @RunLoop.run_one _ _ _ _ (dispatcher w dbc) 32 _ _ _ _ _ hready (by decide)
            hreply hdispatch
          refine ⟨_, last, _, hone.append hturns, ?_, ?_, hlast⟩
          · rw [List.singleton_append, eventsOf, List.map_cons, List.filterMap_cons_some hevent,
              ← eventsOf, hevents]
          · rw [List.singleton_append, actionsOf, List.flatMap_cons, ← actionsOf, hactions]

/-- The runs of the process are the interleavings of the runs of its components. Every run of
the event loop, however epoll groups the ready descriptors, is a run of the gateway and a run of
the DoIP server on the events of their own descriptors, with the same actions in the same order
and the same states at the end. And every order of events of both is served by some run. -/
theorem runs_interleave (w : Nat) (dbc : DbcParser D) (gateway : Gateway) (uds : UdsHandler)
    (fds : Descriptors) :
    ∃ first, start gateway uds fds = some first ∧
      (∀ turns last, ∀ trace : Trace D, (eventLoop w dbc).Run { state := first } turns last trace →
        ∃ world,
          (Gateway.machine dbc).Run gateway (lefts (eventsOf fds trace))
            last.state.gateway (lefts (actionsOf trace)) ∧
          (DoIp.server w).Run (World.start uds fds.listenFd)
            (rights (eventsOf fds trace)) world (rights (actionsOf trace)) ∧
          last.state.server = world.server ∧
          last.state.openFds = fds.ofGateway ∪ world.openFds) ∧
      ∀ events gatewayLast gatewayActions world doipActions,
        (Gateway.machine dbc).Run gateway (lefts events) gatewayLast gatewayActions →
        (DoIp.server w).Run (World.start uds fds.listenFd) (rights events) world doipActions →
        (∀ fd, .inr (.accept fd) ∈ events → fd ∉ fds.ofGateway) →
        ∃ turns last, ∃ trace : Trace D,
          (eventLoop w dbc).Run { state := first } turns last trace ∧
          eventsOf fds trace = events ∧
          lefts (actionsOf trace) = gatewayActions ∧ rights (actionsOf trace) = doipActions ∧
          last.state.gateway = gatewayLast ∧ last.state.server = world.server := by
  obtain ⟨first, hstart, rfl, hwired⟩ := exists_start gateway uds fds
  refine ⟨first, hstart, ?_, ?_⟩
  · intro turns last trace hrun
    obtain ⟨world, hlast, hcomponents⟩ := hwired.run_eventLoop hrun
    obtain ⟨hgateway, hdoip⟩ := hcomponents.beside_split
    exact ⟨world, hgateway, hdoip, hlast.server_eq, hlast.openFds⟩
  · intro events gatewayLast gatewayActions world doipActions hgateway hdoip hnew
    obtain ⟨both, hboth, rfl, rfl⟩ := Run.exists_beside hgateway hdoip
    obtain ⟨turns, last, trace, hturns, hevents, rfl, hgatewayLast, hlast⟩ :=
      hwired.exists_turns hboth hnew
    exact ⟨_, _, trace, (RunLoop.run_start (dispatcher w dbc) 32 first).append hturns, hevents,
      rfl, rfl, hgatewayLast, hlast.server_eq⟩

/-- A client is accepted before the service discovery socket finds nothing to read. -/
theorem runs_interleave_accept :
    ∃ first turns last, ∃ trace : Trace Int,
      start { publisher := .create 0 0, sd := {} } {} ⟨3, 4, 5, 6, 7, by decide⟩ = some first ∧
      (@eventLoop Int intOps 64 {}).Run { state := first } turns last trace ∧
      eventsOf ⟨3, 4, 5, 6, 7, by decide⟩ trace = [.inr (.accept 8), .inl (.sd none)] ∧
      last.state.server.connections.lookup 8 = some (DoIpConnection.accepted 8) := by
  let := intOps
  have hclosed : (8 : Int) ∉ (World.start {} 7).openFds := by decide
  have haccept := (World.start_consistent {} 7).step_accept 64 (by decide) hclosed
  obtain ⟨first, hstart, -, hserved⟩ := runs_interleave 64 ({} : DbcParser Int)
    { publisher := .create 0 0, sd := {} } {} ⟨3, 4, 5, 6, 7, by decide⟩
  obtain ⟨turns, last, trace, hrun, hevents, -, -, -, hserver⟩ :=
    hserved [.inr (.accept 8), .inl (.sd none)] _ _ _ _ (.cons trivial rfl (.nil _))
      (.cons (.inr hclosed) haccept (.nil _)) (by simp [Descriptors.ofGateway])
  refine ⟨first, turns, last, trace, hstart, hrun, hevents, ?_⟩
  rw [hserver]
  exact Finmap.lookup_insert _

end Process

end AutomotiveGateway
