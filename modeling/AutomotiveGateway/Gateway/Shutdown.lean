import AutomotiveGateway.Gateway.Process

/-!
# The end of the process

The loop ends by the signal, if epoll fails, or if epoll refuses a new client: no other callback
throws. A signal that finds the loop running lets it finish what it was given, and then the
destructors close whatever descriptor the run has left open.
-/

namespace AutomotiveGateway

open Can DoIp Machine RunLoop Someip

variable {D : Type}

/-- The callback that belongs to a descriptor. -/
def callbackOf (fds : Descriptors) (fd : Int) : Callback :=
  if fd = fds.canFd then .canReadable
  else if fd = fds.sdFd then .sdReadable
  else if fd = fds.listenFd then .doip .acceptClient
  else .doip (.onClientData fd)

namespace Process

/-- `~DoIpServer` closes the connections and the listening socket, the other destructors the
descriptor of their object. -/
def destroy (process : Process) : Finset Int :=
  let clients := process.server.connections.keys.filter fun fd => 0 ≤ fd
  let objects := ({process.server.listenFd, process.fds.sdFd, process.fds.canFd,
    process.fds.epollFd, process.fds.publisherFd} : Finset Int).filter fun fd => 0 ≤ fd
  process.openFds \ (clients ∪ objects)

variable {uds : UdsHandler} {fds : Descriptors} {process : Process} {world : World}

/-- Every watched descriptor has its own callback. -/
theorem Wired.lookup_callback (h : process.Wired uds fds world) {fd : Int}
    (hfd : fd ∈ process.watched) :
    process.readers.lookup fd = some (callbackOf fds fd) := by
  unfold callbackOf
  split_ifs with hcan hsd hlisten
  · rw [hcan, h.can]
  · rw [hsd, h.sd]
  · rw [hlisten, h.listening]
  · have hopen := ((h.mem_watched.mp hfd).resolve_left hcan).resolve_left hsd
    rw [h.doip fd hopen, h.consistent.callback fd hopen hlisten]
    rfl

/-- The destructors close what belongs to the objects and to the clients. -/
theorem destroy_eq_empty (hlisten : process.server.listenFd = process.fds.listenFd)
    (hown : process.openFds ⊆ process.fds.all.toFinset ∪ process.server.connections.keys)
    (hpos : ∀ fd ∈ process.openFds, 0 ≤ fd) : process.destroy = ∅ := by
  rw [destroy, Finset.sdiff_eq_empty_iff_subset]
  intro fd hfd
  have hfd' := hpos fd hfd
  have hmem := hown hfd
  simp only [Descriptors.all, Finset.mem_union, List.mem_toFinset, List.mem_cons,
    List.not_mem_nil, or_false] at hmem
  simp only [Finset.mem_union, Finset.mem_filter, Finset.mem_insert, Finset.mem_singleton,
    hlisten]
  tauto

/-- A client whose connection is stored is closed with the others, watched or not. -/
theorem Wired.destroy_storeClient (h : process.Wired uds fds world)
    (hopen : ∀ fd ∈ process.openFds, 0 ≤ fd) {clientFd : Int} (hclient : 0 ≤ clientFd) :
    (process.storeClient clientFd).destroy = ∅ := by
  apply destroy_eq_empty
  · rw [storeClient, h.server_eq, h.consistent.listenFd_eq, h.fds_eq]
  · intro fd hfd
    simp only [storeClient, h.openFds_eq, h.fds_eq, Finset.mem_insert, Finset.mem_union,
      Finmap.mem_keys, Finmap.mem_insert] at hfd ⊢
    tauto
  · intro fd hfd
    rcases Finset.mem_insert.mp hfd with rfl | hfd
    · exact hclient
    · exact hopen fd hfd

/-- A server that listens on a descriptor never gets a negative one. -/
theorem nonneg_of_run {w : Nat} {events : List Event} {actions : List Action}
    {listenFd : Int} (hlisten : 0 ≤ listenFd)
    (hrun : (DoIp.server w).Run (World.start uds listenFd) events world actions) :
    ∀ fd ∈ world.openFds, 0 ≤ fd := by
  refine (hrun.invariant
    (fun world => world.Consistent uds listenFd ∧ ∀ fd ∈ world.openFds, 0 ≤ fd) ?_
    ⟨World.start_consistent uds listenFd, ?_⟩).2
  · rintro world event next out ⟨hconsistent, hopen⟩ henabled hstep
    refine ⟨hconsistent.step henabled hstep, ?_⟩
    rcases hconsistent.step_cases henabled hstep with ⟨_, -, -, rfl, -⟩ |
      ⟨fd, -, hpos, -, -, rfl⟩ | ⟨_, _, _, -, -, -, ⟨_, -, rfl⟩ | ⟨-, rfl⟩⟩
    · exact hopen
    · intro other hother
      rcases Finset.mem_insert.mp hother with rfl | hother
      · exact Int.not_lt.mp hpos
      · exact hopen other hother
    · exact hopen
    · exact fun other hother => hopen other (Finset.mem_of_mem_erase hother)
  · intro fd hfd
    rwa [Finset.mem_singleton.mp hfd]

variable [DoubleOps D] {w : Nat} {dbc : DbcParser D}

/-- Wherever the event loop gets, the tables are wired, and what is left of the batch at hand
is watched. -/
theorem Wired.run_serving {first : Process} {last : LoopState Process EpollEvent}
    {turns : List (Turn EpollEvent Reply)} {trace : Trace D}
    (h : first.Wired uds fds (World.start uds fds.listenFd))
    (hrun : (eventLoop w dbc).Run { state := first } turns last trace) :
    Serving uds fds last.state last.stage.rest :=
  (keeps_serving w dbc uds fds).run hrun h.serving

/-- A callback that is due fails exactly if epoll refuses its client. -/
theorem Serving.dispatch_isSome {event : EpollEvent} {rest : List EpollEvent} {reply : Reply}
    (hserving : Serving uds fds process (event :: rest)) (dbc : DbcParser D)
    (hreply : reply.accepted < 0 ∨ reply.accepted ∉ process.openFds) :
    (process.dispatch 64 dbc event reply).isSome ↔ ¬ Refuses fds event reply := by
  obtain ⟨⟨world, h⟩, -, hwatched⟩ := hserving
  exact h.dispatch_isSome dbc (hwatched event List.mem_cons_self) hreply fun conn _ =>
    DoIpConnection.onClientData_isSome uds conn reply.received

/-- A process that serves a batch takes every turn in which epoll refuses nobody. -/
theorem Serving.step_isSome {loop : LoopState Process EpollEvent} {turn : Turn EpollEvent Reply}
    (hserving : Serving uds fds loop.state loop.stage.rest)
    (henabled : (eventLoop 64 dbc).Enabled loop turn) :
    ((eventLoop 64 dbc).step loop turn).isSome ↔ ∀ event reply, turn = .dispatch reply →
      loop.stage.rest.head? = some event → ¬ Refuses fds event reply := by
  refine (RunLoop.step_isSome henabled).trans ?_
  constructor
  all_goals
    rintro hserve event reply rfl hnext
    obtain ⟨source, rest, hstage, hreply⟩ := henabled
    rw [hstage] at hserving hnext
    obtain rfl := Option.some.inj hnext
    have hserved := hserve source reply rfl (by rw [hstage]; rfl)
  · exact (hserving.dispatch_isSome dbc hreply).mp hserved
  · exact (hserving.dispatch_isSome dbc hreply).mpr hserved

/-- A process can accept a client. -/
theorem exists_client (w : Nat) (dbc : DbcParser D) (gateway : Gateway) (uds : UdsHandler)
    (fds : Descriptors) {fd : Int} (hpos : 0 ≤ fd) (hnew : fd ∉ fds.all) :
    ∃ first turns last, ∃ trace : Trace D, start gateway uds fds = some first ∧
      (eventLoop w dbc).Run { state := first } turns
        { stage := .waiting, running := true, state := last } trace ∧
      last.Wired uds fds ((World.start uds fds.listenFd).withClient fd) := by
  obtain ⟨first, hstart, -, hwired⟩ := exists_start gateway uds fds
  have hclosed : fd ∉ (World.start uds fds.listenFd).openFds := by
    rw [World.start, Finset.mem_singleton]
    rintro rfl
    exact hnew (by simp [Descriptors.all])
  have haccept : (DoIp.server w).step (World.start uds fds.listenFd) (.accept fd) =
      some ((World.start uds fds.listenFd).withClient fd, []) :=
    (World.start_consistent uds fds.listenFd).step_accept w (Int.not_lt.mpr hpos) hclosed
  have hboth : (components w dbc).Run (first.gateway, World.start uds fds.listenFd)
      [.inr (.accept fd)] (first.gateway, (World.start uds fds.listenFd).withClient fd) [] := by
    refine .cons ?_ (beside_step_inr first.gateway haccept) (.nil _)
    exact Or.inr hclosed
  obtain ⟨turns, last, trace, hturns, -, -, -, hlast⟩ := hwired.exists_turns hboth (by
    rintro other hother hown
    obtain rfl : other = fd := by simpa using hother
    exact hnew (Descriptors.all_of_ofGateway hown))
  exact ⟨first, _, last, trace, hstart,
    (RunLoop.run_start (dispatcher w dbc) 32 first).append hturns, hlast⟩

/-- With a 64-bit `size_t`, enough memory, and SIGPIPE ignored so that `send` returns, a callback
throws only if epoll refuses a client that was just accepted. Every other turn of the loop is
taken, whatever the system reports and returns. And none is stale: each descriptor of a batch is
open when its turn comes, and has its own callback. -/
theorem exists_turn (dbc : DbcParser D) (gateway : Gateway) (uds : UdsHandler)
    (fds : Descriptors) :
    ∃ first, start gateway uds fds = some first ∧
      ∀ turns last, ∀ trace : Trace D,
        (eventLoop 64 dbc).Run { state := first } turns last trace →
        (∀ turn, (eventLoop 64 dbc).Enabled last turn →
          (((eventLoop 64 dbc).step last turn).isSome ↔
            ∀ event reply, turn = .dispatch reply → last.stage.rest.head? = some event →
              ¬ Refuses fds event reply)) ∧
        ∀ event ∈ last.stage.rest, event.fd ∈ last.state.openFds ∧
          last.state.readers.lookup event.fd = some (callbackOf fds event.fd) := by
  obtain ⟨first, hstart, -, hwired⟩ := exists_start gateway uds fds
  refine ⟨first, hstart, fun turns last trace hrun => ?_⟩
  have hserving := hwired.run_serving hrun
  refine ⟨fun turn henabled => hserving.step_isSome henabled, fun event hevent => ?_⟩
  obtain ⟨⟨world, h⟩, -, hwatched⟩ := hserving
  have hfd := hwatched event hevent
  exact ⟨h.watched_subset hfd, h.lookup_callback hfd⟩

/-- A client closes its connection in the same batch in which the service discovery socket is
ready. -/
theorem exists_turn_closingClient :
    ∃ first turns last, ∃ trace : Trace Int,
      start { publisher := .create 0 0, sd := {} } {} ⟨3, 4, 5, 6, 7, by decide⟩ = some first ∧
      (@eventLoop Int intOps 64 {}).Run { state := first } turns last trace ∧
      last.stage = .dispatching [{ fd := 6, events := epollIn }] ∧ 8 ∉ last.state.openFds ∧
      ((@eventLoop Int intOps 64 {}).step last (.dispatch nothing)).isSome ∧
      6 ∈ last.state.openFds ∧ last.state.readers.lookup 6 = some .sdReadable := by
  let := intOps
  let fds : Descriptors := ⟨3, 4, 5, 6, 7, by decide⟩
  let sdReady : EpollEvent := { fd := 6, events := epollIn }
  let closed : Reply := { nothing with received := .data [] }
  obtain ⟨first, turns, process, trace, hstart, hrun, hwired⟩ := exists_client 64
    ({} : DbcParser Int) { publisher := .create 0 0, sd := {} } {} fds (by decide : (0 : Int) ≤ 8)
    (by decide)
  have hopen : (8 : Int) ∈ ((World.start {} 7).withClient 8).openFds := by decide
  have hready : (dispatcher 64 ({} : DbcParser Int)).Ready process
      [{ fd := 8, events := epollIn }, sdReady] := by
    refine ⟨by decide, fun event hevent => ?_⟩
    rw [hwired.mem_watched]
    rcases List.mem_cons.mp hevent with rfl | hevent
    · exact .inr (.inr hopen)
    · obtain rfl := List.mem_singleton.mp hevent
      exact .inr (.inl rfl)
  have hlookup : process.server.connections.lookup 8 = some (DoIpConnection.accepted 8) := by
    rw [hwired.server_eq]
    exact Finmap.lookup_insert _
  -- `recv` returns 0
  have hserved : (dispatcher 64 ({} : DbcParser Int)).dispatch process
      { fd := 8, events := epollIn } closed = some ({ process with
          server := { process.server with connections := process.server.connections.erase 8 }
          watched := process.watched.erase 8
          openFds := process.openFds.erase 8 }, []) := by
    have hcallback : process.readers.lookup 8 = some (.doip (.onClientData 8)) :=
      hwired.lookup_callback (hwired.mem_watched.mpr (.inr (.inr hopen)))
    have hin : epollIn &&& epollIn ≠ 0 := by decide
    have hclosed : (DoIpConnection.accepted 8).onClientData 64 process.server.uds (.data []) =
        some (none, []) := rfl
    simp only [dispatcher, dispatch, if_pos hin, hcallback, call, closed, Process.onClientData,
      hlookup, hclosed, Option.map_some, List.map_nil]
  have haccepted : closed.accepted < 0 ∨ closed.accepted ∉ process.openFds := .inl (by decide)
  have hbatch := hrun.append ((run_ready hready (by decide) true).append
    (run_dispatch haccepted hserved 32 true [sdReady]))
  obtain ⟨_, hfirst, hturn⟩ := exists_turn ({} : DbcParser Int)
    { publisher := .create 0 0, sd := {} } {} fds
  obtain rfl := Option.some.inj (hstart.symm.trans hfirst)
  obtain ⟨hstep, hown⟩ := hturn _ _ _ hbatch
  obtain ⟨hsd, hcallback⟩ := hown sdReady List.mem_cons_self
  refine ⟨first, _, _, _, hstart, hbatch, rfl, Finset.notMem_erase _ _, ?_, hsd, hcallback⟩
  refine (hstep (.dispatch nothing) ?_).mpr fun event reply hreply hnext => ?_
  · exact ⟨sdReady, [], rfl, .inl (by decide)⟩
  obtain rfl := Option.some.inj hnext
  exact fun hrefuses => absurd hrefuses.2.1 (by decide)

/-- SIGINT at any moment of any run, with a 64-bit `size_t` and SIGPIPE ignored. One that comes
before `run` has set its flag is lost. Any other lets the loop serve at most the rest of the batch
at hand, or one more batch of 32 if it came between the look at the flag and the wait. And unless
it came just there, the loop returns without waiting again, if epoll does not refuse a client
before: it is never stuck and takes no more steps than it had left. -/
theorem stops (dbc : DbcParser D) (gateway : Gateway) (uds : UdsHandler) (fds : Descriptors) :
    ∃ first, start gateway uds fds = some first ∧
      ∀ before middle, ∀ earlier : Trace D, ∀ after last, ∀ trace : Trace D,
        (eventLoop 64 dbc).Run { state := first } before middle earlier →
        (eventLoop 64 dbc).Run middle (.stop :: after) last trace →
        (middle.stage = .starting →
          (eventLoop 64 dbc).step middle .stop = some (middle, [])) ∧
        (middle.stage ≠ .starting →
          trace.length ≤ middle.stage.interrupted.callbacksLeft 32) ∧
        (middle.stage ≠ .starting → middle.stage ≠ .entering →
          after.countP Turn.own + last.stage.stepsLeft = middle.stage.interrupted.stepsLeft ∧
          (last.stage = .returned ∨ ∃ turn, turn.own = true ∧
            (eventLoop 64 dbc).Enabled last turn ∧
            ((eventLoop 64 dbc).step last turn).isSome)) := by
  obtain ⟨first, hstart, -, hwired⟩ := exists_start gateway uds fds
  refine ⟨first, hstart, fun before middle earlier after last trace hbefore hafter => ?_⟩
  have hstopped : (eventLoop 64 dbc).step middle .stop =
      some ({ middle with stage := middle.stage.interrupted, running := false }, []) := rfl
  obtain ⟨rest, hrest, rfl⟩ := hafter.tail hstopped
  have henabled : middle.stage ≠ .returned ∧ middle.stage ≠ .threw := by
    cases hafter with
    | cons henabled _ _ => exact henabled
  have hstarted : middle.stage ≠ .starting → middle.stage.started = true := by
    intro hne
    cases hstage : middle.stage with
    | starting => exact absurd hstage hne
    | _ => rfl
  refine ⟨fun hstarting => ?_, fun hne => ?_, fun hne hentering => ?_⟩
  · exact stop_of_starting (dispatcher 64 dbc) hstarting
      (running_of_starting hbefore rfl (by rw [hstarting]; rfl))
  -- the flag stays cleared, so only the callbacks that were left are served
  · have hused := (Stopped.run hrest (stopped_stop (hstarted hne))).2
    exact Nat.le_trans (Nat.le_add_left _ _) hused
  · have hleaving : middle.stage.interrupted.leaving = true := by
      cases hstage : middle.stage with
      | starting => exact absurd hstage hne
      | entering => exact absurd hstage hentering
      | threw => exact absurd hstage henabled.2
      | _ => rfl
    obtain ⟨hlast, hsteps⟩ := Leaving.run hrest (leaving_stop hleaving)
    refine ⟨(Nat.add_comm _ _).trans hsteps, ?_⟩
    have hserving := hwired.run_serving (hbefore.append hafter)
    -- a callback that is due can be given that there is nothing to read
    refine hlast.returned_or_due (dispatcher 64 dbc) 32 fun source rest hstage => ?_
    rw [hstage] at hserving
    have hnothing : nothing.accepted < 0 ∨ nothing.accepted ∉ last.state.openFds :=
      .inl (by decide)
    refine ⟨nothing, hnothing, (hserving.dispatch_isSome dbc hnothing).mpr fun hrefuses => ?_⟩
    exact absurd hrefuses.2.2.1 (by decide)

/-- A process that waits serves nothing more. -/
theorem stops_waiting :
    ∃ first, start { publisher := .create 0 0, sd := {} } {} ⟨3, 4, 5, 6, 7, by decide⟩ =
        some first ∧
      ∀ after last trace, (@eventLoop Int intOps 64 {}).Run
        { stage := .waiting, running := true, state := first } (.stop :: after) last trace →
        trace = [] := by
  let := intOps
  obtain ⟨first, hstart, hstops⟩ := stops ({} : DbcParser Int)
    { publisher := .create 0 0, sd := {} } {} ⟨3, 4, 5, 6, 7, by decide⟩
  refine ⟨first, hstart, fun after last trace hrun => ?_⟩
  have hbound := (hstops _ _ _ _ _ _ (RunLoop.run_start (dispatcher 64 {}) 32 first) hrun).2.1
    (by simp)
  exact List.eq_nil_of_length_eq_zero (Nat.le_zero.mp hbound)

/-- In every run the open descriptors are those of the five objects and of the clients in the
connection table, and the destructors leave none of them open, wherever the run is when `main`
leaves the loop. That holds also where epoll refuses a client: its connection is in the table
already when `add_reader` throws. -/
theorem destroy_closes (w : Nat) (dbc : DbcParser D) (gateway : Gateway) (uds : UdsHandler)
    (fds : Descriptors) (hvalid : ∀ fd ∈ fds.all, 0 ≤ fd) :
    ∃ first, start gateway uds fds = some first ∧
      ∀ turns last, ∀ trace : Trace D,
        (eventLoop w dbc).Run { state := first } turns last trace →
        last.state.openFds = fds.all.toFinset ∪ last.state.server.connections.keys ∧
        last.state.destroy = ∅ ∧
        ∀ event reply, (eventLoop w dbc).Enabled last (.dispatch reply) →
          last.stage.rest.head? = some event → Refuses fds event reply →
          (eventLoop w dbc).step last (.dispatch reply) = none ∧
            (last.state.storeClient reply.accepted).destroy = ∅ := by
  obtain ⟨first, hstart, -, hwired⟩ := exists_start gateway uds fds
  refine ⟨first, hstart, fun turns last trace hrun => ?_⟩
  obtain ⟨world, hlast, hcomponents⟩ := hwired.run_eventLoop hrun
  have hopen : ∀ fd ∈ last.state.openFds, 0 ≤ fd := by
    have hlistening : 0 ≤ fds.listenFd := hvalid fds.listenFd (by simp [Descriptors.all])
    have hclients := nonneg_of_run hlistening hcomponents.beside_split.2
    intro fd hfd
    rw [hlast.openFds, Finset.mem_union] at hfd
    exact hfd.elim (fun hown => hvalid fd (Descriptors.all_of_ofGateway hown)) (hclients fd)
  refine ⟨hlast.openFds_eq, ?_, fun event reply henabled hnext hrefuses => ⟨?_, ?_⟩⟩
  · apply destroy_eq_empty _ _ hopen
    · rw [hlast.server_eq, hlast.consistent.listenFd_eq, hlast.fds_eq]
    · rw [hlast.openFds_eq, hlast.fds_eq]
  · obtain ⟨source, rest, hstage, -⟩ := henabled
    rw [hstage] at hnext
    obtain rfl := Option.some.inj hnext
    have hthrows : (dispatcher w dbc).dispatch last.state source reply = none :=
      hlast.dispatch_refuses w dbc hrefuses
    simp only [eventLoop, RunLoop.machine, RunLoop.step, hstage, hthrows, Option.map_none]
  · exact hlast.destroy_storeClient hopen hrefuses.2.2.1

/-- Epoll refuses the second client of a process. -/
theorem destroy_closes_refused :
    ∃ first turns last, ∃ trace : Trace Int,
      start { publisher := .create 0 0, sd := {} } {} ⟨3, 4, 5, 6, 7, by decide⟩ = some first ∧
      (@eventLoop Int intOps 64 {}).Run { state := first } turns last trace ∧
      last.state.openFds = {3, 4, 5, 6, 7, 8} ∧ last.state.destroy = ∅ ∧
      (@eventLoop Int intOps 64 {}).step last
        (.dispatch { nothing with accepted := 9, registered := false }) = none ∧
      (last.state.storeClient 9).destroy = ∅ := by
  let := intOps
  let fds : Descriptors := ⟨3, 4, 5, 6, 7, by decide⟩
  let listening : EpollEvent := { fd := 7, events := epollIn }
  obtain ⟨first, turns, process, trace, hstart, hrun, hwired⟩ := exists_client 64
    ({} : DbcParser Int) { publisher := .create 0 0, sd := {} } {} fds (by decide : (0 : Int) ≤ 8)
    (by decide)
  obtain ⟨_, hfirst, hcloses⟩ := destroy_closes 64 ({} : DbcParser Int)
    { publisher := .create 0 0, sd := {} } {} fds (by decide)
  obtain rfl := Option.some.inj (hstart.symm.trans hfirst)
  have hready : (dispatcher 64 ({} : DbcParser Int)).Ready process [listening] := by
    refine ⟨List.nodup_singleton _, fun event hevent => ?_⟩
    obtain rfl := List.mem_singleton.mp hevent
    exact hwired.mem_watched.mpr (.inr (.inr hwired.consistent.listening_open))
  have hbatch := hrun.append (run_ready hready (by decide) true)
  have hopen : process.openFds = {3, 4, 5, 6, 7, 8} := by
    rw [hwired.openFds]
    decide
  obtain ⟨-, hdestroyed, hthrows⟩ := hcloses _ _ _ hbatch
  have hdue : (@eventLoop Int intOps 64 {}).Enabled
      { stage := .dispatching [listening], running := true, state := process }
      (.dispatch { nothing with accepted := 9, registered := false }) := by
    refine ⟨listening, [], rfl, .inr ?_⟩
    rw [hopen]
    decide
  obtain ⟨hnone, hstored⟩ := hthrows listening _ hdue rfl ⟨by decide, rfl, by decide, rfl⟩
  exact ⟨first, _, _, _, hstart, hbatch, hopen, hdestroyed, hnone, hstored⟩

end Process

end AutomotiveGateway
