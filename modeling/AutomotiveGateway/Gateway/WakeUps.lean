import AutomotiveGateway.DoIp.Server
import AutomotiveGateway.Foundation.Insertion
import AutomotiveGateway.Gateway.Callback

/-!
# Wake-ups without data

The callback of a socket may be called when there is nothing to receive. The CAN socket and
the service discovery socket then return without a trace. The DoIP server takes the error
for the end of the stream and closes the connection.
-/

namespace AutomotiveGateway

open Machine

/-! ## The DoIP server -/

namespace DoIp

/-- `EAGAIN`, which is also `EWOULDBLOCK`. -/
def eagain : Nat := 11

/-- `on_client_data` when there is nothing to receive. -/
def World.wakeUp (w : Nat) (world : World) (clientFd : Int) : Option (World × List Action) :=
  world.onClientData w clientFd (.error eagain)

/-- The messages sent to a client, in order. -/
def sentTo (fd : Int) (actions : List Action) : List (List UInt8) :=
  sends (actions.filter fun action => action.fd = fd)

/-- At every point of a run of the server, the run with wake-ups placed in it has the same
connections and has sent the same bytes to every client. -/
def WakeUpsUnnoticed (w : Nat) (uds : UdsHandler) (listenFd : Int)
    (placed : List (Placed Event Int)) : Prop :=
  ∀ front, front <+: placed → ∀ world actions,
    (server w).Run (World.start uds listenFd) (ordinary front) world actions →
    ∃ woken wokenActions,
      ((server w).withFurther (World.wakeUp w)).Run (World.start uds listenFd) front woken
        wokenActions ∧
      woken.server.connections = world.server.connections ∧
      ∀ fd, sentTo fd wokenActions = sentTo fd actions

/-- Every wake-up is for a descriptor that has no connection when it comes. -/
def WakesNoConnection (w : Nat) (uds : UdsHandler) (listenFd : Int)
    (placed : List (Placed Event Int)) : Prop :=
  ∀ front fd back, placed = front ++ .further fd :: back → ∀ world actions,
    (server w).Run (World.start uds listenFd) (ordinary front) world actions →
    world.server.connections.lookup fd = none

variable {w : Nat} {uds : UdsHandler} {listenFd : Int} {placed : List (Placed Event Int)}

/-- A wake-up closes the connection of its descriptor. -/
theorem World.wakeUp_eq (w : Nat) (world : World) (fd : Int) :
    world.wakeUp w fd = some (match world.server.connections.lookup fd with
      | none => (world, [])
      | some _ =>
          ((world.close fd).setConnections (world.server.connections.erase fd), [])) := by
  unfold World.wakeUp World.onClientData
  cases world.server.connections.lookup fd with
  | none => rfl
  | some conn => rfl

theorem World.wakeUp_of_none {world : World} {fd : Int}
    (hnone : world.server.connections.lookup fd = none) :
    world.wakeUp w fd = some (world, []) := by
  rw [World.wakeUp_eq, hnone]

/-- A wake-up that leaves the connections as they are has found none of its own. -/
theorem World.lookup_eq_none_of_wakeUp {world next : World} {fd : Int} {actions : List Action}
    (hstep : world.wakeUp w fd = some (next, actions))
    (hsame : next.server.connections = world.server.connections) :
    world.server.connections.lookup fd = none := by
  rw [World.wakeUp_eq] at hstep
  cases hlookup : world.server.connections.lookup fd with
  | none => rfl
  | some conn =>
      simp only [hlookup, Option.some.injEq, Prod.mk.injEq] at hstep
      obtain ⟨rfl, -⟩ := hstep
      have herased : world.server.connections.lookup fd = none := by
        rw [← hsame]
        exact Finmap.lookup_erase _ _
      exact absurd herased (by simp [hlookup])

theorem WakesNoConnection.quiet (hnone : WakesNoConnection w uds listenFd placed) :
    Quiet (server w) (World.wakeUp w) (World.start uds listenFd) placed :=
  fun front fd back hplaced world actions hrun =>
    World.wakeUp_of_none (hnone front fd back hplaced world actions hrun)

theorem wakesNoConnection_of_unnoticed (hunnoticed : WakeUpsUnnoticed w uds listenFd placed) :
    WakesNoConnection w uds listenFd placed := by
  have hsame : SameView (server w) (World.wakeUp w) (fun world => world.server.connections)
      (World.start uds listenFd) placed := by
    intro front hfront world actions hrun
    obtain ⟨woken, wokenActions, hwoken, hconnections, -⟩ :=
      hunnoticed front hfront world actions hrun
    exact ⟨woken, wokenActions, hwoken, hconnections⟩
  have hquiet := hsame.quiet fun world fd next actions hstep hview =>
    World.wakeUp_of_none (World.lookup_eq_none_of_wakeUp hstep hview)
  intro front fd back hplaced world actions hrun
  exact World.lookup_eq_none_of_wakeUp (hquiet front fd back hplaced world actions hrun) rfl

theorem unnoticed_of_wakesNoConnection (hnone : WakesNoConnection w uds listenFd placed) :
    WakeUpsUnnoticed w uds listenFd placed :=
  fun _ hfront world actions hrun =>
    ⟨world, actions, hrun.withQuiet (hnone.quiet.of_prefix hfront), rfl, fun _ => rfl⟩

/-- For every run of the server and every placement of wake-ups, the wake-ups go unnoticed if
and only if each of them is for a descriptor that has no connection. -/
theorem wakeUpsUnnoticed_iff (w : Nat) (uds : UdsHandler) (listenFd : Int)
    (placed : List (Placed Event Int)) :
    WakeUpsUnnoticed w uds listenFd placed ↔ WakesNoConnection w uds listenFd placed :=
  ⟨wakesNoConnection_of_unnoticed, unnoticed_of_wakesNoConnection⟩

/-- A client that has just been accepted loses its connection. -/
theorem not_wakeUpsUnnoticed_accepted :
    ¬ WakeUpsUnnoticed 64 {} 3 [.input (.accept 5), .further 5] := by
  intro hunnoticed
  have hfree : (5 : Int) ∉ (World.start {} 3).openFds := by decide
  have haccept := (World.start_consistent {} 3).step_accept 64 (by decide) hfree
  have hrun : (server 64).Run (World.start {} 3) [.accept 5] _ _ :=
    .cons (.inr hfree) haccept (.nil _)
  have hnone := wakesNoConnection_of_unnoticed hunnoticed [.input (.accept 5)] 5 [] rfl _ _ hrun
  exact absurd hnone (by simp [World.withClient])

end DoIp

/-! ## The sockets of the gateway -/

/-- A readable socket of the gateway that has nothing to receive. -/
inductive GatewayWakeUp
  | can (frame : Can.CanFrame) (clock : Clock)
  | sd

namespace Gateway

open Can

variable {D : Type} [DoubleOps D]

def wakeUp (dbc : DbcParser D) (gateway : Gateway) :
    GatewayWakeUp → Option (Gateway × List (GatewayAction D))
  | .can frame clock => gateway.serve dbc (.can { n := -1, frame } clock)
  | .sd => gateway.serve dbc (.sd none)

theorem wakeUp_eq (dbc : DbcParser D) (gateway : Gateway) (wake : GatewayWakeUp) :
    gateway.wakeUp dbc wake = some (gateway, []) := by
  cases wake with
  | can frame clock => rfl
  | sd => rfl

/-- Wherever wake-ups are placed in a run of the gateway, it ends in the same state and does
the same. -/
theorem run_withWakeUps {dbc : DbcParser D} {gateway last : Gateway}
    {placed : List (Placed GatewayEvent GatewayWakeUp)} {actions : List (GatewayAction D)}
    (hrun : (machine dbc).Run gateway (ordinary placed) last actions) :
    ((machine dbc).withFurther (wakeUp dbc)).Run gateway placed last actions :=
  hrun.withQuiet fun _ wake _ _ state _ _ => wakeUp_eq dbc state wake

end Gateway

end AutomotiveGateway
