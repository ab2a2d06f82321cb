import AutomotiveGateway.Foundation.Machine
import AutomotiveGateway.Someip.Publisher

/-!
# The gateway's CAN callback

The gateway's state between two events of its loop, and what serving an event does
to it. Clock readings are part of the events.
-/

namespace AutomotiveGateway

open ByteOrder Can Someip

structure Watchdog where
  timeoutUs : UInt64 := 2000000
  lastFeedNs : UInt64 := 0
  fired : Bool := false
deriving DecidableEq, Repr

namespace Watchdog

def feed (watchdog : Watchdog) (nowNs : UInt64) : Watchdog :=
  { watchdog with lastFeedNs := nowNs, fired := false }

/-- The second component says whether the timeout was reported. -/
def check (watchdog : Watchdog) (nowNs : UInt64) : Watchdog × Bool :=
  if watchdog.lastFeedNs = 0 then (watchdog, false)
  else
    let elapsed := (nowNs - watchdog.lastFeedNs) / 1000
    if elapsed > watchdog.timeoutUs ∧ ¬ watchdog.fired then ({ watchdog with fired := true }, true)
    else (watchdog, false)

end Watchdog

/-- The results of `now_ns` during one callback, in the order of the calls. -/
structure Clock where
  feed : UInt64 := 0
  t0 : UInt64 := 0
  t1 : UInt64 := 0
  t2 : UInt64 := 0
  t3 : UInt64 := 0
  check : UInt64 := 0
deriving DecidableEq, Repr

/-- The state of the gateway that the callback works on. -/
structure Gateway where
  publisher : SomeIpPublisher
  sd : SomeIpSdService
  watchdog : Watchdog := {}
  frameCount : UInt64 := 0
  lastOfferFrame : UInt64 := 0

/-- What serving an event does towards the outside. `decode` marks the call of the
decoder. -/
inductive GatewayAction (D : Type)
  | decode (frame : CanFrame) (msg : MessageDef D)
  | notify (datagram : List UInt8) (dest : SockaddrIn)
  | sd (action : SdAction)
  | record (event : StdString) (latencyUs : UInt64)
  | alert
  | printTable (frameCount : UInt64)

/-- `CAN_EFF_MASK` -/
def canEffMask : UInt32 := 0x1FFFFFFF

/-- The result of `read` on the CAN socket. -/
structure CanRead where
  n : Int
  frame : CanFrame

/-- The frame handed to the callback: an error or a short read yields none. -/
def CanRead.frame? (read : CanRead) : Option CanFrame :=
  if read.n < 0 then none
  else if read.n < 16 then none
  else some read.frame

namespace Gateway

variable {D : Type}

/-- The end of the callback, after the signals were published. -/
def afterPublish (gateway : Gateway) (clock : Clock) :
    Option (Gateway × List (GatewayAction D)) := do
  let frameCount := gateway.frameCount + 1
  let (watchdog, alerted) :=
    if frameCount % 50 = 0 then gateway.watchdog.check clock.check else (gateway.watchdog, false)
  let offering := frameCount - gateway.lastOfferFrame ≥ 100
  let (sd, offers) ← if offering then gateway.sd.sendOffers else some (gateway.sd, [])
  let next : Gateway :=
    { gateway with
      sd
      watchdog
      frameCount
      lastOfferFrame := if offering then frameCount else gateway.lastOfferFrame }
  return (next, (if alerted then [.alert] else []) ++ offers.map .sd ++
    if frameCount % 10 = 0 then [.printTable frameCount] else [])

variable [DoubleOps D]

/-- The CAN callback. -/
def onCanFrame (dbc : DbcParser D) (gateway : Gateway) (clock : Clock) (frame : CanFrame) :
    Option (Gateway × List (GatewayAction D)) :=
  let fed := { gateway with watchdog := gateway.watchdog.feed clock.feed }
  match dbc.findMessage (frame.canId &&& canEffMask) with
  | none => some (fed, [])
  | some msg => do
      let (publisher, sent) ← fed.publisher.publishAll (decode frame msg)
      let (next, actions) ← { fed with publisher }.afterPublish clock
      return (next,
        [.record "dbc_lookup".toList ((clock.t1 - clock.t0) / 1000),
          .decode frame msg,
          .record "signal_decode".toList ((clock.t2 - clock.t1) / 1000)] ++
        sent.map (fun sent => .notify sent.1 sent.2) ++
        [.record "someip_publish".toList ((clock.t3 - clock.t2) / 1000),
          .record "end_to_end".toList ((clock.t3 - clock.t0) / 1000)] ++
        actions)

end Gateway

/-- An event of the loop: the CAN socket or the service discovery socket is readable. -/
inductive GatewayEvent
  | can (read : CanRead) (clock : Clock)
  | sd (received : Option (List UInt8 × SockaddrIn))

namespace Gateway

variable {D : Type} [DoubleOps D]

def serve (dbc : DbcParser D) (gateway : Gateway) :
    GatewayEvent → Option (Gateway × List (GatewayAction D))
  | .can read clock =>
      match read.frame? with
      | none => some (gateway, [])
      | some frame => onCanFrame dbc gateway clock frame
  | .sd received => do
      let (sd, actions) ← gateway.sd.onReadable received
      return ({ gateway with sd }, actions.map .sd)

/-- The gateway with a parsed DBC file, as a machine. -/
def machine (dbc : DbcParser D) : Machine Gateway GatewayEvent (GatewayAction D) where
  Enabled _ _ := True
  step := serve dbc

/-- The start of `main`: register the routes, offer the three services and announce
them. `localIp` is what `inet_addr` returns for the local address. -/
def start (routes : List SignalRoute) (localIp : UInt32) :
    Option (Gateway × List (GatewayAction D)) := do
  let publisher := (SomeIpPublisher.create (ofLittle32 239 0 0 1) 30490).registerRoutes routes
  let sd := (((({} : SomeIpSdService).offerService 0x0101 localIp 30501).offerService
    0x0102 localIp 30501).offerService 0x0103 localIp 30501)
  let (sd, actions) ← sd.sendOffers
  return ({ publisher, sd := { sd with onSubscribe := true } }, actions.map .sd)

end Gateway

end AutomotiveGateway
