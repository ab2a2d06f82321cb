import AutomotiveGateway.Can.SignalDecoder
import AutomotiveGateway.Foundation.InOrder
import AutomotiveGateway.Someip.Message
import AutomotiveGateway.Someip.SdService

/-!
# The publisher

A session number is taken for each notification that is sent, and only then. The
routes of a configuration are looked up by signal name, the last one of a name wins.
-/

namespace AutomotiveGateway.Someip

open AutomotiveGateway.Can ByteOrder LastWrite Memory Numbering

/-- A route of the configuration file. -/
structure SignalRoute where
  signalName : StdString
  serviceId : UInt16
  methodId : UInt16
deriving DecidableEq, Repr

structure SomeIpPublisher where
  session : UInt16 := 1
  destAddr : SockaddrIn
  signalMap : Finmap fun _ : StdString => UInt16 × UInt16 := ∅

namespace SomeIpPublisher

/-- The constructor. The multicast address is given as `inet_addr` returns it. -/
def create (multicastAddr : UInt32) (port : UInt16) : SomeIpPublisher where
  destAddr := { sinFamily := 2, sinPort := htons port, sinAddr := multicastAddr }

def registerSignal (publisher : SomeIpPublisher) (signalName : StdString)
    (serviceId methodId : UInt16) : SomeIpPublisher :=
  { publisher with signalMap := publisher.signalMap.insert signalName (serviceId, methodId) }

/-- Send a message, if it fits the buffer on the stack: the datagram and its
destination. A failing `sendto` is only logged. -/
def sendMessage (publisher : SomeIpPublisher) (message : SomeIpMessage) :
    Option (List (List UInt8 × SockaddrIn)) := do
  let (buf, len) ← message.serializeInto (List.replicate someipMaxSize 0)
  return if len = 0 then [] else [(buf.take len, publisher.destAddr)]

variable {D : Type} [DoubleOps D]

/-- Publish a decoded signal, unless it has no mapping. -/
def publish (publisher : SomeIpPublisher) (signal : DecodedSignal D) :
    Option (SomeIpPublisher × List (List UInt8 × SockaddrIn)) :=
  match publisher.signalMap.lookup signal.name with
  | none => some (publisher, [])
  | some (serviceId, methodId) => do
      let message := SomeIpMessage.makeFloatNotification serviceId methodId publisher.session
        (DoubleOps.toFloatBits signal.value)
      let sent ← publisher.sendMessage message
      return ({ publisher with session := publisher.session + 1 }, sent)

/-- Publish signals in order. -/
def publishAll (publisher : SomeIpPublisher) :
    List (DecodedSignal D) → Option (SomeIpPublisher × List (List UInt8 × SockaddrIn))
  | [] => some (publisher, [])
  | signal :: signals => do
      let (next, sent) ← publisher.publish signal
      let (last, rest) ← next.publishAll signals
      return (last, sent ++ rest)

/-- Publish the `float` with these bits under given ids. -/
def publishFloat (publisher : SomeIpPublisher) (serviceId methodId : UInt16) (value : UInt32) :
    Option (SomeIpPublisher × List (List UInt8 × SockaddrIn)) := do
  let message := SomeIpMessage.makeFloatNotification serviceId methodId publisher.session value
  let sent ← publisher.sendMessage message
  return ({ publisher with session := publisher.session + 1 }, sent)

end SomeIpPublisher

/-! ## Routes -/

/-- The last route registered under a name. -/
def lastRoute (routes : List SignalRoute) (name : StdString) : Option (UInt16 × UInt16) :=
  (lastOf SignalRoute.signalName name routes).map fun route => (route.serviceId, route.methodId)

namespace SomeIpPublisher

/-- Register the routes of a configuration. -/
def registerRoutes (publisher : SomeIpPublisher) (routes : List SignalRoute) : SomeIpPublisher :=
  routes.foldl
    (fun publisher route =>
      publisher.registerSignal route.signalName route.serviceId route.methodId) publisher

/-- Registration writes the routes to the map and changes nothing else. -/
theorem registerRoutes_eq (publisher : SomeIpPublisher) (routes : List SignalRoute) :
    publisher.registerRoutes routes =
      { publisher with
        signalMap := writeAll SignalRoute.signalName
          (fun route => (route.serviceId, route.methodId)) publisher.signalMap routes } := by
  unfold registerRoutes writeAll
  induction routes generalizing publisher with
  | nil => rfl
  | cons route routes ih =>
      rw [List.foldl_cons, ih]
      rfl

/-! ## Sessions -/

theorem sendMessage_eq (publisher : SomeIpPublisher) {message : SomeIpMessage}
    (hfits : message.image.length ≤ someipMaxSize) :
    publisher.sendMessage message = some [(message.image, publisher.destAddr)] := by
  have hbuf : message.image.length ≤ (List.replicate someipMaxSize (0 : UInt8)).length := by
    rw [List.length_replicate]
    exact hfits
  have hlen : ¬ message.image.length = 0 := by
    rw [SomeIpMessage.length_image, someipHeaderSize]
    omega
  rw [sendMessage, SomeIpMessage.serializeInto_of_le hbuf, Option.bind_eq_bind, Option.bind_some]
  simp [hlen]

theorem sendMessage_floatNotification (publisher : SomeIpPublisher)
    (serviceId methodId sessionId : UInt16) (value : UInt32) :
    publisher.sendMessage (.makeFloatNotification serviceId methodId sessionId value) =
      some [(floatNotification serviceId methodId sessionId value, publisher.destAddr)] := by
  rw [sendMessage_eq, image_makeFloatNotification]
  rw [image_makeFloatNotification]
  exact Nat.le_of_ble_eq_true rfl

/-- What is announced of a signal: the ids of its route and the bits of its value. -/
abbrev Announcement := UInt16 × UInt16 × UInt32

/-- Send announcements with consecutive sessions. -/
def announce (publisher : SomeIpPublisher) (announcements : List Announcement) :
    SomeIpPublisher × List (List UInt8 × SockaddrIn) :=
  ({ publisher with session := publisher.session + UInt16.ofNat announcements.length },
    (numbered publisher.session announcements).map fun step =>
      (floatNotification step.1.1 step.1.2.1 step.2 step.1.2.2, publisher.destAddr))

@[simp] theorem announce_nil (publisher : SomeIpPublisher) :
    publisher.announce [] = (publisher, []) := by
  simp [announce, numbered]

theorem announce_append (publisher : SomeIpPublisher) (announcements more : List Announcement) :
    publisher.announce (announcements ++ more) =
      (((publisher.announce announcements).1.announce more).1,
        (publisher.announce announcements).2 ++
          ((publisher.announce announcements).1.announce more).2) := by
  simp only [announce, numbered_append, List.length_append, List.map_append, UInt16.ofNat_add,
    UInt16.add_assoc]

/-- The datagrams show what was announced. -/
theorem announce_injective {publisher : SomeIpPublisher} {announcements other : List Announcement}
    (hsent : (publisher.announce announcements).2 = (publisher.announce other).2) :
    announcements = other := by
  simp only [announce] at hsent
  generalize publisher.session = session at hsent
  induction announcements generalizing other session with
  | nil =>
      cases other with
      | nil => rfl
      | cons _ _ => cases hsent
  | cons announcement announcements ih =>
      cases other with
      | nil => cases hsent
      | cons announcement' other =>
          simp only [numbered, List.map_cons, List.cons.injEq, Prod.mk.injEq] at hsent
          obtain ⟨⟨hdatagram, -⟩, hrest⟩ := hsent
          obtain ⟨hservice, hmethod, hvalue⟩ := floatNotification_inj hdatagram
          rw [ih _ hrest, Prod.ext hservice (Prod.ext hmethod hvalue)]

variable {D : Type} [DoubleOps D]

/-- The announcement of a signal, if it has a route. -/
def announcement? (publisher : SomeIpPublisher) (signal : DecodedSignal D) :
    Option Announcement :=
  (publisher.signalMap.lookup signal.name).map fun ids =>
    (ids.1, ids.2, DoubleOps.toFloatBits signal.value)

/-- The routes do not change with the announcements. -/
theorem announcement?_announce (publisher : SomeIpPublisher) (announcements : List Announcement) :
    @announcement? D _ (publisher.announce announcements).1 = publisher.announcement? := rfl

/-- A signal without a route takes no session. -/
theorem publish_eq (publisher : SomeIpPublisher) (signal : DecodedSignal D) :
    publisher.publish signal =
      some (publisher.announce (publisher.announcement? signal).toList) := by
  unfold publish announcement?
  cases publisher.signalMap.lookup signal.name with
  | none => simp
  | some ids =>
      simp only [sendMessage_floatNotification, Option.bind_eq_bind, Option.bind_some]
      rfl

theorem publishFloat_eq (publisher : SomeIpPublisher) (serviceId methodId : UInt16)
    (value : UInt32) :
    publisher.publishFloat serviceId methodId value =
      some (publisher.announce [(serviceId, methodId, value)]) := by
  simp only [publishFloat, sendMessage_floatNotification, Option.bind_eq_bind, Option.bind_some]
  rfl

theorem publishAll_eq (publisher : SomeIpPublisher) (signals : List (DecodedSignal D)) :
    publisher.publishAll signals =
      some (publisher.announce (signals.filterMap publisher.announcement?)) := by
  induction signals generalizing publisher with
  | nil => simp [publishAll]
  | cons signal signals ih =>
      have hsplit : (signal :: signals).filterMap publisher.announcement? =
          (publisher.announcement? signal).toList ++ signals.filterMap publisher.announcement? := by
        rw [List.filterMap_cons]
        cases publisher.announcement? signal <;> rfl
      simp only [publishAll, publish_eq, Option.bind_eq_bind, Option.bind_some, ih,
        announcement?_announce]
      rw [hsplit, announce_append]
      rfl

end SomeIpPublisher

end AutomotiveGateway.Someip
