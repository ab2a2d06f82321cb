import AutomotiveGateway.Someip.Message

/-!
# The notification receivers

Both subscriber tools decode the payload of a float notification. One copies the
bytes and converts them once. The other assembles the word by shifts, which already
yields the host's value, and converts that.
-/

namespace AutomotiveGateway.Someip

open ByteOrder Memory

/-- The payload as `print_someip` shows it. A `float` is given by its bits. -/
inductive PrintedPayload
  | float (bits : UInt32)
  | bytes (count : Nat)
deriving DecidableEq, Repr

/-- What `print_someip` prints of a packet. -/
structure PrintedMessage where
  serviceId : UInt16
  methodId : UInt16
  length : UInt32
  clientId : UInt16
  sessionId : UInt16
  protoVer : UInt8
  ifaceVer : UInt8
  msgType : UInt8
  retCode : UInt8
  payload : PrintedPayload
deriving DecidableEq, Repr

/-- `print_someip` of the subscriber tool; a packet that is too short is only reported. -/
def printSomeip (buf : List UInt8) (len : Nat) : Option PrintedMessage :=
  if len < someipHeaderSize then none
  else
    let payloadLen := len - someipHeaderSize
    some
      { serviceId := bigAt16 buf 0
        methodId := bigAt16 buf 2
        length := bigAt32 buf 4
        clientId := bigAt16 buf 8
        sessionId := bigAt16 buf 10
        protoVer := byteAt buf 12
        ifaceVer := byteAt buf 13
        msgType := byteAt buf 14
        retCode := byteAt buf 15
        payload :=
          if payloadLen = 4 then
            let raw := bigAt32 buf 16
            let hostRaw := ntohl raw
            .float hostRaw
          else .bytes payloadLen }

/-- The name the service discovery subscriber shows for a service and method. -/
def signalName (svcId metId : UInt16) : String :=
  if svcId = 0x0101 ∧ metId = 0x8001 then "EngineRPM"
  else if svcId = 0x0101 ∧ metId = 0x8002 then "EngineTemp"
  else if svcId = 0x0101 ∧ metId = 0x8003 then "ThrottlePos"
  else if svcId = 0x0102 ∧ metId = 0x8001 then "VehicleSpeed"
  else if svcId = 0x0102 ∧ metId = 0x8002 then "WheelSpeed_FL"
  else if svcId = 0x0102 ∧ metId = 0x8003 then "WheelSpeed_FR"
  else if svcId = 0x0103 ∧ metId = 0x8001 then "BrakePressure"
  else if svcId = 0x0103 ∧ metId = 0x8002 then "BrakeActive"
  else "Unknown"

/-- What the receive loop of the service discovery subscriber decodes and shows. -/
structure ReceivedSignal where
  svcId : UInt16
  metId : UInt16
  sesId : UInt16
  name : String
  value : UInt32
deriving DecidableEq, Repr

/-- One iteration of the receive loop, with the `n` returned by `recvfrom`. Datagrams
that are too short, of service discovery or no notification are skipped. -/
def receiveSignal (buf : List UInt8) (n : Int) : Option ReceivedSignal :=
  if n < 16 then none
  else
    let svcId := bigAt16 buf 0
    let metId := bigAt16 buf 2
    let sesId := bigAt16 buf 10
    let msgType := byteAt buf 14
    if svcId = 0xFFFF then none
    else if msgType ≠ 0x02 then none
    else if n < 20 then none
    else
      let raw := ofLittle32 (byteAt buf 16) (byteAt buf 17) (byteAt buf 18) (byteAt buf 19)
      some { svcId, metId, sesId, name := signalName svcId metId, value := ntohl raw }

/-- The gateway's encoding of a `float` is undone by both receivers: they see the ids
and the bits that were encoded, whatever an earlier packet left behind in their buffer. -/
def ReceiversUndo (serviceId methodId sessionId : UInt16) (value : UInt32) : Prop :=
  ∃ datagram : List UInt8, datagram.length = 20 ∧
    (∀ buf : List UInt8, 20 ≤ buf.length →
      (SomeIpMessage.makeFloatNotification serviceId methodId sessionId value).serializeInto buf =
        some (datagram ++ buf.drop 20, 20)) ∧
    ∀ rest,
      (∃ printed, printSomeip (datagram ++ rest) 20 = some printed ∧
        printed.serviceId = serviceId ∧ printed.methodId = methodId ∧
        printed.sessionId = sessionId ∧ printed.payload = .float value) ∧
      (∃ received, receiveSignal (datagram ++ rest) 20 = some received ∧
        received.svcId = serviceId ∧ received.metId = methodId ∧
        received.sesId = sessionId ∧ received.value = value)

/-! ## Decoding an encoded float -/

theorem serializeInto_floatNotification (serviceId methodId sessionId : UInt16) (value : UInt32)
    {buf : List UInt8} (hlen : 20 ≤ buf.length) :
    (SomeIpMessage.makeFloatNotification serviceId methodId sessionId value).serializeInto buf =
      some (floatNotification serviceId methodId sessionId value ++ buf.drop 20, 20) := by
  have himage := image_makeFloatNotification serviceId methodId sessionId value
  have hlength : (floatNotification serviceId methodId sessionId value).length = 20 := rfl
  have hserialize := @SomeIpMessage.serializeInto_of_le
    (.makeFloatNotification serviceId methodId sessionId value) buf (by rwa [himage, hlength])
  rwa [himage, hlength] at hserialize

/-- The words of the datagram are at the offsets where the receivers look. -/
theorem words_floatNotification (serviceId methodId sessionId : UInt16) (value : UInt32)
    (rest : List UInt8) :
    bigAt16 (floatNotification serviceId methodId sessionId value ++ rest) 0 = serviceId ∧
    bigAt16 (floatNotification serviceId methodId sessionId value ++ rest) 2 = methodId ∧
    bigAt16 (floatNotification serviceId methodId sessionId value ++ rest) 10 = sessionId ∧
    byteAt (floatNotification serviceId methodId sessionId value ++ rest) 14 = 0x02 ∧
    bigAt32 (floatNotification serviceId methodId sessionId value ++ rest) 16 = value :=
  ⟨ofBig16_bigBytes16 serviceId, ofBig16_bigBytes16 methodId, ofBig16_bigBytes16 sessionId, rfl,
    ofBig32_bigBytes32 value⟩

/-- The printed bits are converted once too often. -/
theorem exists_printSomeip (serviceId methodId sessionId : UInt16) (value : UInt32)
    (rest : List UInt8) :
    ∃ printed,
      printSomeip (floatNotification serviceId methodId sessionId value ++ rest) 20 =
        some printed ∧
      printed.serviceId = serviceId ∧ printed.methodId = methodId ∧
      printed.sessionId = sessionId ∧ printed.payload = .float (swap32 value) := by
  obtain ⟨hservice, hmethod, hsession, _, hvalue⟩ :=
    words_floatNotification serviceId methodId sessionId value rest
  refine ⟨_, by rw [printSomeip, if_neg (by decide)], hservice, hmethod, hsession, ?_⟩
  dsimp only
  rw [if_pos (by rfl), hvalue]

theorem receiveSignal_floatNotification (serviceId methodId sessionId : UInt16) (value : UInt32)
    (rest : List UInt8) :
    receiveSignal (floatNotification serviceId methodId sessionId value ++ rest) 20 =
      if serviceId = 0xFFFF then none
      else some ⟨serviceId, methodId, sessionId, signalName serviceId methodId, value⟩ := by
  obtain ⟨hservice, hmethod, hsession, htype, hvalue⟩ :=
    words_floatNotification serviceId methodId sessionId value rest
  rw [receiveSignal, if_neg (by decide)]
  simp only [hservice, hmethod, hsession, htype]
  by_cases hsd : serviceId = 0xFFFF
  · rw [if_pos hsd, if_pos hsd]
  · rw [if_neg hsd, if_neg hsd, if_neg (by simp), if_neg (by decide)]
    apply congrArg fun bits => some
      (ReceivedSignal.mk serviceId methodId sessionId (signalName serviceId methodId) bits)
    exact (swap32_ofLittle32 _ _ _ _).trans hvalue

theorem of_receiversUndo {serviceId methodId sessionId : UInt16} {value : UInt32}
    (hundo : ReceiversUndo serviceId methodId sessionId value) :
    swap32 value = value ∧ serviceId ≠ 0xFFFF := by
  obtain ⟨datagram, _, hencode, hdecode⟩ := hundo
  have hbuf : 20 ≤ (List.replicate 20 (0 : UInt8)).length := Nat.le_of_eq rfl
  have hserialize := serializeInto_floatNotification serviceId methodId sessionId value hbuf
  rw [hencode _ hbuf, Option.some.injEq, Prod.mk.injEq] at hserialize
  obtain rfl := List.append_cancel_right hserialize.1
  obtain ⟨⟨printed, hprint, _, _, _, hpayload⟩, received, hreceive, _⟩ := hdecode []
  obtain ⟨printed', hprint', _, _, _, hpayload'⟩ :=
    exists_printSomeip serviceId methodId sessionId value []
  constructor
  · obtain rfl := Option.some.inj (hprint.symm.trans hprint')
    exact PrintedPayload.float.inj (hpayload'.symm.trans hpayload)
  · intro hsd
    rw [receiveSignal_floatNotification, if_pos hsd] at hreceive
    exact absurd hreceive (by simp)

/-- Both receivers undo the encoding exactly when the bytes of the value are a
palindrome and the service is not the one of service discovery. -/
theorem receiversUndo_iff (serviceId methodId sessionId : UInt16) (value : UInt32) :
    ReceiversUndo serviceId methodId sessionId value ↔
      (bigBytes32 value).reverse = bigBytes32 value ∧ serviceId ≠ 0xFFFF := by
  rw [← swap32_eq_self_iff]
  refine ⟨of_receiversUndo, ?_⟩
  rintro ⟨hself, hsd⟩
  refine ⟨floatNotification serviceId methodId sessionId value, rfl,
    fun buf hlen => serializeInto_floatNotification serviceId methodId sessionId value hlen,
    fun rest => ⟨?_, ?_⟩⟩
  · obtain ⟨printed, hprint, hids⟩ := exists_printSomeip serviceId methodId sessionId value rest
    rw [hself] at hids
    exact ⟨printed, hprint, hids⟩
  · rw [receiveSignal_floatNotification, if_neg hsd]
    exact ⟨_, rfl, rfl, rfl, rfl, rfl⟩

/-- The tool prints 1.0, the bits 0x3F800000, as the bits 0x0000803F. -/
theorem not_receiversUndo_one : ¬ ReceiversUndo 0x0101 0x8001 1 0x3F800000 :=
  fun hundo => absurd (of_receiversUndo hundo).1 (by decide)

end AutomotiveGateway.Someip
