import AutomotiveGateway.Foundation.Memory

/-!
# SOME/IP notifications

A notification is written into a buffer provided by the caller. Each write is
checked, so a serialization that succeeds never left the buffer.
-/

namespace AutomotiveGateway.Someip

open ByteOrder Memory

def someipMsgNotification : UInt8 := 0x02
def someipRetOk : UInt8 := 0x00
def someipHeaderSize : Nat := 16
def someipMaxSize : Nat := 1500

structure SomeIpMessage where
  serviceId : UInt16 := 0
  methodId : UInt16 := 0
  clientId : UInt16 := 0
  sessionId : UInt16 := 0
  msgType : UInt8 := someipMsgNotification
  returnCode : UInt8 := someipRetOk
  payload : List UInt8 := []
deriving DecidableEq, Repr

namespace SomeIpMessage

def makeNotification (serviceId methodId sessionId : UInt16) (payload : List UInt8)
    (payloadLen : Nat) : SomeIpMessage where
  serviceId
  methodId
  clientId := 0x0000
  sessionId
  msgType := someipMsgNotification
  returnCode := someipRetOk
  payload := payload.take payloadLen

/-- A notification of the `float` with these bits. -/
def makeFloatNotification (serviceId methodId sessionId : UInt16) (value : UInt32) :
    SomeIpMessage :=
  makeNotification serviceId methodId sessionId (littleBytes32 (htonl value)) 4

/-- The writes of `serialize_into`, into a buffer that is large enough. -/
def serializeFields (message : SomeIpMessage) (buf : List UInt8) : Option (List UInt8) := do
  let buf ← store buf 0 [((message.serviceId >>> 8) &&& 0xFF).toUInt8]
  let buf ← store buf 1 [(message.serviceId &&& 0xFF).toUInt8]
  let buf ← store buf 2 [((message.methodId >>> 8) &&& 0xFF).toUInt8]
  let buf ← store buf 3 [(message.methodId &&& 0xFF).toUInt8]
  let length := UInt32.ofNat (message.payload.length + 8)
  let buf ← store buf 4 [((length >>> 24) &&& 0xFF).toUInt8]
  let buf ← store buf 5 [((length >>> 16) &&& 0xFF).toUInt8]
  let buf ← store buf 6 [((length >>> 8) &&& 0xFF).toUInt8]
  let buf ← store buf 7 [(length &&& 0xFF).toUInt8]
  let buf ← store buf 8 [((message.clientId >>> 8) &&& 0xFF).toUInt8]
  let buf ← store buf 9 [(message.clientId &&& 0xFF).toUInt8]
  let buf ← store buf 10 [((message.sessionId >>> 8) &&& 0xFF).toUInt8]
  let buf ← store buf 11 [(message.sessionId &&& 0xFF).toUInt8]
  let buf ← store buf 12 [0x01]
  let buf ← store buf 13 [0x01]
  let buf ← store buf 14 [message.msgType]
  let buf ← store buf 15 [message.returnCode]
  store buf someipHeaderSize message.payload

/-- Serialize into a buffer; the result is the buffer and the number of bytes written,
0 when the buffer is too small. -/
def serializeInto (message : SomeIpMessage) (buf : List UInt8) : Option (List UInt8 × Nat) :=
  let total := someipHeaderSize + message.payload.length
  if buf.length < total then some (buf, 0)
  else do
    let buf ← message.serializeFields buf
    return (buf, total)

/-- Serialize into a buffer of its own. -/
def serialize (message : SomeIpMessage) : Option (List UInt8) := do
  let buf := List.replicate (someipHeaderSize + message.payload.length) 0
  let (buf, _) ← message.serializeInto buf
  return buf

/-- The fields of a message of `size` bytes, read from the start of a buffer. -/
def ofBytes (buffer : List UInt8) (size : Nat) : SomeIpMessage where
  serviceId := bigAt16 buffer 0
  methodId := bigAt16 buffer 2
  clientId := bigAt16 buffer 8
  sessionId := bigAt16 buffer 10
  msgType := byteAt buffer 14
  returnCode := byteAt buffer 15
  payload := (buffer.take size).drop someipHeaderSize

/-- The wire image of a message. -/
def image (message : SomeIpMessage) : List UInt8 :=
  bigBytes16 message.serviceId ++ bigBytes16 message.methodId ++
    bigBytes32 (UInt32.ofNat (message.payload.length + 8)) ++ bigBytes16 message.clientId ++
    bigBytes16 message.sessionId ++ [0x01, 0x01, message.msgType, message.returnCode] ++
    message.payload

theorem length_image (message : SomeIpMessage) :
    message.image.length = someipHeaderSize + message.payload.length := by
  simp [image, someipHeaderSize]
  omega

theorem serializeFields_writes (message : SomeIpMessage) :
    Writes message.serializeFields 0 message.image := by
  unfold serializeFields
  apply Writes.congr
  · repeat apply Writes.store_bind
    · exact writes_store _ _
    all_goals rfl
  · simp [image, bigBytes16, bigBytes32]

/-- A buffer that is large enough starts with the wire image afterwards. -/
theorem serializeInto_of_le {message : SomeIpMessage} {buf : List UInt8}
    (hfits : message.image.length ≤ buf.length) :
    message.serializeInto buf =
      some (message.image ++ buf.drop message.image.length, message.image.length) := by
  have hfields := @Writes.append _ [] buf _ message.serializeFields_writes hfits
  rw [length_image] at hfits
  rw [serializeInto, if_neg (by omega), ← length_image]
  simp only [List.nil_append] at hfields
  rw [hfields]
  rfl

/-- Nothing is written into a buffer that is too small. -/
theorem serializeInto_of_lt {message : SomeIpMessage} {buf : List UInt8}
    (hshort : buf.length < someipHeaderSize + message.payload.length) :
    message.serializeInto buf = some (buf, 0) := by
  rw [serializeInto, if_pos hshort]

theorem serialize_eq (message : SomeIpMessage) : message.serialize = some message.image := by
  have hlength : (List.replicate message.image.length (0 : UInt8)).length =
      message.image.length := List.length_replicate
  rw [serialize, ← length_image, serializeInto_of_le hlength.ge, List.drop_of_length_le hlength.le,
    List.append_nil]
  rfl

/-- The message is read back from its wire image, whatever follows it. -/
theorem ofBytes_image (message : SomeIpMessage) (rest : List UInt8) :
    ofBytes (message.image ++ rest) message.image.length = message := by
  have hservice : bigAt16 (message.image ++ rest) 0 = message.serviceId := ofBig16_bigBytes16 _
  have hmethod : bigAt16 (message.image ++ rest) 2 = message.methodId := ofBig16_bigBytes16 _
  have hclient : bigAt16 (message.image ++ rest) 8 = message.clientId := ofBig16_bigBytes16 _
  have hsession : bigAt16 (message.image ++ rest) 10 = message.sessionId := ofBig16_bigBytes16 _
  rw [ofBytes, hservice, hmethod, hclient, hsession, List.take_left]
  rfl

/-- The length field counts the payload and the eight bytes of the header behind it. -/
theorem bigAt32_image (message : SomeIpMessage) (rest : List UInt8) :
    bigAt32 (message.image ++ rest) 4 = UInt32.ofNat (message.payload.length + 8) :=
  ofBig32_bigBytes32 _

/-- A notification is written exactly when the buffer has room for it, and otherwise the
buffer stays as it is. Its bytes are those of `serialize`, the bytes behind them are left
alone, the length field counts what follows it, and all fields are read back. -/
theorem serializeInto_makeNotification (serviceId methodId sessionId : UInt16)
    {payload : List UInt8} (hsize : someipHeaderSize + payload.length < 4294967296)
    (buf : List UInt8) :
    ∃ after written,
      (makeNotification serviceId methodId sessionId payload payload.length).serializeInto buf =
        some (after, written) ∧
      (written = 0 ∧ after = buf ↔ buf.length < someipHeaderSize + payload.length) ∧
      (someipHeaderSize + payload.length ≤ buf.length →
        written = someipHeaderSize + payload.length ∧
        after.length = buf.length ∧ after.drop written = buf.drop written ∧
        (bigAt32 after 4).toNat = payload.length + 8 ∧
        ofBytes after written =
          { serviceId, methodId, clientId := 0, sessionId, msgType := someipMsgNotification,
            returnCode := someipRetOk, payload } ∧
        (makeNotification serviceId methodId sessionId payload payload.length).serialize =
          some (after.take written)) := by
  obtain ⟨message, hmessage⟩ : ∃ message,
      makeNotification serviceId methodId sessionId payload payload.length = message := ⟨_, rfl⟩
  have hpayload : message.payload = payload := by
    rw [← hmessage, makeNotification, List.take_length]
  have hlength := message.length_image
  rw [hpayload] at hlength
  rw [hmessage]
  by_cases hfits : someipHeaderSize + payload.length ≤ buf.length
  · refine ⟨_, _, serializeInto_of_le (hlength.trans_le hfits), ?_, fun _ => ?_⟩
    · have hpos : 0 < someipHeaderSize := by decide
      constructor
      · rintro ⟨hnothing, -⟩
        omega
      · intro hshort
        omega
    · refine ⟨hlength, ?_, ?_, ?_, ?_, ?_⟩
      · rw [List.length_append, List.length_drop]
        omega
      · rw [List.drop_left]
      · have hfield : payload.length + 8 < 4294967296 := by
          unfold someipHeaderSize at hsize
          omega
        rw [bigAt32_image, hpayload, UInt32.toNat_ofNat_of_lt' hfield]
      · rw [ofBytes_image, ← hmessage, makeNotification, List.take_length]
      · rw [serialize_eq, List.take_left]
  · have hshort := Nat.lt_of_not_le hfits
    rw [← hpayload] at hshort
    refine ⟨buf, 0, serializeInto_of_lt hshort, ?_, fun h => absurd h hfits⟩
    rw [← hpayload]
    exact ⟨fun _ => hshort, fun _ => ⟨rfl, rfl⟩⟩

/-- One payload byte, with three bytes of the buffer to spare. -/
theorem serializeInto_makeNotification_oneByte :
    ∃ after, (makeNotification 0x0101 0x8001 7 [0x2A] 1).serializeInto (List.replicate 20 0xFF) =
        some (after, 17) ∧
      after.drop 17 = [0xFF, 0xFF, 0xFF] ∧ (bigAt32 after 4).toNat = 9 := by
  obtain ⟨after, written, hcall, -, hroom⟩ :=
    @serializeInto_makeNotification 0x0101 0x8001 7 [0x2A] (by decide) (List.replicate 20 0xFF)
  obtain ⟨hwritten, -, hbehind, hfield, -⟩ := hroom (by decide)
  have hsize : someipHeaderSize + [(0x2A : UInt8)].length = 17 := rfl
  rw [hwritten, hsize] at hcall hbehind
  exact ⟨after, hcall, hbehind, hfield⟩

end SomeIpMessage

/-- The datagram of a notification of the `float` with these bits. -/
def floatNotification (serviceId methodId sessionId : UInt16) (value : UInt32) : List UInt8 :=
  bigBytes16 serviceId ++ bigBytes16 methodId ++ bigBytes32 12 ++ [0x00, 0x00] ++
    bigBytes16 sessionId ++ [0x01, 0x01, 0x02, 0x00] ++ bigBytes32 value

/-- The ids and the value can be read off the datagram. -/
theorem floatNotification_inj {serviceId methodId sessionId serviceId' methodId' : UInt16}
    {value value' : UInt32}
    (heq : floatNotification serviceId methodId sessionId value =
      floatNotification serviceId' methodId' sessionId value') :
    serviceId = serviceId' ∧ methodId = methodId' ∧ value = value' := by
  have hservice := congrArg (bigAt16 · 0) heq
  have hmethod := congrArg (bigAt16 · 2) heq
  have hvalue := congrArg (bigAt32 · 16) heq
  refine ⟨?_, ?_, ?_⟩
  · exact (ofBig16_bigBytes16 serviceId).symm.trans
      (hservice.trans (ofBig16_bigBytes16 serviceId'))
  · exact (ofBig16_bigBytes16 methodId).symm.trans (hmethod.trans (ofBig16_bigBytes16 methodId'))
  · exact (ofBig32_bigBytes32 value).symm.trans (hvalue.trans (ofBig32_bigBytes32 value'))

theorem image_makeFloatNotification (serviceId methodId sessionId : UInt16) (value : UInt32) :
    (SomeIpMessage.makeFloatNotification serviceId methodId sessionId value).image =
      floatNotification serviceId methodId sessionId value := by
  have hclient : bigBytes16 0 = [0x00, 0x00] := rfl
  have htake : (bigBytes32 value).take 4 = bigBytes32 value := rfl
  rw [SomeIpMessage.makeFloatNotification, littleBytes32_swap32, SomeIpMessage.makeNotification,
    htake, SomeIpMessage.image, floatNotification, length_bigBytes32]
  simp [hclient, someipMsgNotification, someipRetOk]

end AutomotiveGateway.Someip
