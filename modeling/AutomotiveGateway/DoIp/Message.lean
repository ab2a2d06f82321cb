import AutomotiveGateway.Foundation.ByteOrder
import AutomotiveGateway.Foundation.Framing
import AutomotiveGateway.Foundation.Memory

/-!
# DoIP messages

A message is an 8-byte header, which announces the payload type and length,
followed by the payload.
-/

namespace AutomotiveGateway.DoIp

open ByteOrder Memory

def doipProtoVersion : UInt8 := 0x02
def doipProtoVersionInv : UInt8 := 0xFD

def doipRoutingActivationReq : UInt16 := 0x0005
def doipRoutingActivationRes : UInt16 := 0x0006
def doipDiagnosticMessage : UInt16 := 0x8001
def doipDiagnosticAck : UInt16 := 0x8002
def doipAliveCheckReq : UInt16 := 0x0007
def doipAliveCheckRes : UInt16 := 0x0008

def doipRoutingOk : UInt8 := 0x10
def doipAckOk : UInt8 := 0x00

def doipHeaderSize : Nat := 8

def doipEcuAddress : UInt16 := 0x0001

structure DoIpHeader where
  protoVersion : UInt8 := doipProtoVersion
  protoVersionInv : UInt8 := doipProtoVersionInv
  payloadType : UInt16 := 0
  payloadLength : UInt32 := 0
deriving DecidableEq, Repr

namespace DoIpHeader

/-- The fields read from the first eight bytes behind `buf`. -/
def ofBytes (buf : List UInt8) : DoIpHeader where
  protoVersion := byteAt buf 0
  protoVersionInv := byteAt buf 1
  payloadType := ofBig16 (byteAt buf 2) (byteAt buf 3)
  payloadLength := ofBig32 (byteAt buf 4) (byteAt buf 5) (byteAt buf 6) (byteAt buf 7)

def parse (buf : List UInt8) (len : Nat) : Option DoIpHeader :=
  if len < doipHeaderSize then none else some (ofBytes buf)

def serialize (header : DoIpHeader) : List UInt8 :=
  [header.protoVersion, header.protoVersionInv,
    ((header.payloadType >>> 8) &&& 0xFF).toUInt8, (header.payloadType &&& 0xFF).toUInt8] ++
    littleBytes32 (htonl header.payloadLength)

/-- Only the eight header bytes decide the fields. -/
theorem ofBytes_take {buf : List UInt8} {len : Nat} (hlen : doipHeaderSize ≤ len) :
    ofBytes (buf.take len) = ofBytes buf := by
  have hbyte : ∀ offset, offset < doipHeaderSize →
      byteAt (buf.take len) offset = byteAt buf offset :=
    fun offset hoffset => byteAt_take (Nat.lt_of_lt_of_le hoffset hlen)
  simp only [ofBytes, hbyte 0 (by decide), hbyte 1 (by decide), hbyte 2 (by decide),
    hbyte 3 (by decide), hbyte 4 (by decide), hbyte 5 (by decide), hbyte 6 (by decide),
    hbyte 7 (by decide)]

end DoIpHeader

/-- Build a complete DoIP message. -/
def makeDoipMessage (payloadType : UInt16) (payload : List UInt8) : List UInt8 :=
  let header : DoIpHeader :=
    { payloadType, payloadLength := UInt32.ofNat payload.length }
  header.serialize ++ payload

/-! ## Frames of a byte stream -/

/-- A complete message as the receiver sees it. -/
structure Frame where
  header : DoIpHeader
  payload : List UInt8
deriving DecidableEq, Repr

/-- The wire format: a header, then as many payload bytes as it announces. -/
def wireFormat : Framing UInt8 (DoIpHeader × List UInt8) :=
  Framing.lengthPrefixed doipHeaderSize (by decide) DoIpHeader.ofBytes
    fun header => header.payloadLength.toNat

/-- The greedy reference parse of a byte stream: its complete frames in order,
and the bytes behind the last of them. -/
def greedyParse (stream : List UInt8) : List Frame × List UInt8 :=
  ((wireFormat.parse stream).1.map fun frame => ⟨frame.1, frame.2⟩,
    (wireFormat.parse stream).2)

theorem greedyParse_append (stream more : List UInt8) :
    greedyParse (stream ++ more) =
      ((greedyParse stream).1 ++ (greedyParse ((greedyParse stream).2 ++ more)).1,
        (greedyParse ((greedyParse stream).2 ++ more)).2) := by
  simp only [greedyParse]
  rw [wireFormat.parse_append stream more, List.map_append]

/-- What has been parsed stays when more is received. -/
theorem greedyParse_isPrefix {received stream : List UInt8} (hreceived : received <+: stream) :
    (greedyParse received).1 <+: (greedyParse stream).1 := by
  obtain ⟨more, rfl⟩ := hreceived
  rw [greedyParse_append]
  exact List.prefix_append _ _

/-- A stream that does not hold the frame its header announces is left as it is. -/
theorem greedyParse_of_incomplete {stream : List UInt8}
    (h : stream.length < doipHeaderSize ∨
      stream.length < doipHeaderSize + (DoIpHeader.ofBytes stream).payloadLength.toNat) :
    greedyParse stream = ([], stream) := by
  have hnext : wireFormat.next stream = none := by
    rw [wireFormat, Framing.lengthPrefixed_next_eq_none, DoIpHeader.ofBytes_take le_rfl]
    exact h
  simp [greedyParse, wireFormat.parse_of_none hnext]

/-- A complete frame at the head of the stream is the first one parsed. -/
theorem greedyParse_of_complete {stream : List UInt8} {header : DoIpHeader}
    (hheader : DoIpHeader.ofBytes stream = header)
    (hfits : doipHeaderSize + header.payloadLength.toNat ≤ stream.length) :
    greedyParse stream =
      (⟨header, (stream.drop doipHeaderSize).take header.payloadLength.toNat⟩ ::
          (greedyParse (stream.drop (doipHeaderSize + header.payloadLength.toNat))).1,
        (greedyParse (stream.drop (doipHeaderSize + header.payloadLength.toNat))).2) := by
  subst hheader
  have htake : DoIpHeader.ofBytes (stream.take doipHeaderSize) = DoIpHeader.ofBytes stream :=
    DoIpHeader.ofBytes_take le_rfl
  have hnext := Framing.lengthPrefixed_next_eq_some (by decide : 0 < doipHeaderSize)
    DoIpHeader.ofBytes (fun header => header.payloadLength.toNat) (by rw [htake]; exact hfits)
  rw [htake] at hnext
  simp [greedyParse, wireFormat, Framing.parse_of_some _ hnext]

/-- A stream of exactly one frame. -/
theorem greedyParse_single {stream : List UInt8} {header : DoIpHeader}
    (hheader : DoIpHeader.ofBytes stream = header)
    (hlength : doipHeaderSize + header.payloadLength.toNat = stream.length) :
    greedyParse stream = ([⟨header, stream.drop doipHeaderSize⟩], []) := by
  have hrest : stream.drop (doipHeaderSize + header.payloadLength.toNat) = [] :=
    List.drop_of_length_le hlength.ge
  have hpayload : (stream.drop doipHeaderSize).take header.payloadLength.toNat =
      stream.drop doipHeaderSize := by
    apply List.take_of_length_le
    rw [List.length_drop]
    omega
  rw [greedyParse_of_complete hheader hlength.le, hrest, hpayload,
    greedyParse_of_incomplete (Or.inl (by decide))]

/-! ## Frames on the wire -/

namespace DoIpHeader

/-- The bytes of a header on the wire. -/
theorem serialize_eq (header : DoIpHeader) :
    header.serialize = [header.protoVersion, header.protoVersionInv] ++
      bigBytes16 header.payloadType ++ bigBytes32 header.payloadLength := by
  simp [serialize, littleBytes32_swap32, bigBytes16]

theorem length_serialize (header : DoIpHeader) : header.serialize.length = doipHeaderSize := rfl

/-- A serialized header is read back, whatever follows it. -/
theorem ofBytes_serialize (header : DoIpHeader) (rest : List UInt8) :
    ofBytes (header.serialize ++ rest) = header := by
  rw [serialize_eq]
  exact congrArg₂ (mk header.protoVersion header.protoVersionInv)
    (ofBig16_bigBytes16 header.payloadType) (ofBig32_bigBytes32 header.payloadLength)

/-- The fields read from eight bytes are serialized to these bytes. -/
theorem serialize_ofBytes {bytes : List UInt8} (hlength : bytes.length = doipHeaderSize) :
    (ofBytes bytes).serialize = bytes := by
  obtain ⟨b₀, b₁, b₂, b₃, rest, rfl⟩ := exists_cons₄ (show 4 ≤ bytes.length by rw [hlength]; decide)
  simp only [List.length_cons, doipHeaderSize] at hlength
  obtain ⟨b₄, b₅, b₆, b₇, tail, rfl⟩ := exists_cons₄ (show 4 ≤ rest.length by omega)
  have htail : tail = [] := by
    apply List.eq_nil_of_length_eq_zero
    simp only [List.length_cons] at hlength
    omega
  subst htail
  rw [serialize_eq]
  exact congrArg₂ (fun kind length => [b₀, b₁] ++ kind ++ length)
    (bigBytes16_ofBig16 b₂ b₃) (bigBytes32_ofBig32 b₄ b₅ b₆ b₇)

end DoIpHeader

namespace Frame

/-- The wire image of a frame. -/
def bytes (frame : Frame) : List UInt8 := frame.header.serialize ++ frame.payload

/-- The header announces exactly the payload of the frame. -/
def Announced (frame : Frame) : Prop :=
  frame.header.payloadLength.toNat = frame.payload.length

theorem length_bytes (frame : Frame) :
    frame.bytes.length = doipHeaderSize + frame.payload.length := by
  rw [bytes, List.length_append, DoIpHeader.length_serialize]

end Frame

/-- A frame on the wire is the first one parsed, whatever follows it. -/
theorem greedyParse_bytes {frame : Frame} (hframe : frame.Announced) (rest : List UInt8) :
    greedyParse (frame.bytes ++ rest) = (frame :: (greedyParse rest).1, (greedyParse rest).2) := by
  have hlength := frame.length_bytes
  have hpayload : frame.header.payloadLength.toNat = frame.payload.length := hframe
  have hheader : DoIpHeader.ofBytes (frame.bytes ++ rest) = frame.header := by
    rw [Frame.bytes, List.append_assoc]
    exact frame.header.ofBytes_serialize _
  have hdrop : (frame.bytes ++ rest).drop doipHeaderSize = frame.payload ++ rest := by
    rw [Frame.bytes, List.append_assoc, ← frame.header.length_serialize, List.drop_left]
  rw [greedyParse_of_complete hheader
    (by rw [hpayload, List.length_append, hlength]; omega)]
  simp only [hpayload, ← List.drop_drop, hdrop, List.take_left, List.drop_left]

/-- A stream of frames is parsed as these frames. -/
theorem greedyParse_flatMap_bytes {frames : List Frame}
    (hframes : ∀ frame ∈ frames, frame.Announced) :
    greedyParse (frames.flatMap Frame.bytes) = (frames, []) := by
  induction frames with
  | nil => exact greedyParse_of_incomplete (Or.inl (by decide))
  | cons frame frames ih =>
      rw [List.flatMap_cons, greedyParse_bytes (hframes frame List.mem_cons_self),
        ih fun other hmem => hframes other (List.mem_cons_of_mem _ hmem)]

/-- The frame of a message built from a payload. -/
def Frame.ofPayload (payloadType : UInt16) (payload : List UInt8) : Frame :=
  ⟨{ payloadType, payloadLength := UInt32.ofNat payload.length }, payload⟩

theorem Frame.bytes_ofPayload (payloadType : UInt16) (payload : List UInt8) :
    (Frame.ofPayload payloadType payload).bytes = makeDoipMessage payloadType payload := rfl

theorem Frame.announced_ofPayload (payloadType : UInt16) {payload : List UInt8}
    (hsize : payload.length < 4294967296) : (Frame.ofPayload payloadType payload).Announced :=
  UInt32.toNat_ofNat_of_lt' hsize

theorem makeDoipMessage_eq (payloadType : UInt16) (payload : List UInt8) :
    makeDoipMessage payloadType payload =
      [doipProtoVersion, doipProtoVersionInv] ++ bigBytes16 payloadType ++
        bigBytes32 (UInt32.ofNat payload.length) ++ payload := by
  rw [makeDoipMessage, DoIpHeader.serialize_eq]

theorem length_makeDoipMessage (payloadType : UInt16) (payload : List UInt8) :
    (makeDoipMessage payloadType payload).length = doipHeaderSize + payload.length :=
  (Frame.ofPayload payloadType payload).length_bytes

/-- A built message is parsed as its frame, whatever follows it. -/
theorem greedyParse_makeDoipMessage (payloadType : UInt16) {payload : List UInt8}
    (hsize : payload.length < 4294967296) (rest : List UInt8) :
    greedyParse (makeDoipMessage payloadType payload ++ rest) =
      (.ofPayload payloadType payload :: (greedyParse rest).1, (greedyParse rest).2) := by
  rw [← Frame.bytes_ofPayload]
  exact greedyParse_bytes (Frame.announced_ofPayload payloadType hsize) rest

/-- Built messages one behind the other, each given by its type and payload. -/
def makeStream (messages : List (UInt16 × List UInt8)) : List UInt8 :=
  messages.flatMap fun message => makeDoipMessage message.1 message.2

/-- A stream of built messages is parsed as their frames. -/
theorem greedyParse_makeStream {messages : List (UInt16 × List UInt8)}
    (hsize : ∀ message ∈ messages, message.2.length < 4294967296) :
    greedyParse (makeStream messages) =
      (messages.map fun message => .ofPayload message.1 message.2, []) := by
  have hstream : makeStream messages =
      (messages.map fun message => Frame.ofPayload message.1 message.2).flatMap Frame.bytes := by
    rw [List.flatMap_map]
    rfl
  rw [hstream]
  apply greedyParse_flatMap_bytes
  intro frame hframe
  obtain ⟨message, hmem, rfl⟩ := List.mem_map.1 hframe
  exact Frame.announced_ofPayload message.1 (hsize message hmem)

/-- What remains unparsed never holds a whole frame. -/
theorem greedyParse_leftover_incomplete (stream : List UInt8) :
    (greedyParse stream).2.length < doipHeaderSize ∨
      (greedyParse stream).2.length <
        doipHeaderSize + (DoIpHeader.ofBytes (greedyParse stream).2).payloadLength.toNat := by
  have hnext := wireFormat.next_leftover stream
  rw [wireFormat, Framing.lengthPrefixed_next_eq_none, DoIpHeader.ofBytes_take le_rfl] at hnext
  exact hnext

end AutomotiveGateway.DoIp
