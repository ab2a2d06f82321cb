import AutomotiveGateway.DoIp.Client

/-!
# DoIP encoding and decoding

A reader that takes headers off a stream with `DoIpHeader::parse`, each followed by
the payload it announces, undoes both encoders on whole streams.
-/

namespace AutomotiveGateway.DoIp

open ByteOrder Memory

/-- Read a stream: a header, the payload it announces, and so on, as long as they are
there as a whole. -/
def readFrames (stream : List UInt8) : List Frame × List UInt8 :=
  match DoIpHeader.parse stream stream.length with
  | none => ([], stream)
  | some header =>
      if doipHeaderSize + header.payloadLength.toNat ≤ stream.length then
        let later := readFrames (stream.drop (doipHeaderSize + header.payloadLength.toNat))
        (⟨header, (stream.drop doipHeaderSize).take header.payloadLength.toNat⟩ :: later.1,
          later.2)
      else ([], stream)
termination_by stream.length
decreasing_by
  rw [List.length_drop]
  have hpos : 0 < doipHeaderSize := by decide
  omega

theorem DoIpHeader.parse_eq_some {bytes : List UInt8} {header : DoIpHeader}
    (hheader : parse bytes bytes.length = some header) :
    doipHeaderSize ≤ bytes.length ∧ ofBytes bytes = header := by
  rw [parse] at hheader
  split at hheader
  next => cases hheader
  next hlong => exact ⟨Nat.le_of_not_lt hlong, Option.some.inj hheader⟩

/-- Reading with the header parser is the greedy parse of the stream. -/
theorem readFrames_eq_greedyParse (stream : List UInt8) :
    readFrames stream = greedyParse stream := by
  induction stream using readFrames.induct with
  | case1 stream hheader =>
      have hshort : stream.length < doipHeaderSize := by
        by_contra hlong
        rw [DoIpHeader.parse, if_neg hlong] at hheader
        exact absurd hheader (Option.some_ne_none _)
      rw [readFrames, hheader, greedyParse_of_incomplete (Or.inl hshort)]
  | case2 stream header hheader hfits ih =>
      have hfields := (DoIpHeader.parse_eq_some hheader).2
      rw [readFrames, hheader, greedyParse_of_complete hfields hfits, ← ih]
      simp only [if_pos hfits]
  | case3 stream header hheader hfits =>
      have hfields := (DoIpHeader.parse_eq_some hheader).2
      have hincomplete : stream.length <
          doipHeaderSize + (DoIpHeader.ofBytes stream).payloadLength.toNat := by
        rw [hfields]
        exact Nat.lt_of_not_le hfits
      rw [readFrames, hheader, greedyParse_of_incomplete (Or.inr hincomplete)]
      simp only [if_neg hfits]

/-- The bytes of `payload_length` are shifted as promoted `int`s; the conversion back to
`uint32_t` gives the word, also when the top bit is set. -/
theorem ofBig32_eq_signed (b₀ b₁ b₂ b₃ : UInt8) :
    ofBig32 b₀ b₁ b₂ b₃ =
      ((b₀.toUInt32.toInt32 <<< 24) ||| (b₁.toUInt32.toInt32 <<< 16) |||
        (b₂.toUInt32.toInt32 <<< 8) ||| b₃.toUInt32.toInt32).toUInt32 := rfl

/-- Whatever was encoded is decoded again: a stream of built messages into their types
and payloads, with the protocol version in every header; the client builds the same
messages; and eight bytes that were parsed as a header are what it serializes to. -/
theorem encoding_decodes :
    (∀ messages : List (UInt16 × List UInt8),
      (∀ message ∈ messages, message.2.length < 4294967296) →
      ∃ frames,
        readFrames (messages.flatMap fun message => makeDoipMessage message.1 message.2) =
          (frames, []) ∧
        (frames.map fun frame => (frame.header.payloadType, frame.payload)) = messages ∧
        ∀ frame ∈ frames, frame.header.protoVersion = 0x02 ∧
          frame.header.protoVersionInv = 0xFD) ∧
    (∀ payloadType payload, makeMsg payloadType payload = makeDoipMessage payloadType payload) ∧
    (∀ bytes header, bytes.length = doipHeaderSize →
      DoIpHeader.parse bytes bytes.length = some header → header.serialize = bytes) := by
  refine ⟨?_, makeMsg_eq, ?_⟩
  · intro messages hsize
    refine ⟨messages.map fun message => .ofPayload message.1 message.2, ?_, ?_, ?_⟩
    · rw [readFrames_eq_greedyParse]
      exact greedyParse_makeStream hsize
    · rw [List.map_map]
      exact List.map_id messages
    · intro frame hframe
      obtain ⟨message, -, rfl⟩ := List.mem_map.1 hframe
      exact ⟨rfl, rfl⟩
  · intro bytes header hlength hheader
    rw [← (DoIpHeader.parse_eq_some hheader).2]
    exact DoIpHeader.serialize_ofBytes hlength

/-- An alive check and a routing activation behind one another, and the header of the first. -/
theorem encoding_decodes_two :
    (∃ frames,
      readFrames ([(doipAliveCheckReq, []), (doipRoutingActivationReq, [0x0E, 0x00])].flatMap
        fun message => makeDoipMessage message.1 message.2) = (frames, []) ∧
      (frames.map fun frame => (frame.header.payloadType, frame.payload)) =
        [(doipAliveCheckReq, []), (doipRoutingActivationReq, [0x0E, 0x00])] ∧
      ∀ frame ∈ frames, frame.header.protoVersion = 0x02 ∧
        frame.header.protoVersionInv = 0xFD) ∧
    ({ payloadType := doipAliveCheckReq } : DoIpHeader).serialize =
      [0x02, 0xFD, 0x00, 0x07, 0x00, 0x00, 0x00, 0x00] :=
  ⟨encoding_decodes.1 _ (by decide), encoding_decodes.2.2 _ _ rfl (by decide)⟩

end AutomotiveGateway.DoIp
