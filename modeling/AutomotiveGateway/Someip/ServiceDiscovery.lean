import AutomotiveGateway.Foundation.Memory

/-!
# SOME/IP service discovery messages

A message is serialized into a buffer of its exact size by writes at a running
offset. Each write is checked, so a serialization that succeeds never left its
buffer; the bytes it leaves there are those of a plain concatenation.
-/

namespace AutomotiveGateway.Someip

open ByteOrder Memory

def sdEntryOfferService : UInt8 := 0x01
def sdEntrySubscribeEventgrp : UInt8 := 0x06
def sdEntrySubscribeAck : UInt8 := 0x07

def sdOptIpv4Endpoint : UInt8 := 0x04

/-- One SD entry, 16 bytes on the wire. -/
structure SdEntry where
  type : UInt8 := 0
  indexFirst : UInt8 := 0
  numOpts : UInt8 := 0
  serviceId : UInt16 := 0
  instanceId : UInt16 := 0xFFFF
  majorVersion : UInt8 := 0x01
  ttl : UInt32 := 3
  minorVersion : UInt16 := 0
  eventgroupId : UInt16 := 0
deriving DecidableEq, Repr

namespace SdEntry

/-- Write the entry at an offset of a buffer. -/
def serialize (entry : SdEntry) (buf : List UInt8) (pos : Nat) : Option (List UInt8) := do
  let buf ← store buf pos [entry.type]
  let buf ← store buf (pos + 1) [entry.indexFirst]
  let buf ← store buf (pos + 2) [entry.numOpts <<< 4]
  let buf ← store buf (pos + 3) [0]
  let buf ← store buf (pos + 4) (littleBytes16 (htons entry.serviceId))
  let buf ← store buf (pos + 6) (littleBytes16 (htons entry.instanceId))
  let buf ← store buf (pos + 8) [entry.majorVersion]
  let buf ← store buf (pos + 9) [((entry.ttl >>> 16) &&& 0xFF).toUInt8]
  let buf ← store buf (pos + 10) [((entry.ttl >>> 8) &&& 0xFF).toUInt8]
  let buf ← store buf (pos + 11) [(entry.ttl &&& 0xFF).toUInt8]
  let buf ← store buf (pos + 12) (littleBytes16 (htons entry.minorVersion))
  store buf (pos + 14) (littleBytes16 (htons entry.eventgroupId))

/-- The wire image of an entry. -/
def image (entry : SdEntry) : List UInt8 :=
  [entry.type, entry.indexFirst, entry.numOpts <<< 4, 0] ++ bigBytes16 entry.serviceId ++
    bigBytes16 entry.instanceId ++ [entry.majorVersion, (entry.ttl >>> 16).toUInt8,
      (entry.ttl >>> 8).toUInt8, entry.ttl.toUInt8] ++ bigBytes16 entry.minorVersion ++
    bigBytes16 entry.eventgroupId

theorem length_image (entry : SdEntry) : entry.image.length = 16 := rfl

theorem serialize_writes (entry : SdEntry) (pos : Nat) :
    Writes (fun buf => entry.serialize buf pos) pos entry.image := by
  unfold serialize
  apply Writes.congr
  · repeat apply Writes.store_bind
    · exact writes_store _ _
    all_goals rfl
  · simp [littleBytes16_swap16, image]

end SdEntry

/-- IPv4 endpoint option, 12 bytes on the wire. The address is kept as `inet_addr`
leaves it in memory. -/
structure SdOptionIpv4 where
  type : UInt8 := sdOptIpv4Endpoint
  ipv4Addr : UInt32 := 0
  protocol : UInt8 := 0x11
  port : UInt16 := 0
deriving DecidableEq, Repr

namespace SdOptionIpv4

/-- Write the option at an offset of a buffer. -/
def serialize (option : SdOptionIpv4) (buf : List UInt8) (pos : Nat) : Option (List UInt8) := do
  let buf ← store buf pos (littleBytes16 (htons 9))
  let buf ← store buf (pos + 2) [option.type]
  let buf ← store buf (pos + 3) [0]
  let buf ← store buf (pos + 4) (littleBytes32 option.ipv4Addr)
  let buf ← store buf (pos + 8) [0]
  let buf ← store buf (pos + 9) [option.protocol]
  store buf (pos + 10) (littleBytes16 (htons option.port))

/-- The wire image of an option. -/
def image (option : SdOptionIpv4) : List UInt8 :=
  bigBytes16 9 ++ [option.type, 0] ++ littleBytes32 option.ipv4Addr ++ [0, option.protocol] ++
    bigBytes16 option.port

theorem length_image (option : SdOptionIpv4) : option.image.length = 12 := rfl

theorem serialize_writes (option : SdOptionIpv4) (pos : Nat) :
    Writes (fun buf => option.serialize buf pos) pos option.image := by
  unfold serialize
  apply Writes.congr
  · repeat apply Writes.store_bind
    · exact writes_store _ _
    all_goals rfl
  · simp [littleBytes16_swap16, image]

end SdOptionIpv4

structure SomeIpSdMessage where
  entries : List SdEntry := []
  options : List SdOptionIpv4 := []
deriving DecidableEq, Repr

namespace SomeIpSdMessage

def addOfferService (message : SomeIpSdMessage) (serviceId : UInt16) (ipv4Addr : UInt32)
    (port : UInt16) (ttl : UInt32) : SomeIpSdMessage where
  entries := message.entries ++
    [{ type := sdEntryOfferService
       serviceId
       instanceId := 0x0001
       majorVersion := 0x01
       ttl
       minorVersion := 0x0000
       indexFirst := UInt8.ofNat message.options.length
       numOpts := 1 }]
  options := message.options ++ [{ type := sdOptIpv4Endpoint, ipv4Addr, protocol := 0x11, port }]

def addSubscribeAck (message : SomeIpSdMessage) (serviceId eventgroupId : UInt16) :
    SomeIpSdMessage :=
  { message with
    entries := message.entries ++
      [{ type := sdEntrySubscribeAck
         serviceId
         instanceId := 0x0001
         majorVersion := 0x01
         ttl := 3
         eventgroupId
         numOpts := 0 }] }

/-- The part of `serialize` in front of the entries. -/
def serializeHeader (sessionId : UInt16) (total entriesLen : Nat) (buf : List UInt8) :
    Option (List UInt8) := do
  -- SOME/IP header: service 0xFFFF, method 0x8100
  let buf ← store buf 0 [0xFF, 0xFF]
  let buf ← store buf 2 [0x81, 0x00]
  let buf ← store buf 4 (littleBytes32 (htonl (UInt32.ofNat (total - 8))))
  let buf ← store buf 8 [0x00, 0x00]
  let buf ← store buf 10 (littleBytes16 (htons sessionId))
  let buf ← store buf 12 [0x01, 0x01, 0x02, 0x00]
  -- SD flags
  let buf ← store buf 16 [0xC0, 0x00, 0x00, 0x00]
  store buf 20 (littleBytes32 (htonl (UInt32.ofNat entriesLen)))

def serialize (message : SomeIpSdMessage) (sessionId : UInt16) : Option (List UInt8) := do
  let entriesLen := message.entries.length * 16
  let optionsLen := message.options.length * 12
  let total := 16 + 4 + 4 + entriesLen + 4 + optionsLen
  let buf ← serializeHeader sessionId total entriesLen (List.replicate total 0)
  let (buf, pos) ← storeEach SdEntry.serialize 16 message.entries buf 24
  let buf ← store buf pos (littleBytes32 (htonl (UInt32.ofNat optionsLen)))
  let (buf, _) ← storeEach SdOptionIpv4.serialize 12 message.options buf (pos + 4)
  return buf

def headerImage (sessionId : UInt16) (total entriesLen : Nat) : List UInt8 :=
  [0xFF, 0xFF, 0x81, 0x00] ++ bigBytes32 (UInt32.ofNat (total - 8)) ++ [0x00, 0x00] ++
    bigBytes16 sessionId ++ [0x01, 0x01, 0x02, 0x00, 0xC0, 0x00, 0x00, 0x00] ++
    bigBytes32 (UInt32.ofNat entriesLen)

theorem serializeHeader_writes (sessionId : UInt16) (total entriesLen : Nat) :
    Writes (serializeHeader sessionId total entriesLen) 0
      (headerImage sessionId total entriesLen) := by
  unfold serializeHeader
  apply Writes.congr
  · repeat apply Writes.store_bind
    · exact writes_store _ _
    all_goals rfl
  · simp [littleBytes16_swap16, littleBytes32_swap32, headerImage]

/-- The wire image of a message. -/
def image (message : SomeIpSdMessage) (sessionId : UInt16) : List UInt8 :=
  headerImage sessionId (28 + message.entries.length * 16 + message.options.length * 12)
      (message.entries.length * 16) ++
    message.entries.flatMap SdEntry.image ++
    bigBytes32 (UInt32.ofNat (message.options.length * 12)) ++
    message.options.flatMap SdOptionIpv4.image

/-- The size of the buffer for a message. -/
def size (message : SomeIpSdMessage) : Nat :=
  28 + message.entries.length * 16 + message.options.length * 12

theorem length_image (message : SomeIpSdMessage) (sessionId : UInt16) :
    (message.image sessionId).length = message.size := by
  have hentries := length_flatMap_of_const SdEntry.length_image message.entries
  have hoptions := length_flatMap_of_const SdOptionIpv4.length_image message.options
  have hheader : (headerImage sessionId message.size (message.entries.length * 16)).length = 24 :=
    rfl
  unfold size at hheader ⊢
  simp only [image, List.length_append, length_bigBytes32, hheader, hentries, hoptions]
  omega

/-- The writes of `serialize` into a buffer, and the running position behind the last of
them. -/
def serializeWrites (message : SomeIpSdMessage) (sessionId : UInt16) (buf : List UInt8) :
    Option (List UInt8 × Nat) := do
  let entriesLen := message.entries.length * 16
  let optionsLen := message.options.length * 12
  let total := 16 + 4 + 4 + entriesLen + 4 + optionsLen
  let buf ← serializeHeader sessionId total entriesLen buf
  let (buf, pos) ← storeEach SdEntry.serialize 16 message.entries buf 24
  let buf ← store buf pos (littleBytes32 (htonl (UInt32.ofNat optionsLen)))
  storeEach SdOptionIpv4.serialize 12 message.options buf (pos + 4)

/-- The writes stay inside a buffer of the message's size and fill it up to its end,
whatever it held before. -/
theorem serializeWrites_eq (message : SomeIpSdMessage) (sessionId : UInt16) {buf : List UInt8}
    (hsize : buf.length = message.size) :
    message.serializeWrites sessionId buf = some (message.image sessionId, message.size) := by
  rw [← message.length_image sessionId]
  obtain ⟨entries, options⟩ := message
  have htotal : 16 + 4 + 4 + entries.length * 16 + 4 + options.length * 12 =
      28 + entries.length * 16 + options.length * 12 := by omega
  simp only [serializeWrites, htotal]
  simp only [size] at hsize
  generalize hsum : 28 + entries.length * 16 + options.length * 12 = total at hsize
  -- the buffer always consists of the bytes written so far and of the old ones behind them
  have hheader := @Writes.append _ [] buf _
    (serializeHeader_writes sessionId total (entries.length * 16))
    (by simp only [headerImage, List.length_append, List.length_cons, List.length_nil,
      length_bigBytes16, length_bigBytes32]; omega)
  have hentries := @storeEach_append _ _ _ _ SdEntry.length_image SdEntry.serialize_writes entries
    (headerImage sessionId total (entries.length * 16)) (buf.drop 24)
    (by rw [List.length_drop]; omega)
  have hlength := @Writes.append _ (headerImage sessionId total (entries.length * 16) ++
    entries.flatMap SdEntry.image) ((buf.drop 24).drop (entries.length * 16)) _
    (writes_store _ (bigBytes32 (UInt32.ofNat (options.length * 12))))
    (by simp only [List.length_drop, length_bigBytes32]; omega)
  have hoptions := @storeEach_append _ _ _ _ SdOptionIpv4.length_image
    SdOptionIpv4.serialize_writes options (headerImage sessionId total (entries.length * 16) ++
      entries.flatMap SdEntry.image ++ bigBytes32 (UInt32.ofNat (options.length * 12)))
    (((buf.drop 24).drop (entries.length * 16)).drop 4)
    (by simp only [List.length_drop]; omega)
  have hnone : ((((buf.drop 24).drop (entries.length * 16)).drop 4).drop (options.length * 12)) =
      [] := by
    apply List.drop_eq_nil_of_le
    simp only [List.length_drop]
    omega
  have hheaderLength : (headerImage sessionId total (entries.length * 16)).length = 24 := rfl
  simp only [List.nil_append, hheaderLength] at hheader
  rw [hheaderLength] at hentries
  rw [List.length_append, length_bigBytes32] at hoptions
  rw [hheader, Option.bind_eq_bind, Option.bind_some]
  simp only [hentries, littleBytes32_swap32, hlength, hoptions, Option.bind_eq_bind,
    Option.bind_some, length_bigBytes32, hnone, image, hsum, List.append_nil]

theorem serialize_eq_serializeWrites (message : SomeIpSdMessage) (sessionId : UInt16) :
    message.serialize sessionId =
      (message.serializeWrites sessionId (List.replicate message.size 0)).map Prod.fst := by
  have htotal : 16 + 4 + 4 + message.entries.length * 16 + 4 + message.options.length * 12 =
      message.size := by
    unfold size
    omega
  simp only [serialize, serializeWrites, htotal, Option.bind_eq_bind, Option.map_eq_bind,
    Option.bind_assoc]
  rfl

/-- Serialization stays inside its buffer and fills it with the wire image. -/
theorem serialize_eq (message : SomeIpSdMessage) (sessionId : UInt16) :
    message.serialize sessionId = some (message.image sessionId) := by
  rw [serialize_eq_serializeWrites, serializeWrites_eq _ _ List.length_replicate, Option.map_some]

end SomeIpSdMessage

/-! ## Reading a message -/

/-- What a receiver looks at in an entry. -/
structure ReadEntry where
  type : UInt8
  serviceId : UInt16
  eventgroupId : UInt16
deriving DecidableEq, Repr

/-- The entry at an offset of a datagram. -/
def readEntry (datagram : List UInt8) (pos : Nat) : ReadEntry where
  type := byteAt datagram pos
  serviceId := bigAt16 datagram (pos + 4)
  eventgroupId := bigAt16 datagram (pos + 14)

/-- Long enough for both array lengths, and with the service and method id of SD. -/
def IsSd (datagram : List UInt8) : Prop :=
  28 ≤ datagram.length ∧ datagram.take 4 = [0xFF, 0xFF, 0x81, 0x00]

instance (datagram : List UInt8) : Decidable (IsSd datagram) := by
  unfold IsSd
  infer_instance

/-- The session id of the SOME/IP header. -/
def readSession (datagram : List UInt8) : UInt16 := bigAt16 datagram 10

theorem readSession_image (message : SomeIpSdMessage) (sessionId : UInt16) :
    readSession (message.image sessionId) = sessionId := ofBig16_bigBytes16 sessionId

/-- The announced length of the entries array. -/
def entriesLength (datagram : List UInt8) : Nat := (bigAt32 datagram 20).toNat

/-- The number of whole entries inside both the announced array and the datagram. -/
def wholeEntries (datagram : List UInt8) : Nat :=
  min (entriesLength datagram) (datagram.length - 24) / 16

/-- The whole entries of a datagram, in order. -/
def readEntries (datagram : List UInt8) : List ReadEntry :=
  (List.range (wholeEntries datagram)).map fun i => readEntry datagram (24 + 16 * i)

/-- What a receiver looks at in an entry as it was written. -/
def SdEntry.toRead (entry : SdEntry) : ReadEntry where
  type := entry.type
  serviceId := entry.serviceId
  eventgroupId := entry.eventgroupId

theorem readEntry_image (entry : SdEntry) (written rest : List UInt8) :
    readEntry (written ++ (entry.image ++ rest)) written.length = entry.toRead := by
  simp only [readEntry, byteAt_append_length, bigAt16_append_add, SdEntry.toRead,
    ReadEntry.mk.injEq]
  exact ⟨rfl, ofBig16_bigBytes16 entry.serviceId, ofBig16_bigBytes16 entry.eventgroupId⟩

namespace SomeIpSdMessage

theorem isSd_image (message : SomeIpSdMessage) (sessionId : UInt16) :
    IsSd (message.image sessionId) := by
  refine ⟨?_, rfl⟩
  rw [length_image, size]
  omega

theorem toNat_entriesLength_image (message : SomeIpSdMessage) (sessionId : UInt16) :
    entriesLength (message.image sessionId) = message.entries.length * 16 % 4294967296 :=
  congrArg UInt32.toNat (ofBig32_bigBytes32 (UInt32.ofNat (message.entries.length * 16)))

theorem entriesLength_image {message : SomeIpSdMessage} (hsize : message.size < 4294967296)
    (sessionId : UInt16) :
    entriesLength (message.image sessionId) = message.entries.length * 16 := by
  unfold size at hsize
  rw [toNat_entriesLength_image, Nat.mod_eq_of_lt (by omega)]

/-- What is read of one entry is read of all of them, in order, where their array starts. -/
theorem readEach_entries_image {β : Type} {read : List UInt8 → Nat → β} {value : SdEntry → β}
    {message : SomeIpSdMessage} (hread : ∀ entry ∈ message.entries, ∀ written rest,
      read (written ++ (entry.image ++ rest)) written.length = value entry) (sessionId : UInt16) :
    readEach read 16 message.entries.length (message.image sessionId) 24 =
      message.entries.map value := by
  rw [image, List.append_assoc, List.append_assoc]
  exact readEach_flatMap SdEntry.length_image hread (headerImage sessionId _ _) _

/-- Every entry of a message is read back from its bytes. -/
theorem readEntries_image {message : SomeIpSdMessage} (hsize : message.size < 4294967296)
    (sessionId : UInt16) :
    readEntries (message.image sessionId) = message.entries.map SdEntry.toRead := by
  have hwhole : wholeEntries (message.image sessionId) = message.entries.length := by
    rw [wholeEntries, entriesLength_image hsize, length_image, size]
    omega
  rw [readEntries, hwhole]
  exact readEach_entries_image (fun entry _ => readEntry_image entry) sessionId

end SomeIpSdMessage

/-- A subscribe acknowledgement on the wire. -/
def ackImage (sessionId serviceId eventgroupId : UInt16) : List UInt8 :=
  (SomeIpSdMessage.addSubscribeAck {} serviceId eventgroupId).image sessionId

/-- An acknowledgement is read back as its one entry and its session. -/
theorem read_ackImage (sessionId serviceId eventgroupId : UInt16) :
    IsSd (ackImage sessionId serviceId eventgroupId) ∧
      readSession (ackImage sessionId serviceId eventgroupId) = sessionId ∧
      readEntries (ackImage sessionId serviceId eventgroupId) =
        [⟨sdEntrySubscribeAck, serviceId, eventgroupId⟩] := by
  refine ⟨SomeIpSdMessage.isSd_image _ _, readSession_image _ _, ?_⟩
  exact SomeIpSdMessage.readEntries_image (Nat.le_of_ble_eq_true rfl) sessionId

end AutomotiveGateway.Someip
