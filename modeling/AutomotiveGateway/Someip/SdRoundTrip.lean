import AutomotiveGateway.Someip.Subscriber

/-!
# Reading service discovery messages back

The fields of an entry and of an option are read from the positions at which they
were written. A message built by its member functions is recovered as a whole, its
lengths delimit its arrays, so no two such messages share their bytes.
-/

namespace AutomotiveGateway.Someip

open ByteOrder Memory

/-! ## One entry, one option -/

/-- The entry whose fields are at the positions `SdEntry::serialize` writes them to. -/
def readSdEntry (datagram : List UInt8) (pos : Nat) : SdEntry where
  type := byteAt datagram pos
  indexFirst := byteAt datagram (pos + 1)
  numOpts := byteAt datagram (pos + 2) >>> 4
  serviceId := bigAt16 datagram (pos + 4)
  instanceId := bigAt16 datagram (pos + 6)
  majorVersion := byteAt datagram (pos + 8)
  ttl := ofBig32 0 (byteAt datagram (pos + 9)) (byteAt datagram (pos + 10))
    (byteAt datagram (pos + 11))
  minorVersion := bigAt16 datagram (pos + 12)
  eventgroupId := bigAt16 datagram (pos + 14)

/-- The option whose fields are at the positions `SdOptionIpv4::serialize` writes them to. -/
def readSdOption (datagram : List UInt8) (pos : Nat) : SdOptionIpv4 where
  type := byteAt datagram (pos + 2)
  ipv4Addr := ofLittle32 (byteAt datagram (pos + 4)) (byteAt datagram (pos + 5))
    (byteAt datagram (pos + 6)) (byteAt datagram (pos + 7))
  protocol := byteAt datagram (pos + 9)
  port := bigAt16 datagram (pos + 10)

/-- The number of options fits its four bits and the time to live its three bytes. -/
structure SdEntry.Encodable (entry : SdEntry) : Prop where
  numOpts : entry.numOpts.toNat < 16
  ttl : entry.ttl.toNat < 16777216

/-- A count below 16 survives its place in the upper half of a byte. -/
theorem shiftRight_shiftLeft_nibble {n : UInt8} (hn : n.toNat < 16) : n <<< 4 >>> 4 = n := by
  apply UInt8.toNat_inj.mp
  simp [Nat.shiftLeft_eq, Nat.shiftRight_eq_div_pow]
  omega

/-- A word below 2^24 has no byte in front of its lower three. -/
theorem ofBig32_threeBytes {x : UInt32} (hx : x.toNat < 16777216) :
    ofBig32 0 (x >>> 16).toUInt8 (x >>> 8).toUInt8 x.toUInt8 = x := by
  have htop : (x >>> 24).toUInt8 = 0 := by
    apply UInt8.toNat_inj.mp
    simp [Nat.shiftRight_eq_div_pow]
    omega
  rw [← htop, ofBig32_bigBytes32]

theorem readSdEntry_image {entry : SdEntry} (hentry : entry.Encodable) (written rest : List UInt8) :
    readSdEntry (written ++ (entry.image ++ rest)) written.length = entry := by
  obtain ⟨type, indexFirst, numOpts, serviceId, instanceId, majorVersion, ttl, minorVersion,
    eventgroupId⟩ := entry
  simp only [readSdEntry, byteAt_append_length, byteAt_append_add, bigAt16_append_add,
    SdEntry.mk.injEq]
  exact ⟨rfl, rfl, shiftRight_shiftLeft_nibble hentry.numOpts, ofBig16_bigBytes16 serviceId,
    ofBig16_bigBytes16 instanceId, rfl, ofBig32_threeBytes hentry.ttl,
    ofBig16_bigBytes16 minorVersion, ofBig16_bigBytes16 eventgroupId⟩

theorem readSdOption_image (option : SdOptionIpv4) (written rest : List UInt8) :
    readSdOption (written ++ (option.image ++ rest)) written.length = option := by
  obtain ⟨type, ipv4Addr, protocol, port⟩ := option
  simp only [readSdOption, byteAt_append_add, bigAt16_append_add, SdOptionIpv4.mk.injEq]
  exact ⟨rfl, ofLittle32_littleBytes32 ipv4Addr, rfl, ofBig16_bigBytes16 port⟩

/-! ## A whole message -/

/-- The length field of the SOME/IP header. -/
def someipLength (datagram : List UInt8) : Nat := (bigAt32 datagram 4).toNat

/-- The entries in the array that the entries length delimits. -/
def readSdEntries (datagram : List UInt8) : List SdEntry :=
  readEach readSdEntry 16 (entriesLength datagram / 16) datagram 24

/-- The options in the array that the options length delimits. -/
def readSdOptions (datagram : List UInt8) : List SdOptionIpv4 :=
  readEach readSdOption 12 (optionsLength datagram / 12) datagram (24 + entriesLength datagram + 4)

namespace SomeIpSdMessage

/-- Its lengths and those of its arrays fit 32 bits, its fields their places. -/
structure Encodable (message : SomeIpSdMessage) : Prop where
  size : message.size < 4294967296
  entries : ∀ entry ∈ message.entries, entry.Encodable

theorem someipLength_image {message : SomeIpSdMessage} (hsize : message.size < 4294967296)
    (sessionId : UInt16) : someipLength (message.image sessionId) = message.size - 8 := by
  have hword : bigAt32 (message.image sessionId) 4 = UInt32.ofNat (message.size - 8) :=
    ofBig32_bigBytes32 _
  have hsmall : message.size - 8 < 4294967296 := by omega
  rw [someipLength, hword, UInt32.toNat_ofNat_of_lt' hsmall]

/-- What is in front of the options length, and what behind it. -/
theorem image_eq_append (message : SomeIpSdMessage) (sessionId : UInt16) :
    ∃ written, written.length = 24 + message.entries.length * 16 ∧
      message.image sessionId = written ++
        (bigBytes32 (UInt32.ofNat (message.options.length * 12)) ++
          message.options.flatMap SdOptionIpv4.image) := by
  refine ⟨headerImage sessionId message.size (message.entries.length * 16) ++
    message.entries.flatMap SdEntry.image, ?_, ?_⟩
  · rw [List.length_append, length_flatMap_of_const SdEntry.length_image]
    rfl
  · simp only [image, size, List.append_assoc]

theorem optionsLength_image {message : SomeIpSdMessage} (hsize : message.size < 4294967296)
    (sessionId : UInt16) :
    optionsLength (message.image sessionId) = message.options.length * 12 := by
  obtain ⟨written, hwritten, himage⟩ := message.image_eq_append sessionId
  rw [optionsLength, entriesLength_image hsize, himage, ← hwritten, bigAt32_append_length]
  have hword : bigAt32 (bigBytes32 (UInt32.ofNat (message.options.length * 12)) ++
      message.options.flatMap SdOptionIpv4.image) 0 = UInt32.ofNat (message.options.length * 12) :=
    ofBig32_bigBytes32 _
  have hsmall : message.options.length * 12 < 4294967296 := by
    unfold size at hsize
    omega
  rw [hword, UInt32.toNat_ofNat_of_lt' hsmall]

theorem readSdEntries_image {message : SomeIpSdMessage} (hencodable : message.Encodable)
    (sessionId : UInt16) : readSdEntries (message.image sessionId) = message.entries := by
  have hread : ∀ entry ∈ message.entries, ∀ written rest,
      readSdEntry (written ++ (entry.image ++ rest)) written.length = id entry :=
    fun entry hmem => readSdEntry_image (hencodable.entries entry hmem)
  rw [readSdEntries, entriesLength_image hencodable.size, Nat.mul_div_cancel _ (by decide),
    readEach_entries_image hread, List.map_id]

theorem readSdOptions_image {message : SomeIpSdMessage} (hsize : message.size < 4294967296)
    (sessionId : UInt16) : readSdOptions (message.image sessionId) = message.options := by
  obtain ⟨written, hwritten, himage⟩ := message.image_eq_append sessionId
  have hread := @readEach_flatMap _ _ _ _ SdOptionIpv4.length_image readSdOption id message.options
    (fun option _ => readSdOption_image option)
    (written ++ bigBytes32 (UInt32.ofNat (message.options.length * 12))) []
  rw [List.map_id, List.append_nil, List.length_append, hwritten, length_bigBytes32] at hread
  rw [readSdOptions, optionsLength_image hsize, entriesLength_image hsize,
    Nat.mul_div_cancel _ (by decide), himage, ← List.append_assoc]
  exact hread

/-- A message is recovered from its bytes, with its session. -/
theorem image_injective {message message' : SomeIpSdMessage} {sessionId sessionId' : UInt16}
    (hmessage : message.Encodable) (hmessage' : message'.Encodable)
    (himage : message.image sessionId = message'.image sessionId') :
    message = message' ∧ sessionId = sessionId' := by
  have hentries := readSdEntries_image hmessage sessionId
  have hoptions := readSdOptions_image hmessage.size sessionId
  have hsession := readSession_image message sessionId
  rw [himage, readSdEntries_image hmessage'] at hentries
  rw [himage, readSdOptions_image hmessage'.size] at hoptions
  rw [himage, readSession_image] at hsession
  obtain ⟨entries, options⟩ := message
  obtain ⟨entries', options'⟩ := message'
  exact ⟨congrArg₂ SomeIpSdMessage.mk hentries.symm hoptions.symm, hsession.symm⟩

end SomeIpSdMessage

/-! ## Messages built by the member functions -/

/-- A call that adds to a message. -/
inductive SdAddition
  | offerService (serviceId : UInt16) (ipv4Addr : UInt32) (port : UInt16) (ttl : UInt32)
  | subscribeAck (serviceId eventgroupId : UInt16)

/-- The time to live that a call asks for fits its three bytes. -/
def SdAddition.TtlFits : SdAddition → Prop
  | offerService _ _ _ ttl => ttl.toNat < 16777216
  | subscribeAck _ _ => True

namespace SomeIpSdMessage

def add (message : SomeIpSdMessage) : SdAddition → SomeIpSdMessage
  | .offerService serviceId ipv4Addr port ttl =>
      message.addOfferService serviceId ipv4Addr port ttl
  | .subscribeAck serviceId eventgroupId => message.addSubscribeAck serviceId eventgroupId

/-- The message after a sequence of calls. -/
def build (additions : List SdAddition) : SomeIpSdMessage := additions.foldl add {}

/-- What the calls keep of a message's entries holds of all entries of a built message. -/
theorem forall_entries_build {property : SdEntry → Prop} {additions : List SdAddition}
    (hoffer : ∀ serviceId ipv4Addr port ttl indexFirst,
      .offerService serviceId ipv4Addr port ttl ∈ additions →
      property { type := sdEntryOfferService, serviceId, instanceId := 0x0001, ttl, indexFirst,
                 numOpts := 1 })
    (hack : ∀ serviceId eventgroupId, property
      { type := sdEntrySubscribeAck, serviceId, instanceId := 0x0001, eventgroupId }) :
    ∀ entry ∈ (build additions).entries, property entry := by
  have hnone : ∀ entry ∈ ({} : SomeIpSdMessage).entries, property entry :=
    fun _ hentry => absurd hentry List.not_mem_nil
  refine List.foldlRecOn (motive := fun message => ∀ entry ∈ message.entries, property entry)
    additions add hnone ?_
  intro message hmessage addition hmem entry hentry
  cases addition with
  | offerService serviceId ipv4Addr port ttl =>
      rcases List.mem_append.mp hentry with hearlier | hnew
      · exact hmessage entry hearlier
      · rw [List.mem_singleton.mp hnew]
        exact hoffer serviceId ipv4Addr port ttl _ hmem
  | subscribeAck serviceId eventgroupId =>
      rcases List.mem_append.mp hentry with hearlier | hnew
      · exact hmessage entry hearlier
      · rw [List.mem_singleton.mp hnew]
        exact hack serviceId eventgroupId

theorem encodable_build {additions : List SdAddition}
    (httl : ∀ addition ∈ additions, addition.TtlFits)
    (hsize : (build additions).size < 4294967296) : (build additions).Encodable where
  size := hsize
  entries := forall_entries_build
    (fun _ _ _ _ _ hmem => ⟨Nat.le_of_ble_eq_true rfl, httl _ hmem⟩)
    (fun _ _ => ⟨Nat.le_of_ble_eq_true rfl, Nat.le_of_ble_eq_true rfl⟩)

/-- Built messages fill their buffers exactly, their three length fields delimit the
message and its arrays, and entries, options and session are read back from where they
were written. Two of them with the same bytes are the same message. -/
theorem serialize_invertible (additions : List SdAddition) (sessionId : UInt16)
    (httl : ∀ addition ∈ additions, addition.TtlFits)
    (hsize : (build additions).size < 4294967296) :
    (∃ bytes, (build additions).serialize sessionId = some bytes ∧
      (∀ buf, buf.length = (build additions).size →
        (build additions).serializeWrites sessionId buf = some (bytes, buf.length)) ∧
      bytes.length = (build additions).size ∧
      someipLength bytes = bytes.length - 8 ∧
      entriesLength bytes = (build additions).entries.length * 16 ∧
      optionsLength bytes = (build additions).options.length * 12 ∧
      24 + entriesLength bytes + 4 + optionsLength bytes = bytes.length ∧
      readSession bytes = sessionId ∧
      readSdEntries bytes = (build additions).entries ∧
      readSdOptions bytes = (build additions).options) ∧
    (∀ additions' sessionId', (∀ addition ∈ additions', addition.TtlFits) →
      (build additions').size < 4294967296 →
      (build additions).serialize sessionId = (build additions').serialize sessionId' →
      build additions = build additions' ∧ sessionId = sessionId') := by
  have hencodable := encodable_build httl hsize
  have hlength := (build additions).length_image sessionId
  have hentries := entriesLength_image hsize sessionId
  have hoptions := optionsLength_image hsize sessionId
  constructor
  · refine ⟨_, serialize_eq _ sessionId, ?_, hlength, ?_, hentries, hoptions, ?_,
      readSession_image _ sessionId, readSdEntries_image hencodable sessionId,
      readSdOptions_image hsize sessionId⟩
    · intro buf hbuf
      rw [serializeWrites_eq _ sessionId hbuf, hbuf]
    · rw [someipLength_image hsize, hlength]
    · rw [hentries, hoptions, hlength, size]
      omega
  · intro additions' sessionId' httl' hsize' hbytes
    rw [serialize_eq, serialize_eq, Option.some.injEq] at hbytes
    exact image_injective hencodable (encodable_build httl' hsize') hbytes

/-- An offer and an acknowledgement in one message are read back. -/
theorem serialize_invertible_offerAndAck :
    ∃ bytes,
      (build [.offerService 0x0101 0x0A01A8C0 30509 3, .subscribeAck 0x0101 1]).serialize 7 =
        some bytes ∧
      bytes.length = 72 ∧ readSession bytes = 7 ∧
      readSdEntries bytes =
        [{ type := sdEntryOfferService, serviceId := 0x0101, instanceId := 0x0001, numOpts := 1 },
          { type := sdEntrySubscribeAck, serviceId := 0x0101, instanceId := 0x0001,
            eventgroupId := 1 }] ∧
      readSdOptions bytes = [{ ipv4Addr := 0x0A01A8C0, port := 30509 }] := by
  have httl : ∀ addition ∈ [SdAddition.offerService 0x0101 0x0A01A8C0 30509 3,
      .subscribeAck 0x0101 1], addition.TtlFits := by
    simp [SdAddition.TtlFits]
  obtain ⟨⟨bytes, hserialize, _, hlength, _, _, _, _, hsession, hentries, hoptions⟩, _⟩ :=
    serialize_invertible _ 7 httl (Nat.le_of_ble_eq_true rfl)
  exact ⟨bytes, hserialize, hlength, hsession, hentries, hoptions⟩

end SomeIpSdMessage

end AutomotiveGateway.Someip
