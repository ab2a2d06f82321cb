import AutomotiveGateway.Foundation.InOrder
import AutomotiveGateway.Someip.ServiceDiscovery

/-!
# The service discovery service

The service answers the subscriptions in a datagram one by one. Every byte it reads
is checked against the end of the datagram, so a result shows that it stayed inside.
-/

namespace AutomotiveGateway.Someip

open ByteOrder Memory

/-- A socket address, its port and address in network order. -/
structure SockaddrIn where
  sinFamily : UInt16 := 0
  sinPort : UInt16 := 0
  sinAddr : UInt32 := 0
deriving DecidableEq, Repr

structure OfferedService where
  serviceId : UInt16
  ipv4Addr : UInt32
  port : UInt16
deriving DecidableEq, Repr

structure Subscriber where
  addr : SockaddrIn
  serviceId : UInt16
  eventgroupId : UInt16
deriving DecidableEq, Repr

/-- The state of the service. Of the subscription callback only its presence matters. -/
structure SomeIpSdService where
  session : UInt16 := 1
  offered : List OfferedService := []
  subscribers : List Subscriber := []
  onSubscribe : Bool := false
deriving DecidableEq, Repr

/-- What the service does towards the outside. -/
inductive SdAction
  | sendto (data : List UInt8) (dest : SockaddrIn)
  | onSubscribe (sub : Subscriber)
deriving DecidableEq, Repr

/-- `SOMEIP_SD_MULTICAST` and `SOMEIP_SD_PORT`, as `inet_addr` and `htons` leave them. -/
def sdMulticast : SockaddrIn where
  sinFamily := 2
  sinPort := htons 30490
  sinAddr := ofLittle32 224 224 224 245

namespace SomeIpSdService

def offerService (service : SomeIpSdService) (serviceId : UInt16) (ipv4Addr : UInt32)
    (port : UInt16) : SomeIpSdService :=
  { service with offered := service.offered ++ [{ serviceId, ipv4Addr, port }] }

def sendOffers (service : SomeIpSdService) : Option (SomeIpSdService × List SdAction) :=
  if service.offered.isEmpty then some (service, [])
  else do
    let sdMsg := service.offered.foldl
      (fun message svc => message.addOfferService svc.serviceId svc.ipv4Addr svc.port 3)
      ({} : SomeIpSdMessage)
    let bytes ← sdMsg.serialize service.session
    return ({ service with session := service.session + 1 }, [.sendto bytes sdMulticast])

def sendSubscribeAck (service : SomeIpSdService) (dest : SockaddrIn)
    (serviceId eventgroupId : UInt16) : Option (SomeIpSdService × List SdAction) := do
  let ack := SomeIpSdMessage.addSubscribeAck {} serviceId eventgroupId
  let bytes ← ack.serialize service.session
  return ({ service with session := service.session + 1 }, [.sendto bytes dest])

/-- One iteration of the loop over the entries. -/
def handleEntry (service : SomeIpSdService) (buf : List UInt8) (sender : SockaddrIn)
    (pos : Nat) : Option (SomeIpSdService × List SdAction) := do
  let entryType ← load buf pos
  let entrySvcId ← loadLittle16 buf (pos + 4)
  let eventgroupId ← loadLittle16 buf (pos + 14)
  if entryType = sdEntrySubscribeEventgrp then
    let sub : Subscriber := ⟨sender, ntohs entrySvcId, ntohs eventgroupId⟩
    let stored := { service with subscribers := service.subscribers ++ [sub] }
    let acked ← stored.sendSubscribeAck sender (ntohs entrySvcId) (ntohs eventgroupId)
    return (acked.1, acked.2 ++ if service.onSubscribe then [.onSubscribe sub] else [])
  else return (service, [])

/-- The loop over the entries. -/
def handleEntries (service : SomeIpSdService) (buf : List UInt8) (sender : SockaddrIn)
    (entriesEnd pos : Nat) : Option (SomeIpSdService × List SdAction) :=
  if pos + 16 ≤ entriesEnd ∧ pos + 16 ≤ buf.length then do
    let handled ← service.handleEntry buf sender pos
    let rest ← handled.1.handleEntries buf sender entriesEnd (pos + 16)
    return (rest.1, handled.2 ++ rest.2)
  else some (service, [])
termination_by buf.length - pos

/-- Handle a datagram of `buf.length` bytes. With a 64-bit `size_t` the end of the
announced entries does not wrap. -/
def handleSdMessage (service : SomeIpSdService) (buf : List UInt8) (sender : SockaddrIn) :
    Option (SomeIpSdService × List SdAction) :=
  if buf.length < 28 then some (service, [])
  else do
    let svcId := ofBig16 (← load buf 0) (← load buf 1)
    let metId := ofBig16 (← load buf 2) (← load buf 3)
    if svcId ≠ 0xFFFF ∨ metId ≠ 0x8100 then return (service, [])
    else
      let entriesLen ← loadLittle32 buf 20
      service.handleEntries buf sender (24 + (ntohl entriesLen).toNat) 24

/-- Receive into a buffer of 1500 bytes; a longer datagram is cut off. -/
def onReadable (service : SomeIpSdService) (received : Option (List UInt8 × SockaddrIn)) :
    Option (SomeIpSdService × List SdAction) :=
  match received with
  | none => some (service, [])
  | some (datagram, sender) => service.handleSdMessage (datagram.take 1500) sender

/-! ## What a subscription does -/

/-- Record a subscription and acknowledge it to its sender. -/
def subscribe (service : SomeIpSdService) (sub : Subscriber) :
    SomeIpSdService × List SdAction :=
  ({ service with
      subscribers := service.subscribers ++ [sub]
      session := service.session + 1 },
    .sendto (ackImage service.session sub.serviceId sub.eventgroupId) sub.addr ::
      if service.onSubscribe then [.onSubscribe sub] else [])

def subscribeAll (service : SomeIpSdService) : List Subscriber → SomeIpSdService × List SdAction
  | [] => (service, [])
  | sub :: subs =>
      let first := service.subscribe sub
      let rest := first.1.subscribeAll subs
      (rest.1, first.2 ++ rest.2)

/-- Several subscriptions are recorded in order and acknowledged with consecutive
sessions. -/
theorem subscribeAll_eq (service : SomeIpSdService) (subs : List Subscriber) :
    service.subscribeAll subs =
      ({ service with
          subscribers := service.subscribers ++ subs
          session := service.session + UInt16.ofNat subs.length },
        subs.zipIdx.flatMap fun step =>
          .sendto (ackImage (service.session + UInt16.ofNat step.2) step.1.serviceId
              step.1.eventgroupId) step.1.addr ::
            if service.onSubscribe then [.onSubscribe step.1] else []) := by
  induction subs generalizing service with
  | nil => simp [subscribeAll]
  | cons sub subs ih =>
      rw [subscribeAll, ih]
      simp only [subscribe, Numbering.add_one_add_ofNat, List.append_assoc, List.singleton_append,
        List.length_cons, List.zipIdx_cons, List.flatMap_cons, List.zipIdx_succ, List.flatMap_map]
      simp
      rfl

end SomeIpSdService

/-- The subscription an entry asks for, if it is of that type. -/
def ReadEntry.subscriber? (entry : ReadEntry) (sender : SockaddrIn) : Option Subscriber :=
  if entry.type = sdEntrySubscribeEventgrp then
    some ⟨sender, entry.serviceId, entry.eventgroupId⟩
  else none

/-- The subscriptions in a datagram, in order. -/
def subscriptions (datagram : List UInt8) (sender : SockaddrIn) : List Subscriber :=
  (readEntries datagram).filterMap fun entry => entry.subscriber? sender

namespace SomeIpSdService

/-! ## The loop over the entries -/

theorem sendSubscribeAck_eq (service : SomeIpSdService) (dest : SockaddrIn)
    (serviceId eventgroupId : UInt16) :
    service.sendSubscribeAck dest serviceId eventgroupId =
      some ({ service with session := service.session + 1 },
        [.sendto (ackImage service.session serviceId eventgroupId) dest]) := by
  rw [sendSubscribeAck, SomeIpSdMessage.serialize_eq]
  rfl

/-- An entry that lies in the datagram is read without leaving it. -/
theorem handleEntry_eq (service : SomeIpSdService) {buf : List UInt8} (sender : SockaddrIn)
    {pos : Nat} (hfits : pos + 16 ≤ buf.length) :
    service.handleEntry buf sender pos =
      some (service.subscribeAll ((readEntry buf pos).subscriber? sender).toList) := by
  obtain ⟨svc, hsvc, hsvcId⟩ := loadLittle16_of_le buf (pos + 4) (by omega)
  obtain ⟨evg, hevg, hevgId⟩ := loadLittle16_of_le buf (pos + 14) (by omega)
  have hload := load_of_lt (Nat.lt_of_lt_of_le (Nat.lt_add_of_pos_right (by decide)) hfits)
  have hread : (readEntry buf pos).type = byteAt buf pos := rfl
  simp only [handleEntry, hload, hsvc, hevg, hsvcId, hevgId, sendSubscribeAck_eq,
    Option.bind_eq_bind, Option.bind_some, ReadEntry.subscriber?, hread]
  by_cases htype : byteAt buf pos = sdEntrySubscribeEventgrp
  · rw [if_pos htype, if_pos htype]
    simp [subscribeAll, subscribe, readEntry]
  · rw [if_neg htype, if_neg htype]
    rfl

/-- The loop answers the subscriptions among the whole entries that fit both in the
announced array and in the datagram. -/
theorem handleEntries_eq (service : SomeIpSdService) {buf : List UInt8} (sender : SockaddrIn)
    {entriesEnd pos : Nat} (hstart : pos ≤ buf.length) (hend : pos ≤ entriesEnd) :
    service.handleEntries buf sender entriesEnd pos =
      some (service.subscribeAll
        ((List.range (min (entriesEnd - pos) (buf.length - pos) / 16)).filterMap fun i =>
          (readEntry buf (pos + 16 * i)).subscriber? sender)) := by
  generalize hcount : min (entriesEnd - pos) (buf.length - pos) / 16 = count
  induction count generalizing service pos with
  | zero =>
      rw [handleEntries, if_neg (by omega)]
      rfl
  | succ count ih =>
      have hrest := fun service => @ih service (pos + 16) (by omega) (by omega) (by omega)
      have hfirst : ∀ i, pos + 16 * (i + 1) = pos + 16 + 16 * i := by omega
      rw [handleEntries, if_pos (by omega), service.handleEntry_eq sender (by omega),
        List.range_succ_eq_map, List.filterMap_cons, List.filterMap_map]
      simp only [hrest, Option.bind_eq_bind, Option.bind_some, Function.comp_def, hfirst,
        Nat.mul_zero, Nat.add_zero]
      cases (readEntry buf pos).subscriber? sender with
      | none => rfl
      | some sub => simp [subscribeAll]

/-- Only the first four bytes decide whether a long enough datagram is handled. -/
theorem isSd_iff {buf : List UInt8} (hlen : 28 ≤ buf.length) :
    IsSd buf ↔ ofBig16 (byteAt buf 0) (byteAt buf 1) = 0xFFFF ∧
      ofBig16 (byteAt buf 2) (byteAt buf 3) = 0x8100 := by
  have hfour : 4 ≤ buf.length := by omega
  obtain ⟨b₀, b₁, b₂, b₃, rest, rfl⟩ := exists_cons₄ hfour
  have hservice : (0xFFFF : UInt16) = ofBig16 0xFF 0xFF := by decide
  have hmethod : (0x8100 : UInt16) = ofBig16 0x81 0x00 := by decide
  rw [hservice, hmethod, ofBig16_inj, ofBig16_inj, IsSd]
  simp [byteAt] at hlen ⊢
  tauto

theorem handleSdMessage_eq (service : SomeIpSdService) (buf : List UInt8) (sender : SockaddrIn) :
    service.handleSdMessage buf sender =
      some
        (if IsSd buf then service.subscribeAll (subscriptions buf sender)
        else (service, [])) := by
  by_cases hshort : buf.length < 28
  · rw [handleSdMessage, if_pos hshort, if_neg (fun hsd => by have := hsd.1; omega)]
  have hlen : 28 ≤ buf.length := by omega
  obtain ⟨entriesLen, hload, hentries⟩ := loadLittle32_of_le buf 20 (by omega)
  rw [handleSdMessage, if_neg hshort]
  have hbyte : ∀ offset, offset < 4 → load buf offset = some (byteAt buf offset) :=
    fun offset hoffset => load_of_lt (by omega)
  simp only [hbyte 0 (by decide), hbyte 1 (by decide), hbyte 2 (by decide), hbyte 3 (by decide),
    hload, Option.bind_eq_bind, Option.bind_some, hentries]
  by_cases hsd : IsSd buf
  · obtain ⟨hservice, hmethod⟩ := (isSd_iff hlen).mp hsd
    rw [if_neg (by simp [hservice, hmethod]), if_pos hsd,
      service.handleEntries_eq sender (by omega) (by omega), Nat.add_sub_cancel_left]
    simp only [subscriptions, readEntries, wholeEntries, entriesLength, List.filterMap_map,
      Function.comp_def]
  · have hother : ofBig16 (byteAt buf 0) (byteAt buf 1) ≠ 0xFFFF ∨
        ofBig16 (byteAt buf 2) (byteAt buf 3) ≠ 0x8100 := by
      rw [isSd_iff hlen] at hsd
      tauto
    rw [if_pos hother, if_neg hsd]
    rfl

theorem exists_onReadable (service : SomeIpSdService)
    (received : Option (List UInt8 × SockaddrIn)) :
    ∃ next actions, service.onReadable received = some (next, actions) := by
  cases received with
  | none => exact ⟨service, [], rfl⟩
  | some datagram => exact ⟨_, _, service.handleSdMessage_eq (datagram.1.take 1500) datagram.2⟩

/-- The message that offers services in order. -/
def offersMessage (services : List OfferedService) : SomeIpSdMessage :=
  services.foldl
    (fun message svc => message.addOfferService svc.serviceId svc.ipv4Addr svc.port 3) {}

theorem sendOffers_of_isEmpty {service : SomeIpSdService} (hempty : service.offered.isEmpty) :
    service.sendOffers = some (service, []) := if_pos hempty

theorem sendOffers_of_offered {service : SomeIpSdService} (hoffered : ¬ service.offered.isEmpty) :
    service.sendOffers = some ({ service with session := service.session + 1 },
      [.sendto ((offersMessage service.offered).image service.session) sdMulticast]) := by
  rw [sendOffers, if_neg hoffered]
  simp only [SomeIpSdMessage.serialize_eq]
  rfl

theorem exists_sendOffers (service : SomeIpSdService) :
    ∃ next actions, service.sendOffers = some (next, actions) := by
  by_cases hempty : service.offered.isEmpty
  · exact ⟨_, _, sendOffers_of_isEmpty hempty⟩
  · exact ⟨_, _, sendOffers_of_offered hempty⟩

/-- Every datagram is handled without reading a byte behind its end. One that is no SD
message changes and sends nothing. Of any other the subscriptions among its whole
entries are recorded in order, behind the earlier ones, and each is acknowledged to
its sender, with consecutive sessions. An acknowledgement is read back as the service
and the eventgroup it was made for. -/
theorem handleSdMessage_answers (service : SomeIpSdService) (buf : List UInt8)
    (sender : SockaddrIn) :
    service.handleSdMessage buf sender =
      some (if IsSd buf then
        ({ service with
            subscribers := service.subscribers ++ subscriptions buf sender
            session := service.session + UInt16.ofNat (subscriptions buf sender).length },
          (subscriptions buf sender).zipIdx.flatMap fun step =>
            .sendto (ackImage (service.session + UInt16.ofNat step.2) step.1.serviceId
                step.1.eventgroupId) sender ::
              if service.onSubscribe then [.onSubscribe step.1] else [])
        else (service, [])) ∧
    ∀ sessionId serviceId eventgroupId,
      IsSd (ackImage sessionId serviceId eventgroupId) ∧
      readSession (ackImage sessionId serviceId eventgroupId) = sessionId ∧
      readEntries (ackImage sessionId serviceId eventgroupId) =
        [⟨sdEntrySubscribeAck, serviceId, eventgroupId⟩] := by
  refine ⟨?_, read_ackImage⟩
  have haddr : ∀ step ∈ (subscriptions buf sender).zipIdx, step.1.addr = sender := by
    intro step hstep
    obtain ⟨entry, _, hentry⟩ := List.mem_filterMap.mp (List.fst_mem_of_mem_zipIdx hstep)
    rw [ReadEntry.subscriber?] at hentry
    split at hentry
    · rw [← Option.some.inj hentry]
    · exact absurd hentry (by simp)
  rw [handleSdMessage_eq, subscribeAll_eq]
  by_cases hsd : IsSd buf
  · rw [if_pos hsd, if_pos hsd]
    refine congrArg (fun actions => some (_, actions)) (List.flatMap_congr ?_)
    intro step hstep
    rw [haddr step hstep]
  · rw [if_neg hsd, if_neg hsd]

end SomeIpSdService

end AutomotiveGateway.Someip
