import AutomotiveGateway.Someip.Offers

/-!
# Offers as an AUTOSAR receiver reads them

The decoder follows the layout of the standard: two option runs, their indices in the
bytes behind the type and their lengths in the two halves of the byte behind those.
The gateway writes the length of the first run where the index of the second belongs.
-/

namespace AutomotiveGateway.Someip

open ByteOrder Memory

/-- An entry in the layout of the standard. -/
structure AutosarEntry where
  type : UInt8
  indexFirstRun : Nat
  indexSecondRun : Nat
  numFirstRun : Nat
  numSecondRun : Nat
  serviceId : UInt16
  instanceId : UInt16
  majorVersion : UInt8
  ttl : UInt32
  minorVersion : UInt32
deriving DecidableEq, Repr

def autosarEntry (datagram : List UInt8) (pos : Nat) : AutosarEntry where
  type := byteAt datagram pos
  indexFirstRun := (byteAt datagram (pos + 1)).toNat
  indexSecondRun := (byteAt datagram (pos + 2)).toNat
  numFirstRun := (byteAt datagram (pos + 3) >>> 4).toNat
  numSecondRun := (byteAt datagram (pos + 3) &&& 0x0F).toNat
  serviceId := bigAt16 datagram (pos + 4)
  instanceId := bigAt16 datagram (pos + 6)
  majorVersion := byteAt datagram (pos + 8)
  ttl := ofBig32 0 (byteAt datagram (pos + 9)) (byteAt datagram (pos + 10))
    (byteAt datagram (pos + 11))
  minorVersion := bigAt32 datagram (pos + 12)

/-- An endpoint option in the layout of the standard. The address is given as `inet_addr`
leaves it in memory. -/
structure AutosarOption where
  length : UInt16
  type : UInt8
  ipv4Addr : UInt32
  protocol : UInt8
  port : UInt16
deriving DecidableEq, Repr

def autosarOption (datagram : List UInt8) (pos : Nat) : AutosarOption where
  length := bigAt16 datagram pos
  type := byteAt datagram (pos + 2)
  ipv4Addr := ofLittle32 (byteAt datagram (pos + 4)) (byteAt datagram (pos + 5))
    (byteAt datagram (pos + 6)) (byteAt datagram (pos + 7))
  protocol := byteAt datagram (pos + 9)
  port := bigAt16 datagram (pos + 10)

/-- What a receiver learns from an offer: the service, and the options of its two runs. -/
structure AutosarOffer where
  serviceId : UInt16
  firstRun : List AutosarOption
  secondRun : List AutosarOption
deriving DecidableEq, Repr

/-- The options designated by an entry. -/
def AutosarEntry.offer (options : List AutosarOption) (entry : AutosarEntry) : AutosarOffer where
  serviceId := entry.serviceId
  firstRun := (options.drop entry.indexFirstRun).take entry.numFirstRun
  secondRun := (options.drop entry.indexSecondRun).take entry.numSecondRun

/-- The options of a datagram, behind the array of its entries. -/
def autosarOptions (datagram : List UInt8) : List AutosarOption :=
  readEach autosarOption 12 (optionsLength datagram / 12) datagram (24 + entriesLength datagram + 4)

/-- The offers among the entries of a datagram. -/
def autosarOffers (datagram : List UInt8) : List AutosarOffer :=
  ((readEach autosarEntry 16 (entriesLength datagram / 16) datagram 24).filter
    fun entry => entry.type = sdEntryOfferService).map
      (AutosarEntry.offer (autosarOptions datagram))

/-- The receiver recovers the offered services from the datagram of `send_offers`, each
with its endpoint as the only option of the first run and with no second run. -/
def SomeIpSdService.AutosarReadable (service : SomeIpSdService) : Prop :=
  ∃ next datagram, service.sendOffers = some (next, [.sendto datagram sdMulticast]) ∧
    List.Forall₂
      (fun svc offer => offer.serviceId = svc.serviceId ∧ offer.secondRun = [] ∧
        ∃ option, offer.firstRun = [option] ∧ option.type = sdOptIpv4Endpoint ∧
          option.ipv4Addr = svc.ipv4Addr ∧ option.port = svc.port)
      service.offered (autosarOffers datagram)

/-! ## What the receiver gets to see -/

/-- What the standard layout makes of the gateway's entry. -/
def SdEntry.autosarView (entry : SdEntry) : AutosarEntry where
  type := entry.type
  indexFirstRun := entry.indexFirst.toNat
  indexSecondRun := (entry.numOpts <<< 4).toNat
  numFirstRun := 0
  numSecondRun := 0
  serviceId := entry.serviceId
  instanceId := entry.instanceId
  majorVersion := entry.majorVersion
  ttl := ofBig32 0 (entry.ttl >>> 16).toUInt8 (entry.ttl >>> 8).toUInt8 entry.ttl.toUInt8
  minorVersion := ofBig32 (entry.minorVersion >>> 8).toUInt8 entry.minorVersion.toUInt8
    (entry.eventgroupId >>> 8).toUInt8 entry.eventgroupId.toUInt8

theorem autosarEntry_image (entry : SdEntry) (written rest : List UInt8) :
    autosarEntry (written ++ (entry.image ++ rest)) written.length = entry.autosarView := by
  simp only [autosarEntry, byteAt_append_length, byteAt_append_add, bigAt16_append_add,
    bigAt32_append_add, SdEntry.autosarView, AutosarEntry.mk.injEq]
  -- the byte for both counts is always 0
  have hcounts : byteAt (entry.image ++ rest) 3 = 0 := rfl
  rw [hcounts]
  exact ⟨rfl, rfl, rfl, by decide, by decide, ofBig16_bigBytes16 entry.serviceId,
    ofBig16_bigBytes16 entry.instanceId, rfl, rfl, rfl⟩

/-- Whatever endpoints are offered, the receiver sees offers without any option. -/
theorem autosarOffers_image {services : List OfferedService}
    (hsize : (SomeIpSdService.offersMessage services).size < 4294967296) (sessionId : UInt16) :
    autosarOffers ((SomeIpSdService.offersMessage services).image sessionId) =
      services.map fun svc => ⟨svc.serviceId, [], []⟩ := by
  have hoffers : ∀ entry ∈ (SomeIpSdService.offersMessage services).entries.map
      SdEntry.autosarView, decide (entry.type = sdEntryOfferService) = true := by
    rw [offersMessage_eq, List.map_map]
    intro entry hentry
    obtain ⟨step, _, rfl⟩ := List.mem_map.mp hentry
    exact decide_eq_true rfl
  rw [autosarOffers, SomeIpSdMessage.entriesLength_image hsize,
    Nat.mul_div_cancel _ (by decide),
    SomeIpSdMessage.readEach_entries_image (fun entry _ => autosarEntry_image entry) sessionId,
    List.filter_eq_self.mpr hoffers, offersMessage_eq, List.map_map, List.map_map]
  conv_rhs => rw [← List.zipIdx_map_fst 0 services, List.map_map]
  apply List.map_congr_left
  intro step _
  simp [AutosarEntry.offer, SdEntry.autosarView, offerEntry]

theorem not_autosarReadable_of_size {service : SomeIpSdService} (hoffered : service.offered ≠ [])
    (hsize : (SomeIpSdService.offersMessage service.offered).size < 4294967296) :
    ¬ service.AutosarReadable := by
  rintro ⟨next, datagram, hsend, hread⟩
  have hnonempty : ¬ service.offered.isEmpty := by simpa using hoffered
  rw [SomeIpSdService.sendOffers_of_offered hnonempty, Option.some.injEq, Prod.mk.injEq,
    List.cons.injEq, SdAction.sendto.injEq] at hsend
  rw [← hsend.2.1.1, autosarOffers_image hsize] at hread
  obtain ⟨svc, services, hcons⟩ := List.exists_cons_of_ne_nil hoffered
  rw [hcons, List.map_cons, List.forall₂_cons] at hread
  obtain ⟨⟨_, _, option, hrun, _⟩, _⟩ := hread
  exact absurd hrun (by simp)

/-- No receiver of the standard recovers the endpoints of 1 to 256 offered services. -/
theorem not_autosarReadable (service : SomeIpSdService) (hpos : 1 ≤ service.offered.length)
    (hmax : service.offered.length ≤ 256) : ¬ service.AutosarReadable := by
  apply not_autosarReadable_of_size
  · exact List.ne_nil_of_length_pos hpos
  · have hoptions : (SomeIpSdService.offersMessage service.offered).options.length =
        service.offered.length := by
      simp [offersMessage_eq]
    rw [SomeIpSdMessage.size, length_entries_offersMessage, hoptions]
    omega

theorem not_autosarReadable_two :
    ¬ SomeIpSdService.AutosarReadable
      { offered := [⟨0x0101, 0x0A01A8C0, 30509⟩, ⟨0x0102, 0x0A01A8C0, 30510⟩] } :=
  not_autosarReadable _ (by decide) (by decide)

/-- The offer of a single service arrives without its endpoint. -/
theorem not_autosarReadable_demo :
    ¬ SomeIpSdService.AutosarReadable { offered := [⟨0x0101, 0x0A01A8C0, 30509⟩] } :=
  not_autosarReadable_of_size (by simp) (Nat.le_of_ble_eq_true rfl)

end AutomotiveGateway.Someip
