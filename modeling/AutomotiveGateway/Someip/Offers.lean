import AutomotiveGateway.Someip.SdRoundTrip
import Mathlib.Data.List.Induction

/-!
# Offered services and their endpoints

An offer refers to its endpoint option by an index of one byte, which the list of
options outgrows. Where the number of options is written, a receiver that knows the
standard layout looks for the index of a second run.
-/

namespace AutomotiveGateway.Someip

open ByteOrder Memory

/-- The offer of a service that is registered at some index. -/
def offerEntry (svc : OfferedService) (index : Nat) : SdEntry where
  type := sdEntryOfferService
  serviceId := svc.serviceId
  instanceId := 0x0001
  indexFirst := UInt8.ofNat index
  numOpts := 1

/-- The option that holds the endpoint of a service. -/
def endpointOption (svc : OfferedService) : SdOptionIpv4 where
  ipv4Addr := svc.ipv4Addr
  port := svc.port

/-- Each service adds an offer and an option. -/
theorem offersMessage_eq (services : List OfferedService) :
    SomeIpSdService.offersMessage services =
      { entries := services.zipIdx.map fun step => offerEntry step.1 step.2
        options := services.map endpointOption } := by
  induction services using List.reverseRecOn with
  | nil => rfl
  | append_singleton services svc ih =>
      unfold SomeIpSdService.offersMessage at ih ⊢
      rw [List.foldl_append, ih]
      simp [SomeIpSdMessage.addOfferService, List.zipIdx_append, offerEntry, endpointOption]

theorem length_entries_offersMessage (services : List OfferedService) :
    (SomeIpSdService.offersMessage services).entries.length = services.length := by
  simp [offersMessage_eq]

/-! ## References to options -/

/-- The options that an entry's run designates. -/
def SomeIpSdMessage.optionRun (message : SomeIpSdMessage) (entry : SdEntry) : List SdOptionIpv4 :=
  (message.options.drop entry.indexFirst.toNat).take entry.numOpts.toNat

/-- In the message of `send_offers` the i-th entry offers the i-th service, and its run
is one option, with that service's address and port. -/
def SomeIpSdService.AnnouncesOwnEndpoints (service : SomeIpSdService) : Prop :=
  ∀ (i : Nat) (svc : OfferedService), service.offered[i]? = some svc →
    ∃ entry option, (offersMessage service.offered).entries[i]? = some entry ∧
      entry.type = sdEntryOfferService ∧ entry.serviceId = svc.serviceId ∧
      (offersMessage service.offered).optionRun entry = [option] ∧
      option.ipv4Addr = svc.ipv4Addr ∧ option.port = svc.port

/-- The i-th offer designates the option with index i modulo 256. -/
theorem optionRun_offerEntry {services : List OfferedService} {i : Nat} (hi : i < services.length)
    (svc : OfferedService) :
    ∃ wrapped, services[i % 256]? = some wrapped ∧
      (SomeIpSdService.offersMessage services).optionRun (offerEntry svc i) =
        [endpointOption wrapped] := by
  have hlt : i % 256 < services.length := Nat.lt_of_le_of_lt (Nat.mod_le i 256) hi
  refine ⟨services[i % 256], List.getElem?_eq_getElem hlt, ?_⟩
  have hindex : (UInt8.ofNat i).toNat = i % 256 := UInt8.toNat_ofNat'
  have hone : (1 : UInt8).toNat = 1 := rfl
  rw [SomeIpSdMessage.optionRun, offersMessage_eq]
  simp only [offerEntry, hindex, hone]
  rw [List.drop_eq_getElem_cons (by simpa using hlt), List.take_succ_cons, List.take_zero,
    List.getElem_map]

/-- The i-th offer announces the endpoint of the service with index i modulo 256. -/
theorem exists_announced {service : SomeIpSdService} {i : Nat} {svc : OfferedService}
    (hsvc : service.offered[i]? = some svc) :
    ∃ entry wrapped,
      (SomeIpSdService.offersMessage service.offered).entries[i]? = some entry ∧
      entry.type = sdEntryOfferService ∧ entry.serviceId = svc.serviceId ∧
      service.offered[i % 256]? = some wrapped ∧
      (SomeIpSdService.offersMessage service.offered).optionRun entry =
        [endpointOption wrapped] := by
  obtain ⟨hi, hget⟩ := List.getElem?_eq_some_iff.mp hsvc
  obtain ⟨wrapped, hwrapped, hrun⟩ := optionRun_offerEntry hi svc
  refine ⟨offerEntry svc i, wrapped, ?_, rfl, rfl, hwrapped, hrun⟩
  simp [offersMessage_eq, hi, hget]

theorem endpoint_of_announces {service : SomeIpSdService}
    (hannounces : service.AnnouncesOwnEndpoints) {i : Nat} {svc wrapped : OfferedService}
    (hsvc : service.offered[i]? = some svc) (hwrapped : service.offered[i % 256]? = some wrapped) :
    wrapped.ipv4Addr = svc.ipv4Addr ∧ wrapped.port = svc.port := by
  obtain ⟨entry, wrapped', hentry, _, _, hwrapped', hrun⟩ := exists_announced hsvc
  obtain ⟨entry', option, hentry', _, _, hrun', haddr, hport⟩ := hannounces i svc hsvc
  obtain rfl := Option.some.inj (hentry.symm.trans hentry')
  obtain rfl := Option.some.inj (hwrapped.symm.trans hwrapped')
  obtain rfl := List.singleton_inj.mp (hrun.symm.trans hrun')
  exact ⟨haddr, hport⟩

/-- Every offer has its own endpoint exactly when each service from index 256 on has the
endpoint of the service whose index is the same modulo 256. In particular this holds of
at most 256 services. -/
theorem announcesOwnEndpoints_iff (service : SomeIpSdService) :
    service.AnnouncesOwnEndpoints ↔
      ∀ (i : Nat) (svc wrapped : OfferedService), 256 ≤ i → service.offered[i]? = some svc →
        service.offered[i % 256]? = some wrapped →
        wrapped.ipv4Addr = svc.ipv4Addr ∧ wrapped.port = svc.port := by
  constructor
  · intro hannounces i svc wrapped _ hsvc hwrapped
    exact endpoint_of_announces hannounces hsvc hwrapped
  · intro hwraps i svc hsvc
    obtain ⟨entry, wrapped, hentry, htype, hservice, hwrapped, hrun⟩ := exists_announced hsvc
    refine ⟨entry, endpointOption wrapped, hentry, htype, hservice, hrun, ?_⟩
    by_cases hi : 256 ≤ i
    · exact hwraps i svc wrapped hi hsvc hwrapped
    · rw [Nat.mod_eq_of_lt (by omega), hsvc, Option.some.injEq] at hwrapped
      subst hwrapped
      exact ⟨rfl, rfl⟩

/-- With 257 services on different ports the last one is announced on the port of the
first. -/
theorem not_announcesOwnEndpoints_wrap :
    ¬ SomeIpSdService.AnnouncesOwnEndpoints
      { offered := (List.range 257).map fun i =>
          ⟨UInt16.ofNat i, 0x0100007F, UInt16.ofNat i⟩ } := by
  intro hannounces
  have hservice : ∀ i, i < 257 → ((List.range 257).map fun i =>
      OfferedService.mk (UInt16.ofNat i) 0x0100007F (UInt16.ofNat i))[i]? =
        some ⟨UInt16.ofNat i, 0x0100007F, UInt16.ofNat i⟩ := by
    intro i hi
    rw [List.getElem?_map, List.getElem?_range hi, Option.map_some]
  have hport := (endpoint_of_announces hannounces (hservice 256 (by decide))
    (hservice (256 % 256) (by decide))).2
  exact absurd hport (by decide)

end AutomotiveGateway.Someip
