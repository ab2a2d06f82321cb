import AutomotiveGateway.Someip.Receivers
import AutomotiveGateway.Someip.SdRoundTrip

/-!
# The gateway's own multicast traffic

The service discovery socket is bound to the group and port the gateway sends to. The
entries the service looks at in one of its own datagrams, whole or cut off, are entries
that were written as such, and none of them asks for a subscription.
-/

namespace AutomotiveGateway.Someip

open ByteOrder Memory

theorem readEntry_take {datagram : List UInt8} {len pos : Nat} (hpos : pos + 16 ≤ len) :
    readEntry (datagram.take len) pos = readEntry datagram pos := by
  rw [readEntry, byteAt_take (by omega), bigAt16_take (by omega), bigAt16_take (by omega),
    readEntry]

/-- Wherever a message is cut off, the parser sees no entry that was not written. -/
theorem mem_entries_of_mem_readEntries {message : SomeIpSdMessage} {sessionId : UInt16} {len : Nat}
    (hlong : 28 ≤ ((message.image sessionId).take len).length) {entry : ReadEntry}
    (hentry : entry ∈ readEntries ((message.image sessionId).take len)) :
    entry ∈ message.entries.map SdEntry.toRead := by
  rw [List.length_take] at hlong
  -- the entries length may wrap, but never grows by that
  have hentries : entriesLength ((message.image sessionId).take len) ≤
      message.entries.length * 16 := by
    rw [entriesLength, bigAt32_take (by omega), ← entriesLength,
      SomeIpSdMessage.toNat_entriesLength_image]
    exact Nat.mod_le _ _
  obtain ⟨i, hi, rfl⟩ := List.mem_map.mp hentry
  rw [List.mem_range, wholeEntries, List.length_take] at hi
  rw [readEntry_take (by omega),
    ← SomeIpSdMessage.readEach_entries_image (fun entry _ => readEntry_image entry) sessionId]
  exact List.mem_map_of_mem (List.mem_range.mpr (by omega))

/-- The service discovery service does not react to a datagram. -/
def SomeIpSdService.Ignores (service : SomeIpSdService) (datagram : List UInt8)
    (sender : SockaddrIn) : Prop :=
  service.handleSdMessage datagram sender = some (service, [])

theorem SomeIpSdService.ignores_of_subscriptions {service : SomeIpSdService}
    {datagram : List UInt8} {sender : SockaddrIn}
    (hnone : IsSd datagram → subscriptions datagram sender = []) :
    service.Ignores datagram sender := by
  rw [Ignores, handleSdMessage_eq]
  by_cases hsd : IsSd datagram
  · rw [if_pos hsd, hnone hsd, subscribeAll]
  · rw [if_neg hsd]

/-- A message without subscribe entries is ignored, whole or cut off. -/
theorem SomeIpSdService.ignores_image (service : SomeIpSdService) {message : SomeIpSdMessage}
    (hmessage : ∀ entry ∈ message.entries, entry.type ≠ sdEntrySubscribeEventgrp)
    (sessionId : UInt16) (len : Nat) (sender : SockaddrIn) :
    service.Ignores ((message.image sessionId).take len) sender := by
  apply ignores_of_subscriptions
  intro hsd
  rw [subscriptions, List.filterMap_eq_nil_iff]
  intro entry hentry
  obtain ⟨written, hwritten, rfl⟩ := List.mem_map.mp (mem_entries_of_mem_readEntries hsd.1 hentry)
  exact if_neg (hmessage written hwritten)

/-- A datagram shorter than a service discovery header is ignored. -/
theorem SomeIpSdService.ignores_short (service : SomeIpSdService) {datagram : List UInt8}
    (hshort : datagram.length < 28) (sender : SockaddrIn) : service.Ignores datagram sender :=
  ignores_of_subscriptions fun hsd => absurd hsd.1 (by omega)

theorem type_ne_subscribe_build {additions : List SdAddition} :
    ∀ entry ∈ (SomeIpSdMessage.build additions).entries,
      entry.type ≠ sdEntrySubscribeEventgrp := by
  have hoffer : sdEntryOfferService ≠ sdEntrySubscribeEventgrp := by decide
  have hack : sdEntrySubscribeAck ≠ sdEntrySubscribeEventgrp := by decide
  exact SomeIpSdMessage.forall_entries_build (fun _ _ _ _ _ _ => hoffer) (fun _ _ => hack)

theorem SomeIpSdService.offersMessage_eq_build (services : List OfferedService) :
    offersMessage services = SomeIpSdMessage.build
      (services.map fun svc => .offerService svc.serviceId svc.ipv4Addr svc.port 3) := by
  rw [offersMessage, SomeIpSdMessage.build, List.foldl_map]
  rfl

/-- Every datagram of the gateway itself, or any prefix of it, leaves the service as it is
and is not answered: the offers of a service with any list of services and any session,
its acknowledgements of any subscription, and the float notifications of any ids, session
and bits. -/
theorem SomeIpSdService.ignores_ownTraffic (service : SomeIpSdService) (sender : SockaddrIn) :
    (∀ offering : SomeIpSdService, ∃ next actions, offering.sendOffers = some (next, actions) ∧
      ∀ sent ∈ actions.filterMap SdAction.sent?, ∀ len,
        service.Ignores (sent.1.take len) sender) ∧
    (∀ (acking : SomeIpSdService) dest serviceId eventgroupId, ∃ next actions,
      acking.sendSubscribeAck dest serviceId eventgroupId = some (next, actions) ∧
      ∀ sent ∈ actions.filterMap SdAction.sent?, ∀ len,
        service.Ignores (sent.1.take len) sender) ∧
    (∀ serviceId methodId sessionId value buf, ∃ out count,
      (SomeIpMessage.makeFloatNotification serviceId methodId sessionId value).serializeInto buf =
        some (out, count) ∧
      ∀ len, service.Ignores ((out.take count).take len) sender) := by
  refine ⟨?_, ?_, ?_⟩
  · intro offering
    by_cases hempty : offering.offered.isEmpty
    · refine ⟨_, _, sendOffers_of_isEmpty hempty, ?_⟩
      intro sent hsent
      exact absurd hsent List.not_mem_nil
    · refine ⟨_, _, sendOffers_of_offered hempty, ?_⟩
      intro sent hsent len
      rw [List.mem_singleton.mp hsent, offersMessage_eq_build]
      exact service.ignores_image type_ne_subscribe_build _ len sender
  · intro acking dest serviceId eventgroupId
    refine ⟨_, _, acking.sendSubscribeAck_eq dest serviceId eventgroupId, ?_⟩
    intro sent hsent len
    rw [List.mem_singleton.mp hsent]
    have hack : ∀ entry ∈ (SomeIpSdMessage.build [.subscribeAck serviceId eventgroupId]).entries,
        entry.type ≠ sdEntrySubscribeEventgrp := type_ne_subscribe_build
    exact service.ignores_image hack acking.session len sender
  · intro serviceId methodId sessionId value buf
    by_cases hfits : 20 ≤ buf.length
    · refine ⟨_, _, serializeInto_floatNotification serviceId methodId sessionId value hfits, ?_⟩
      intro len
      apply service.ignores_short
      simp only [List.length_take]
      omega
    · have hshort : buf.length < 20 := by omega
      exact ⟨buf, 0, if_pos hshort, fun len => service.ignores_short (by simp) sender⟩

end AutomotiveGateway.Someip
