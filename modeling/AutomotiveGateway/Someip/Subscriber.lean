import AutomotiveGateway.Someip.SdService

/-!
# The subscriber tool

The tool builds its SubscribeEventgroup datagram by hand. It writes the eventgroup
id behind the entry, over the low half of the options length, while the gateway
reads it from the end of the entry.
-/

namespace AutomotiveGateway.Someip

open ByteOrder Memory

/-- The datagram up to and including the options length. -/
def subscribeFields (serviceId : UInt16) (buf : List UInt8) : Option (List UInt8) := do
  -- SOME/IP header
  let buf ← store buf 0 [0xFF, 0xFF]
  let buf ← store buf 2 [0x81, 0x00]
  let buf ← store buf 4 (littleBytes32 (htonl 36))
  let buf ← store buf 8 [0x00, 0x00]
  let buf ← store buf 10 [0x00, 0x01]
  let buf ← store buf 12 [0x01, 0x01, 0x02, 0x00]
  -- SD flags
  let buf ← store buf 16 [0xC0, 0x00, 0x00, 0x00]
  let buf ← store buf 20 (littleBytes32 (htonl 16))
  -- SubscribeEventgroup entry
  let buf ← store buf 24 [0x06, 0x00, 0x00, 0x00]
  let buf ← store buf 28 (littleBytes16 (htons serviceId))
  let buf ← store buf 30 (littleBytes16 (htons 0x0001))
  let buf ← store buf 32 [0x01, 0x00, 0x00, 0x03]
  let buf ← store buf 36 [0x00, 0x00, 0x00, 0x00]
  store buf 40 (littleBytes32 (htonl 0))

/-- The datagram `send_subscribe` sends: the eventgroup id goes to bytes 42 and 43. -/
def sendSubscribe (serviceId eventgroupId : UInt16) : Option (List UInt8) := do
  let buf ← subscribeFields serviceId (List.replicate 44 0)
  store buf 42 (littleBytes16 (htons eventgroupId))

/-- The announced length of the options array, behind the announced entries. -/
def optionsLength (datagram : List UInt8) : Nat :=
  (bigAt32 datagram (24 + entriesLength datagram)).toNat

/-- The message sent by an action. -/
def SdAction.sent? : SdAction → Option (List UInt8 × SockaddrIn)
  | sendto data dest => some (data, dest)
  | onSubscribe _ => none

/-- Tool and gateway agree on a subscription: the gateway records it once, acknowledges
it to the sender, and the two array lengths of the datagram account for all its bytes. -/
def SubscriptionAgrees (service : SomeIpSdService) (sender : SockaddrIn)
    (serviceId eventgroupId : UInt16) : Prop :=
  ∃ datagram, sendSubscribe serviceId eventgroupId = some datagram ∧ datagram.length = 44 ∧
    (∃ next actions ack, service.handleSdMessage datagram sender = some (next, actions) ∧
      next.subscribers = service.subscribers ++ [⟨sender, serviceId, eventgroupId⟩] ∧
      actions.filterMap SdAction.sent? = [(ack, sender)] ∧
      readEntries ack = [⟨sdEntrySubscribeAck, serviceId, eventgroupId⟩]) ∧
    24 + entriesLength datagram + 4 + optionsLength datagram = datagram.length

/-- The bytes of the tool's datagram. -/
def subscribeImage (serviceId eventgroupId : UInt16) : List UInt8 :=
  [0xFF, 0xFF, 0x81, 0x00] ++ bigBytes32 36 ++ [0x00, 0x00, 0x00, 0x01, 0x01, 0x01, 0x02, 0x00,
    0xC0, 0x00, 0x00, 0x00] ++ bigBytes32 16 ++ [0x06, 0x00, 0x00, 0x00] ++ bigBytes16 serviceId ++
    [0x00, 0x01, 0x01, 0x00, 0x00, 0x03, 0x00, 0x00, 0x00, 0x00, 0x00, 0x00] ++
    bigBytes16 eventgroupId

theorem subscribeFields_writes (serviceId : UInt16) :
    Writes (subscribeFields serviceId) 0 (subscribeImage serviceId 0) := by
  unfold subscribeFields
  apply Writes.congr
  · repeat apply Writes.store_bind
    · exact writes_store _ _
    all_goals rfl
  · simp [littleBytes16_swap16, littleBytes32_swap32, subscribeImage]
    rfl

theorem sendSubscribe_eq (serviceId eventgroupId : UInt16) :
    sendSubscribe serviceId eventgroupId = some (subscribeImage serviceId eventgroupId) := by
  have hfields := @Writes.append _ [] (List.replicate 44 0) _ (subscribeFields_writes serviceId)
    (Nat.le_of_eq rfl)
  have heventgroup := @Writes.append _ ((subscribeImage serviceId 0).take 42) (bigBytes16 0) _
    (writes_store _ (bigBytes16 eventgroupId)) (Nat.le_of_eq rfl)
  simp only [List.nil_append] at hfields
  rw [sendSubscribe, hfields, Option.bind_eq_bind, Option.bind_some, littleBytes16_swap16]
  exact heventgroup

/-! ## What the gateway makes of it -/

theorem isSd_subscribeImage (serviceId eventgroupId : UInt16) :
    IsSd (subscribeImage serviceId eventgroupId) := ⟨Nat.le_of_ble_eq_true rfl, rfl⟩

theorem entriesLength_subscribeImage (serviceId eventgroupId : UInt16) :
    entriesLength (subscribeImage serviceId eventgroupId) = 16 :=
  congrArg UInt32.toNat (ofBig32_bigBytes32 16)

/-- Whatever eventgroup the tool asks for, the gateway records eventgroup 0. -/
theorem subscriptions_subscribeImage (serviceId eventgroupId : UInt16) (sender : SockaddrIn) :
    subscriptions (subscribeImage serviceId eventgroupId) sender = [⟨sender, serviceId, 0⟩] := by
  have hlength : (subscribeImage serviceId eventgroupId).length = 44 := rfl
  have hwhole : wholeEntries (subscribeImage serviceId eventgroupId) = 1 := by
    rw [wholeEntries, entriesLength_subscribeImage, hlength]
    rfl
  have hentry : readEntry (subscribeImage serviceId eventgroupId) 24 =
      ⟨sdEntrySubscribeEventgrp, serviceId, 0⟩ :=
    congrArg₂ (ReadEntry.mk sdEntrySubscribeEventgrp) (ofBig16_bigBytes16 serviceId)
      (ofBig16_bigBytes16 0)
  rw [subscriptions, readEntries, hwhole]
  simp [hentry, ReadEntry.subscriber?]

theorem optionsLength_subscribeImage (serviceId eventgroupId : UInt16) :
    optionsLength (subscribeImage serviceId eventgroupId) = eventgroupId.toNat := by
  have hword : bigAt32 (subscribeImage serviceId eventgroupId) 40 =
      ofBig32 0 0 (eventgroupId >>> 8).toUInt8 eventgroupId.toUInt8 := rfl
  have heventgroup := congrArg UInt16.toNat (ofBig16_bigBytes16 eventgroupId)
  rw [toNat_ofBig16] at heventgroup
  rw [optionsLength, entriesLength_subscribeImage, hword, toNat_ofBig32]
  have hzero : (0 : UInt8).toNat = 0 := rfl
  simp only [hzero, Nat.zero_mul, Nat.zero_add]
  exact heventgroup

/-- The gateway answers the tool's datagram as a subscription to eventgroup 0. -/
theorem handle_subscribeImage (service : SomeIpSdService) (sender : SockaddrIn)
    (serviceId eventgroupId : UInt16) :
    service.handleSdMessage (subscribeImage serviceId eventgroupId) sender =
      some (service.subscribe ⟨sender, serviceId, 0⟩) := by
  rw [SomeIpSdService.handleSdMessage_eq, if_pos (isSd_subscribeImage serviceId eventgroupId),
    subscriptions_subscribeImage]
  simp [SomeIpSdService.subscribeAll]

theorem eventgroup_of_agrees {service : SomeIpSdService} {sender : SockaddrIn}
    {serviceId eventgroupId : UInt16}
    (hagrees : SubscriptionAgrees service sender serviceId eventgroupId) : eventgroupId = 0 := by
  obtain ⟨datagram, hsend, _, ⟨next, actions, ack, hhandle, hrecorded, _⟩, _⟩ := hagrees
  obtain rfl := Option.some.inj ((sendSubscribe_eq serviceId eventgroupId).symm.trans hsend)
  rw [handle_subscribeImage, Option.some.injEq] at hhandle
  obtain rfl := congrArg Prod.fst hhandle
  have hsub := List.append_cancel_left hrecorded
  simp only [List.cons.injEq, Subscriber.mk.injEq, and_true, true_and] at hsub
  exact hsub.symm

/-- Tool and gateway agree on a subscription exactly when it is for eventgroup 0. -/
theorem subscriptionAgrees_iff (service : SomeIpSdService) (sender : SockaddrIn)
    (serviceId eventgroupId : UInt16) :
    SubscriptionAgrees service sender serviceId eventgroupId ↔ eventgroupId = 0 := by
  refine ⟨eventgroup_of_agrees, ?_⟩
  rintro rfl
  refine ⟨_, sendSubscribe_eq serviceId 0, rfl, ⟨_, _, _,
    handle_subscribeImage service sender serviceId 0, rfl, ?_,
    (read_ackImage service.session serviceId 0).2.2⟩, ?_⟩
  · by_cases hset : service.onSubscribe
    · simp [hset, SdAction.sent?]
    · simp [hset, SdAction.sent?]
  · rw [entriesLength_subscribeImage, optionsLength_subscribeImage]
    rfl

/-- The tool's own request for eventgroup 1 of service 0x0101 is not understood. -/
theorem not_subscriptionAgrees_demo : ¬ SubscriptionAgrees {} {} 0x0101 0x0001 :=
  fun hagrees => absurd (eventgroup_of_agrees hagrees) (by decide)

end AutomotiveGateway.Someip
