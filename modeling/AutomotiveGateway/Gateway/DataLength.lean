import AutomotiveGateway.Gateway.Pipeline

/-!
# Data bytes that were not on the bus

A frame carries as many data bytes as its length says. The decoder reads all eight bytes
of the frame, so a signal that reaches behind the received ones is published with whatever
the remaining bytes hold, unless its scaling and its range hide them.
-/

namespace AutomotiveGateway

open Can Memory Someip SomeIpPublisher

/-- The data bytes that were on the bus. -/
def Can.CanFrame.received (frame : CanFrame) : List UInt8 :=
  frame.data.toList.take frame.canDlc.toNat

/-- Two frames that were the same on the bus. -/
structure Can.SameOnBus (left right : CanFrame) : Prop where
  canId : left.canId = right.canId
  canDlc : left.canDlc = right.canDlc
  received : left.received = right.received

variable {D : Type} [DoubleOps D]

/-- What the callback publishes for frames of this id and length is the same for any two
that were the same on the bus. -/
def Gateway.PublishesReceived (dbc : DbcParser D) (gateway : Gateway) (canId : UInt32)
    (canDlc : UInt8) : Prop :=
  ∀ left right : CanFrame, left.canId = canId → left.canDlc = canDlc → SameOnBus left right →
    ∀ clock clock' next next' actions actions',
      onCanFrame dbc gateway clock left = some (next, actions) →
      onCanFrame dbc gateway clock' right = some (next', actions') →
      notifications actions = notifications actions'

namespace Can.SignalDef

omit [DoubleOps D] in
/-- The bits of a signal that a frame has. -/
def width (sig : SignalDef D) : Nat := min sig.length.toNat (64 - sig.startBit.toNat)

/-- The bits of a signal that are in the first bytes of the data. -/
def receivedWidth (sig : SignalDef D) (canDlc : UInt8) : Nat :=
  8 * canDlc.toNat - sig.startBit.toNat

/-- The bits of the `float` that a field is published as. -/
def published (sig : SignalDef D) (field : Nat) : UInt32 :=
  DoubleOps.toFloatBits
    (dbcPhysical sig (Int64.ofInt (rawValue sig.isSigned sig.length field)))

/-- Scale, offset and range make one `float` of all fields with the same received bits. -/
def HidesRest (sig : SignalDef D) (canDlc : UInt8) : Prop :=
  ∀ field field', field < 2 ^ sig.width → field' < 2 ^ sig.width →
    field % 2 ^ sig.receivedWidth canDlc = field' % 2 ^ sig.receivedWidth canDlc →
    sig.published field = sig.published field'

/-! ## Fields and received bytes -/

omit [DoubleOps D] in
theorem rawField_lt_width (sig : SignalDef D) (data : Vector UInt8 8) :
    rawField data sig.startBit sig.length < 2 ^ sig.width := by
  have hword : littleWord data.toList < 2 ^ 64 := littleWord_data_lt data
  apply Nat.lt_pow_two_of_testBit
  intro i hi
  rw [rawField, Nat.testBit_mod_two_pow, Nat.testBit_shiftRight]
  by_cases hlength : i < sig.length.toNat
  · have hpow : 2 ^ 64 ≤ 2 ^ (sig.startBit.toNat + i) :=
      Nat.pow_le_pow_right (by decide) (by unfold width at hi; omega)
    rw [Nat.testBit_lt_two_pow (Nat.lt_of_lt_of_le hword hpow), Bool.and_false]
  · rw [decide_eq_false hlength, Bool.false_and]

omit [DoubleOps D] in
/-- Frames that were the same on the bus agree in the received bits of a field. -/
theorem rawField_mod_eq (sig : SignalDef D) {left right : CanFrame}
    (hsame : SameOnBus left right) :
    rawField left.data sig.startBit sig.length % 2 ^ sig.receivedWidth left.canDlc =
      rawField right.data sig.startBit sig.length % 2 ^ sig.receivedWidth left.canDlc := by
  have hwords := congrArg littleWord hsame.received
  rw [CanFrame.received, CanFrame.received, ← hsame.canDlc, littleWord_take, littleWord_take]
    at hwords
  apply Nat.eq_of_testBit_eq
  intro i
  have hbit := congrArg (Nat.testBit · (sig.startBit.toNat + i)) hwords
  simp only [Nat.testBit_mod_two_pow] at hbit
  simp only [rawField, Nat.testBit_mod_two_pow, Nat.testBit_shiftRight]
  by_cases hi : i < sig.receivedWidth left.canDlc
  · have hreceived : sig.startBit.toNat + i < 8 * left.canDlc.toNat := by
      unfold receivedWidth at hi
      omega
    rw [decide_eq_true hreceived, Bool.true_and, Bool.true_and] at hbit
    rw [hbit]
  · rw [decide_eq_false hi, Bool.false_and, Bool.false_and]

omit [DoubleOps D] in
/-- Every value of the bits that a frame has is the field of some data. -/
theorem exists_rawField_eq (sig : SignalDef D) {field : Nat} (hfield : field < 2 ^ sig.width) :
    ∃ data : Vector UInt8 8, littleWord data.toList = field * 2 ^ sig.startBit.toNat ∧
      rawField data sig.startBit sig.length = field := by
  have hlength : field < 2 ^ sig.length.toNat :=
    Nat.lt_of_lt_of_le hfield (Nat.pow_le_pow_right (by decide) (Nat.min_le_left _ _))
  have hword : field * 2 ^ sig.startBit.toNat < 2 ^ 64 := by
    by_cases hstart : sig.startBit.toNat < 64
    · have hfit : field < 2 ^ (64 - sig.startBit.toNat) :=
        Nat.lt_of_lt_of_le hfield (Nat.pow_le_pow_right (by decide) (Nat.min_le_right _ _))
      calc field * 2 ^ sig.startBit.toNat
          < 2 ^ (64 - sig.startBit.toNat) * 2 ^ sig.startBit.toNat :=
            Nat.mul_lt_mul_of_pos_right hfit (Nat.two_pow_pos _)
        _ = 2 ^ 64 := by rw [← Nat.pow_add, Nat.sub_add_cancel (Nat.le_of_lt hstart)]
    · have hnone : sig.width = 0 := by
        unfold width
        omega
      rw [hnone, Nat.pow_zero, Nat.lt_one_iff] at hfield
      rw [hfield, Nat.zero_mul]
      exact Nat.two_pow_pos 64
  obtain ⟨data, hdata⟩ := exists_data_littleWord hword
  refine ⟨data, hdata, ?_⟩
  rw [rawField, hdata, Nat.shiftRight_eq_div_pow, Nat.mul_div_cancel _ (Nat.two_pow_pos _),
    Nat.mod_eq_of_lt hlength]

omit [DoubleOps D] in
/-- Fields with the same received bits are those of frames that were the same on the bus. -/
theorem sameOnBus_of_mod_eq (sig : SignalDef D) {field field' : Nat} {data data' : Vector UInt8 8}
    {canId : UInt32} {canDlc : UInt8}
    (hmod : field % 2 ^ sig.receivedWidth canDlc = field' % 2 ^ sig.receivedWidth canDlc)
    (hdata : littleWord data.toList = field * 2 ^ sig.startBit.toNat)
    (hdata' : littleWord data'.toList = field' * 2 ^ sig.startBit.toNat) :
    SameOnBus { canId, canDlc, data } { canId, canDlc, data := data' } where
  canId := rfl
  canDlc := rfl
  received := by
    apply littleWord_inj
    · simp only [CanFrame.received, List.length_take, Vector.length_toList]
    · rw [CanFrame.received, CanFrame.received, littleWord_take, littleWord_take, hdata, hdata']
      apply Nat.eq_of_testBit_eq
      intro i
      rw [Nat.testBit_mod_two_pow, Nat.testBit_mod_two_pow, Nat.mul_comm field,
        Nat.mul_comm field', Nat.testBit_two_pow_mul, Nat.testBit_two_pow_mul]
      by_cases hi : i < 8 * canDlc.toNat ∧ sig.startBit.toNat ≤ i
      · have hbit := congrArg (Nat.testBit · (i - sig.startBit.toNat)) hmod
        have hreceived : i - sig.startBit.toNat < sig.receivedWidth canDlc := by
          unfold receivedWidth
          omega
        simp only [Nat.testBit_mod_two_pow, decide_eq_true hreceived, Bool.true_and] at hbit
        rw [hbit]
      · rcases not_and_or.1 hi with hout | hout
        · rw [decide_eq_false hout, Bool.false_and, Bool.false_and]
        · rw [decide_eq_false hout, Bool.false_and, Bool.false_and]

end Can.SignalDef

/-! ## What is published -/

/-- The announcements of a frame with a message, signal by signal. -/
theorem announced_of_findMessage {dbc : DbcParser D} {publisher : SomeIpPublisher}
    {frame : CanFrame} {msg : MessageDef D}
    (hmsg : dbc.findMessage (frame.canId &&& canEffMask) = some msg) :
    announced dbc publisher frame = msg.signals.filterMap fun sig =>
      (publisher.signalMap.lookup sig.name).map fun ids =>
        (ids.1, ids.2, sig.published (rawField frame.data sig.startBit sig.length)) := by
  rw [announced, hmsg, Option.elim_some, decode, List.filterMap_map]
  apply List.filterMap_congr
  intro sig _
  rw [Function.comp_apply, announcement?, value_decodeSignal, signalValue]
  rfl

/-- Two frames have the same notifications when the same is announced of them. -/
theorem notifications_eq_iff {dbc : DbcParser D} {gateway next next' : Gateway}
    {clock clock' : Clock} {left right : CanFrame} {actions actions' : List (GatewayAction D)}
    (hleft : gateway.onCanFrame dbc clock left = some (next, actions))
    (hright : gateway.onCanFrame dbc clock' right = some (next', actions')) :
    notifications actions = notifications actions' ↔
      announced dbc gateway.publisher left = announced dbc gateway.publisher right := by
  obtain ⟨_, _, hcallback, hannounces, -⟩ := gateway.exists_onCanFrame dbc clock left
  rw [hleft, Option.some.injEq, Prod.mk.injEq] at hcallback
  obtain ⟨rfl, rfl⟩ := hcallback
  obtain ⟨_, _, hcallback, hannounces', -⟩ := gateway.exists_onCanFrame dbc clock' right
  rw [hright, Option.some.injEq, Prod.mk.injEq] at hcallback
  obtain ⟨rfl, rfl⟩ := hcallback
  rw [hannounces.sent, hannounces'.sent]
  exact ⟨announce_injective, fun heq => by rw [heq]⟩

/-- Lists filtered alike are equal when what is kept of each item is. -/
theorem filterMap_eq_iff {α β : Type} {f g : α → Option β} {items : List α}
    (hkept : ∀ item ∈ items, (f item).isSome = (g item).isSome) :
    items.filterMap f = items.filterMap g ↔ ∀ item ∈ items, f item = g item := by
  induction items with
  | nil => simp
  | cons item items ih =>
      have hrest := ih fun other hmem => hkept other (List.mem_cons_of_mem _ hmem)
      have hfirst := hkept item List.mem_cons_self
      rw [List.forall_mem_cons, ← hrest, List.filterMap_cons, List.filterMap_cons]
      cases hf : f item with
      | none =>
          rw [hf, Option.isSome_none, eq_comm, Option.isSome_eq_false_iff,
            Option.isNone_iff_eq_none] at hfirst
          simp [hfirst]
      | some value =>
          rw [hf, Option.isSome_some, eq_comm, Option.isSome_iff_exists] at hfirst
          obtain ⟨value', hg⟩ := hfirst
          simp [hg]

/-- What is announced of two frames with one message is the same when every routed signal is
published alike. -/
theorem announced_eq_iff {dbc : DbcParser D} {publisher : SomeIpPublisher}
    {left right : CanFrame} {msg : MessageDef D}
    (hleft : dbc.findMessage (left.canId &&& canEffMask) = some msg)
    (hright : dbc.findMessage (right.canId &&& canEffMask) = some msg) :
    announced dbc publisher left = announced dbc publisher right ↔
      ∀ sig ∈ msg.signals, (publisher.signalMap.lookup sig.name).isSome →
        sig.published (rawField left.data sig.startBit sig.length) =
          sig.published (rawField right.data sig.startBit sig.length) := by
  rw [announced_of_findMessage hleft, announced_of_findMessage hright,
    filterMap_eq_iff fun _ _ => by rw [Option.isSome_map, Option.isSome_map]]
  apply forall₂_congr
  intro sig _
  cases publisher.signalMap.lookup sig.name with
  | none => simp
  | some ids => simp

/-- A routed signal that reaches behind the received bytes has to hide what is there. -/
theorem hidesRest_of_publishesReceived {dbc : DbcParser D} {gateway : Gateway} {canId : UInt32}
    {canDlc : UInt8} (h : gateway.PublishesReceived dbc canId canDlc) {msg : MessageDef D}
    (hmsg : dbc.findMessage (canId &&& canEffMask) = some msg) {sig : SignalDef D}
    (hsig : sig ∈ msg.signals) (hroute : (gateway.publisher.signalMap.lookup sig.name).isSome) :
    sig.HidesRest canDlc := by
  intro field field' hfield hfield' hmod
  obtain ⟨data, hdata, hraw⟩ := sig.exists_rawField_eq hfield
  obtain ⟨data', hdata', hraw'⟩ := sig.exists_rawField_eq hfield'
  obtain ⟨next, actions, hleft, -⟩ :=
    gateway.exists_onCanFrame dbc {} { canId, canDlc, data }
  obtain ⟨next', actions', hright, -⟩ :=
    gateway.exists_onCanFrame dbc {} { canId, canDlc, data := data' }
  have hsame := h _ _ rfl rfl (sig.sameOnBus_of_mod_eq hmod hdata hdata') _ _ _ _ _ _ hleft hright
  have hvalues := (announced_eq_iff hmsg hmsg).1 ((notifications_eq_iff hleft hright).1 hsame)
    sig hsig hroute
  rwa [hraw, hraw'] at hvalues

/-- What is hidden of a signal that reaches behind the received bytes does not tell two
frames apart that were the same on the bus. -/
theorem published_eq_of_sameOnBus {sig : SignalDef D} {left right : CanFrame}
    (hsame : SameOnBus left right)
    (hhides : sig.receivedWidth left.canDlc < sig.width → sig.HidesRest left.canDlc) :
    sig.published (rawField left.data sig.startBit sig.length) =
      sig.published (rawField right.data sig.startBit sig.length) := by
  have hleft := sig.rawField_lt_width left.data
  have hright := sig.rawField_lt_width right.data
  have hmod := sig.rawField_mod_eq hsame
  by_cases hreach : sig.receivedWidth left.canDlc < sig.width
  · exact hhides hreach _ _ hleft hright hmod
  · have hpow : 2 ^ sig.width ≤ 2 ^ sig.receivedWidth left.canDlc :=
      Nat.pow_le_pow_right (by decide) (Nat.le_of_not_lt hreach)
    rw [Nat.mod_eq_of_lt (Nat.lt_of_lt_of_le hleft hpow),
      Nat.mod_eq_of_lt (Nat.lt_of_lt_of_le hright hpow)] at hmod
    rw [hmod]

/-- The callback publishes only what was on the bus, for all frames of an id and a length,
if and only if every routed signal of the message that reaches behind the received bytes
is scaled and clamped to one and the same `float` whatever these bits are. -/
theorem publishesReceived_iff (dbc : DbcParser D) (gateway : Gateway) (canId : UInt32)
    (canDlc : UInt8) :
    gateway.PublishesReceived dbc canId canDlc ↔
      ∀ msg, dbc.findMessage (canId &&& canEffMask) = some msg → ∀ sig ∈ msg.signals,
        (gateway.publisher.signalMap.lookup sig.name).isSome →
        sig.receivedWidth canDlc < sig.width → sig.HidesRest canDlc := by
  constructor
  · intro h msg hmsg sig hsig hroute _
    exact hidesRest_of_publishesReceived h hmsg hsig hroute
  · rintro hhides left right rfl rfl hsame clock clock' next next' actions actions' hleft hright
    rw [notifications_eq_iff hleft hright]
    cases hmsg : dbc.findMessage (left.canId &&& canEffMask) with
    | none =>
        have hmsg' := hmsg
        rw [hsame.canId] at hmsg'
        rw [announced, announced, hmsg, hmsg', Option.elim_none, Option.elim_none]
    | some msg =>
        have hmsg' := hmsg
        rw [hsame.canId] at hmsg'
        rw [announced_eq_iff hmsg hmsg']
        intro sig hsig hroute
        exact published_eq_of_sameOnBus hsame (hhides msg hmsg sig hsig hroute)

/-- The third byte of the data, as it is. -/
def thirdByte : SignalDef Int where
  name := ['T']
  startBit := 16
  length := 8
  isSigned := false
  isLittleEndian := true
  scale := 1
  offset := 0
  minVal := 0
  maxVal := 255
  unit := []

/-- A frame of two bytes is published with a third one. -/
theorem not_publishesReceived_twoBytes :
    ¬ @Gateway.PublishesReceived Int intOps
      { messages := Finmap.singleton 0x100
          { canId := 0x100, name := ['M'], length := 2, signals := [thirdByte] } }
      { publisher := (SomeIpPublisher.create 0 0).registerSignal ['T'] 0x0101 0x8001, sd := {} }
      0x100 2 := by
  intro h
  have hhides := @hidesRest_of_publishesReceived Int intOps _ _ _ _ h
    { canId := 0x100, name := ['M'], length := 2, signals := [thirdByte] }
    (Finmap.lookup_singleton_eq) thirdByte List.mem_cons_self
    (by rw [registerSignal, thirdByte, Finmap.lookup_insert]; rfl)
  exact absurd (hhides 0 1 (by decide) (by decide) (by decide)) (by decide)

end AutomotiveGateway
