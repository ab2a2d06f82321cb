import AutomotiveGateway.Can.DbcParser
import AutomotiveGateway.Gateway.Pipeline

/-!
# Identifiers of frames and of messages

A received frame carries its format and its kind in the upper bits of `can_id`, a DBC
id carries the format in bit 31. The callback drops the upper bits of the one and
compares with all bits of the other.
-/

namespace AutomotiveGateway

open Can Someip StdString

/-- `CAN_EFF_FLAG` -/
def canEffFlag : UInt32 := 0x80000000

/-- `CAN_RTR_FLAG` -/
def canRtrFlag : UInt32 := 0x40000000

/-- `CAN_ERR_FLAG` -/
def canErrFlag : UInt32 := 0x20000000

/-- `CAN_SFF_MASK` -/
def canSffMask : UInt32 := 0x000007FF

/-- An identifier with its format. -/
inductive CanIdentifier
  | standard (number : UInt32)
  | extended (number : UInt32)
deriving DecidableEq, Repr

/-- A frame that is neither a remote request nor an error message. -/
def Can.CanFrame.IsData (frame : CanFrame) : Prop :=
  frame.canId &&& canRtrFlag = 0 ∧ frame.canId &&& canErrFlag = 0

def Can.CanFrame.identifier (frame : CanFrame) : CanIdentifier :=
  if frame.canId &&& canEffFlag = 0 then .standard (frame.canId &&& canSffMask)
  else .extended (frame.canId &&& canEffMask)

/-- The identifier a DBC id denotes. -/
def Can.MessageDef.identifier {D : Type} (msg : MessageDef D) : CanIdentifier :=
  if msg.canId &&& canEffFlag = 0 then .standard msg.canId
  else .extended (msg.canId &&& canEffMask)

variable {D : Type} [DoubleOps D]

/-- The callback decodes the frame with this message and publishes the outcome. -/
def Gateway.DecodesWith (dbc : DbcParser D) (gateway : Gateway) (clock : Clock)
    (frame : CanFrame) (msg : MessageDef D) : Prop :=
  ∃ next actions, onCanFrame dbc gateway clock frame = some (next, actions) ∧
    .decode frame msg ∈ actions ∧
    Announces gateway.publisher ((decode frame msg).filterMap gateway.publisher.announcement?)
      next.publisher actions

/-- The frame is decoded with a message of the DBC file exactly when it is a data frame
with the identifier and the format of the message. -/
def Gateway.DecodesOwnMessage (dbc : DbcParser D) (gateway : Gateway) (clock : Clock)
    (frame : CanFrame) : Prop :=
  ∀ id msg, dbc.findMessage id = some msg →
    (gateway.DecodesWith dbc clock frame msg ↔
      frame.IsData ∧ frame.identifier = msg.identifier)

/-! ## Masks and flags -/

theorem toNat_and_mask {x mask : UInt32} {width : Nat} (hmask : mask.toNat = 2 ^ width - 1) :
    (x &&& mask).toNat = x.toNat % 2 ^ width := by
  rw [UInt32.toNat_and, hmask, Nat.and_two_pow_sub_one_eq_mod]

theorem and_flag_eq_zero_iff {x flag : UInt32} {bit : Nat} (hflag : flag.toNat = 2 ^ bit) :
    x &&& flag = 0 ↔ x.toNat / 2 ^ bit % 2 = 0 := by
  rw [← UInt32.toNat_inj, UInt32.toNat_and, hflag, UInt32.toNat_zero, and_two_pow_eq_zero_iff,
    Nat.testBit_eq_decide_div_mod_eq, decide_eq_false_iff_not]
  exact Nat.mod_two_ne_one

theorem toNat_and_sffMask (canId : UInt32) : (canId &&& canSffMask).toNat = canId.toNat % 2 ^ 11 :=
  toNat_and_mask rfl

theorem toNat_and_effMask (canId : UInt32) : (canId &&& canEffMask).toNat = canId.toNat % 2 ^ 29 :=
  toNat_and_mask rfl

theorem and_effFlag_iff (canId : UInt32) :
    canId &&& canEffFlag = 0 ↔ canId.toNat / 2 ^ 31 % 2 = 0 :=
  and_flag_eq_zero_iff rfl

theorem isData_iff (frame : CanFrame) :
    frame.IsData ↔ frame.canId.toNat / 2 ^ 30 % 2 = 0 ∧ frame.canId.toNat / 2 ^ 29 % 2 = 0 :=
  and_congr (and_flag_eq_zero_iff rfl) (and_flag_eq_zero_iff rfl)

theorem le_sffMask_iff (canId : UInt32) : canId ≤ canSffMask ↔ canId.toNat < 2 ^ 11 := by
  rw [UInt32.le_iff_toNat_le]
  exact Nat.lt_succ_iff.symm

/-- Masked with the extended mask, an id has no format bit. -/
theorem effMask_and_effFlag (canId : UInt32) : canId &&& canEffMask &&& canEffFlag = 0 := by
  rw [and_effFlag_iff, toNat_and_effMask]
  omega

/-- A frame has the masked `can_id` for its identifier, and is a data frame, exactly when
its `can_id` is a standard identifier without flags. -/
theorem isData_and_identifier_iff (frame : CanFrame) :
    frame.IsData ∧ frame.identifier = .standard (frame.canId &&& canEffMask) ↔
      frame.canId ≤ canSffMask := by
  have hlt := frame.canId.toNat_lt
  rw [isData_iff, le_sffMask_iff, CanFrame.identifier]
  by_cases hstandard : frame.canId &&& canEffFlag = 0
  · rw [if_pos hstandard, CanIdentifier.standard.injEq, ← UInt32.toNat_inj, toNat_and_sffMask,
      toNat_and_effMask]
    rw [and_effFlag_iff] at hstandard
    omega
  · rw [if_neg hstandard]
    rw [and_effFlag_iff] at hstandard
    constructor
    · rintro ⟨_, heq⟩
      cases heq
    · intro hsmall
      omega

/-! ## The callback -/

theorem decodesWith_iff (dbc : DbcParser D) (gateway : Gateway) (clock : Clock)
    (frame : CanFrame) (msg : MessageDef D) :
    gateway.DecodesWith dbc clock frame msg ↔
      dbc.findMessage (frame.canId &&& canEffMask) = some msg := by
  obtain ⟨next, actions, hcallback, hannounces, hdecode⟩ :=
    Gateway.exists_onCanFrame dbc gateway clock frame
  constructor
  · rintro ⟨next', actions', hcallback', hmem, _⟩
    obtain ⟨rfl, rfl⟩ := Prod.mk.inj (Option.some.inj (hcallback.symm.trans hcallback'))
    exact (hdecode msg).mp hmem
  · intro hfound
    rw [announced, hfound] at hannounces
    exact ⟨next, actions, hcallback, (hdecode msg).mpr hfound, hannounces⟩

omit [DoubleOps D] in
/-- The message found for a frame has the masked `can_id` for its standard identifier. -/
theorem identifier_of_findMessage {dbc : DbcParser D}
    (hkey : WellKeyed dbc.messages) {canId : UInt32}
    {msg : MessageDef D} (hfound : dbc.findMessage (canId &&& canEffMask) = some msg) :
    msg.identifier = .standard (canId &&& canEffMask) := by
  rw [MessageDef.identifier, hkey _ _ hfound, if_pos (effMask_and_effFlag _)]

omit [DoubleOps D] in
/-- A message with a standard identifier is stored under it. -/
theorem findMessage_of_identifier {dbc : DbcParser D}
    (hkey : WellKeyed dbc.messages) {id number : UInt32}
    {msg : MessageDef D} (hmsg : dbc.findMessage id = some msg)
    (hidentifier : msg.identifier = .standard number) : dbc.findMessage number = some msg := by
  rw [MessageDef.identifier] at hidentifier
  split at hidentifier
  next =>
    rw [← CanIdentifier.standard.inj hidentifier, hkey id msg hmsg]
    exact hmsg
  next => cases hidentifier

/-- The callback keeps to a frame's own message exactly when the frame's `can_id` is a
standard identifier without flags, or neither its masked `can_id` nor, for a data frame,
its identifier belongs to a message of the file. -/
theorem decodesOwnMessage_iff (stod : StdString → Option D) (content : StdString)
    (gateway : Gateway) (clock : Clock) (frame : CanFrame) :
    gateway.DecodesOwnMessage (DbcParser.parse stod {} (some content)).2 clock frame ↔
      frame.canId ≤ canSffMask ∨
      (DbcParser.parse stod {} (some content)).2.findMessage (frame.canId &&& canEffMask) = none ∧
        (frame.IsData → ∀ id msg,
          (DbcParser.parse stod {} (some content)).2.findMessage id = some msg →
            msg.identifier ≠ frame.identifier) := by
  have hkey := wellKeyed_parse stod content
  generalize (DbcParser.parse stod {} (some content)).2 = dbc at hkey ⊢
  constructor
  · intro hown
    by_cases hplain : frame.canId ≤ canSffMask
    · exact .inl hplain
    have hnone : dbc.findMessage (frame.canId &&& canEffMask) = none := by
      -- A message under the masked id is used although the frame is no plain data frame.
      rw [Option.eq_none_iff_forall_not_mem]
      intro msg hmsg
      have hdata := (hown _ msg hmsg).mp ((decodesWith_iff dbc gateway clock frame msg).mpr hmsg)
      rw [identifier_of_findMessage hkey hmsg, isData_and_identifier_iff] at hdata
      exact hplain hdata
    refine .inr ⟨hnone, ?_⟩
    intro hdata id msg hmsg heq
    have hdecodes := (hown id msg hmsg).mpr ⟨hdata, heq.symm⟩
    rw [decodesWith_iff, hnone] at hdecodes
    cases hdecodes
  · rintro (hplain | ⟨hnone, hother⟩) id msg hmsg
    · obtain ⟨hdata, hidentifier⟩ := (isData_and_identifier_iff frame).mpr hplain
      rw [decodesWith_iff, hidentifier]
      constructor
      · intro hfound
        exact ⟨hdata, (identifier_of_findMessage hkey hfound).symm⟩
      · rintro ⟨_, heq⟩
        exact findMessage_of_identifier hkey hmsg heq.symm
    · rw [decodesWith_iff, hnone]
      constructor
      · intro hfound
        cases hfound
      · rintro ⟨hdata, heq⟩
        exact absurd heq.symm (hother hdata id msg hmsg)

/-- A message with an extended identifier is never used for its frames. -/
theorem not_decodesOwnMessage_extended :
    ¬ @Gateway.DecodesOwnMessage Int intOps
      (DbcParser.parse (fun s => some (digitsValue s : Int)) {}
        (some "BO_ 2147483939 A: 8 X\n".toList)).2
      { publisher := .create 0 0, sd := {} } {} { canId := 0x80000123 } := by
  intro hown
  have hkey := wellKeyed_parse (fun s => some (digitsValue s : Int))
    "BO_ 2147483939 A: 8 X\n".toList
  have hfound : (DbcParser.parse (fun s => some (digitsValue s : Int)) {}
      (some "BO_ 2147483939 A: 8 X\n".toList)).2.findMessage 0x80000123 =
        some { canId := 0x80000123, name := ['A'], length := 8 } := Finmap.lookup_insert _
  have hdecodes := (hown _ _ hfound).mpr ⟨⟨rfl, rfl⟩, rfl⟩
  rw [@decodesWith_iff _ intOps] at hdecodes
  exact absurd (hkey _ _ hdecodes) (by decide)

end AutomotiveGateway
