import AutomotiveGateway.Can.BitExtraction
import AutomotiveGateway.Can.SignalSyntax

/-!
# Shift counts of the decoder

The sign handling shifts by the length and by one less. Its guard keeps lengths of 64 and
more away from the shifts and lets length 0 through, which a signal line gets when eight
bits cut its length to zero.
-/

namespace AutomotiveGateway.Can

open Memory StdString

variable {D : Type}

/-- `1 << bit_idx`, and `1ULL << i` for a set bit. -/
def ExtractStep.shiftCounts (data : Vector UInt8 8) (step : ExtractStep) : List Int :=
  (step.bitIdx.toNat : Int) ::
    if byteAt data.toList step.byteIdx.toNat &&& ((1 : UInt8) <<< step.bitIdx) ≠ 0 then
      [(step.i.toNat : Int)]
    else []

/-- `1ULL << (length - 1)`, where the subtraction is one of `int`, and `~0ULL << length` for a
set sign bit. -/
def signShiftCounts (raw : UInt64) (sig : SignalDef D) : List Int :=
  if sig.isSigned ∧ sig.length < 64 then
    ((sig.length.toNat : Int) - 1) ::
      if raw &&& ((1 : UInt64) <<< (sig.length - 1).toUInt64) ≠ 0 then [(sig.length.toNat : Int)]
      else []
  else []

/-- The counts of all shifts that decoding the signal evaluates. -/
def shiftCounts (frame : CanFrame) (sig : SignalDef D) : List Int :=
  (extractSteps sig.startBit sig.length.toNat 0).flatMap (ExtractStep.shiftCounts frame.data) ++
    signShiftCounts (extractBits frame.data sig.startBit sig.length) sig

/-- A shift of a 64-bit operand is defined for these counts. -/
def InShiftRange (count : Int) : Prop := 0 ≤ count ∧ count ≤ 63

instance (count : Int) : Decidable (InShiftRange count) :=
  inferInstanceAs (Decidable (0 ≤ count ∧ count ≤ 63))

/-- What `parse_signal_line` reads of a signal's bits: where they start, how many they are, and
what is behind the `@`. -/
def bitInfoOf (line : StdString) : Option ((Int × Int) × StdString) := do
  let tokens ← extractTokens line
  parseBitInfo tokens.bitInfo

/-- The line is of a signed signal, and its length is 0 in eight bits. -/
def EmptySigned (line : StdString) : Prop :=
  ∃ startBit length orderSign, bitInfoOf line = some ((startBit, length), orderSign) ∧
    256 ∣ length ∧ orderSign[1]? = some '-'

theorem eq_or_of_mem_cons_ite {count first second : Int} {set : Prop} [Decidable set]
    (hmem : count ∈ first :: if set then [second] else []) : count = first ∨ count = second := by
  rcases List.mem_cons.mp hmem with hfirst | hset
  · exact .inl hfirst
  · split at hset
    next => exact .inr (List.mem_singleton.mp hset)
    next => exact absurd hset List.not_mem_nil

theorem natCast_inShiftRange {n : Nat} (hn : n < 64) : InShiftRange (n : Int) :=
  ⟨Int.natCast_nonneg n, by omega⟩

/-- The loop of `extract_bits` shifts within its operands. -/
theorem inShiftRange_extract (data : Vector UInt8 8) (startBit length : UInt8) :
    ∀ count ∈ (extractSteps startBit length.toNat 0).flatMap (ExtractStep.shiftCounts data),
      InShiftRange count := by
  have hlength := length.toNat_lt
  have hstart := startBit.toNat_lt
  intro count hmem
  obtain ⟨step, hstep, hcount⟩ := List.mem_flatMap.mp hmem
  have hrange := inRange_extractSteps (by simpa using hlength) (by simpa using hstart) step hstep
  have hbitIdx := hrange.bitIdx
  unfold ExtractStep.shiftCounts at hcount
  rcases eq_or_of_mem_cons_ite hcount with rfl | rfl
  · exact natCast_inShiftRange (by omega)
  · exact natCast_inShiftRange hrange.i

/-- The sign handling shifts within its operands unless a signed signal has no bits. -/
theorem inShiftRange_sign_iff (raw : UInt64) (sig : SignalDef D) :
    (∀ count ∈ signShiftCounts raw sig, InShiftRange count) ↔
      ¬ (sig.isSigned = true ∧ sig.length = 0) := by
  unfold signShiftCounts
  constructor
  · rintro hrange ⟨hsigned, hzero⟩
    rw [if_pos ⟨hsigned, hzero ▸ by decide⟩] at hrange
    have hfirst := (hrange _ List.mem_cons_self).1
    rw [hzero, UInt8.toNat_zero] at hfirst
    omega
  · intro hbits count hmem
    split at hmem
    next hguard =>
      obtain ⟨hsigned, hlt⟩ := hguard
      have hlength : sig.length.toNat < 64 := hlt
      have hpos : 0 < sig.length.toNat := by
        rw [Nat.pos_iff_ne_zero]
        exact fun hzero => hbits ⟨hsigned, UInt8.toNat_inj.mp hzero⟩
      rcases eq_or_of_mem_cons_ite hmem with rfl | rfl
      · exact ⟨by omega, by omega⟩
      · exact natCast_inShiftRange hlength
    next => exact absurd hmem List.not_mem_nil

theorem ofInt_eq_zero_iff (n : Int) : UInt8.ofInt n = 0 ↔ 256 ∣ n := by
  rw [UInt8.ofInt, ← UInt8.toNat_inj, UInt8.toNat_ofNat', UInt8.toNat_zero]
  omega

variable {stod : StdString → Option D}

/-- The signal of an accepted line is signed and without bits if the line is. -/
theorem emptySigned_iff {line : StdString} {sig : SignalDef D}
    (haccepted : parseSignalLine stod line = some sig) :
    sig.isSigned = true ∧ sig.length = 0 ↔ EmptySigned line := by
  obtain ⟨tokens, startBit, length, orderSign, htokens, _, hbits, _, hlength, _, hsigned, _⟩ :=
    parseSignalLine_cases haccepted
  have hline : bitInfoOf line = some ((startBit, length), orderSign) := by
    rw [bitInfoOf, htokens]
    exact hbits
  rw [hsigned, hlength, ofInt_eq_zero_iff, decide_eq_true_iff]
  constructor
  · rintro ⟨hminus, hzero⟩
    exact ⟨startBit, length, orderSign, hline, hzero, hminus⟩
  · rintro ⟨_, _, _, hread, hzero, hminus⟩
    rw [hline] at hread
    cases hread
    exact ⟨hminus, hzero⟩

/-- Decoding the signal of an accepted line shifts within its operands, in whatever frame,
if and only if the line is not of a signed signal whose length is 0 in eight bits. -/
theorem shiftCounts_inRange_iff {line : StdString} {sig : SignalDef D}
    (haccepted : parseSignalLine stod line = some sig) (frame : CanFrame) :
    (∀ count ∈ shiftCounts frame sig, InShiftRange count) ↔ ¬ EmptySigned line := by
  rw [← emptySigned_iff haccepted, ← inShiftRange_sign_iff]
  unfold shiftCounts
  constructor
  · exact fun hrange count hmem => hrange count (List.mem_append_right _ hmem)
  · intro hsign count hmem
    rcases List.mem_append.mp hmem with hextract | hrest
    · exact inShiftRange_extract frame.data sig.startBit sig.length count hextract
    · exact hsign count hrest

/-- A signed signal of eight bits. -/
theorem shiftCounts_inRange_temperature : ∃ sig,
    parseSignalLine some "SG_ T : 0|8@1- (1,0) [0|1] \"C\" V".toList = some sig ∧
      ∀ count ∈ shiftCounts { canId := 0x123 } sig, InShiftRange count := by
  have haccepted : parseSignalLine some "SG_ T : 0|8@1- (1,0) [0|1] \"C\" V".toList =
      some ⟨['T'], 0, 8, true, true, ['1'], ['0'], ['0'], ['1'], ['C']⟩ := by decide
  have hread : bitInfoOf "SG_ T : 0|8@1- (1,0) [0|1] \"C\" V".toList =
      some ((0, 8), ['1', '-']) := by decide
  refine ⟨_, haccepted, (shiftCounts_inRange_iff haccepted _).mpr ?_⟩
  rintro ⟨_, _, _, hbits, hzero, _⟩
  rw [hread] at hbits
  cases hbits
  revert hzero
  decide

/-- A signed signal of no bits is accepted, and decoding it shifts by minus one. -/
theorem not_inShiftRange_empty : ∃ sig,
    parseSignalLine some "SG_ T : 0|0@1- (1,0) [0|1] \"C\" V".toList = some sig ∧
      -1 ∈ shiftCounts { canId := 0x123 } sig ∧ ¬ InShiftRange (-1) := by
  refine ⟨⟨['T'], 0, 0, true, true, ['1'], ['0'], ['0'], ['1'], ['C']⟩, by decide, ?_, by decide⟩
  decide

end AutomotiveGateway.Can
