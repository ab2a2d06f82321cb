import AutomotiveGateway.Can.SignalDecoder

/-!
# The iterations of `extract_bits`

The loop counts in 8 bits, and its guard ends it at bit 64 of the frame. No position has
wrapped around by then, and no shift has left its operand.
-/

namespace AutomotiveGateway.Can

open Memory

/-- The variables of an iteration that gets past the guard. -/
structure ExtractStep where
  i : UInt8
  bitPos : UInt8
  byteIdx : UInt8
  bitIdx : UInt8
deriving DecidableEq, Repr

/-- The iterations of `extractLoop` up to its end or to the guard. -/
def extractSteps (startBit : UInt8) : Nat → UInt8 → List ExtractStep
  | 0, _ => []
  | remaining + 1, i =>
      let bitPos := startBit + i
      let byteIdx := bitPos / 8
      if byteIdx.toNat < 8 then
        { i, bitPos, byteIdx, bitIdx := bitPos % 8 } :: extractSteps startBit remaining (i + 1)
      else []

/-- What an iteration does to the result. -/
def ExtractStep.apply (data : Vector UInt8 8) (result : UInt64) (step : ExtractStep) : UInt64 :=
  if byteAt data.toList step.byteIdx.toNat &&& ((1 : UInt8) <<< step.bitIdx) ≠ 0 then
    result ||| ((1 : UInt64) <<< step.i.toUInt64)
  else result

/-- The position is the distance from bit 0 of the frame, the byte is one of its bytes, and
both shifts stay within their operands. -/
structure ExtractStep.InRange (startBit : UInt8) (step : ExtractStep) : Prop where
  bitPos : step.bitPos.toNat = startBit.toNat + step.i.toNat
  byteIdx : step.byteIdx.toNat < 8
  bitIdx : step.bitIdx.toNat < 8
  i : step.i.toNat < 64

theorem extractLoop_eq_foldl (data : Vector UInt8 8) (startBit : UInt8) (remaining : Nat)
    (i : UInt8) (result : UInt64) :
    extractLoop data startBit remaining i result =
      (extractSteps startBit remaining i).foldl (ExtractStep.apply data) result := by
  induction remaining generalizing i result with
  | zero => rfl
  | succ remaining ih =>
      unfold extractLoop extractSteps
      by_cases hin : ((startBit + i) / 8).toNat < 8
      · have hbyte : byteAt data.toList ((startBit + i) / 8).toNat = data.get ⟨_, hin⟩ := by
          rw [byteAt, List.getD_eq_getElem _ _ (by rwa [Vector.length_toList])]
          exact Vector.getElem_toList _
        rw [dif_pos hin, if_pos hin, List.foldl_cons, ih, ExtractStep.apply, hbyte]
      · rw [dif_neg hin, if_neg hin]
        rfl

/-- As long as an iteration is inside the frame, the position of the next has not wrapped
around. -/
theorem inRange_extractSteps {startBit i : UInt8} {remaining : Nat}
    (hi : i.toNat + remaining < 256) (hpos : startBit.toNat + i.toNat < 256) :
    ∀ step ∈ extractSteps startBit remaining i, step.InRange startBit := by
  induction remaining generalizing i with
  | zero => exact fun step hmem => absurd hmem List.not_mem_nil
  | succ remaining ih =>
      obtain ⟨hbyteIdx, hbitIdx⟩ := toNat_bitPos hpos
      have hnext : (i + 1).toNat = i.toNat + 1 := toNat_add_one (by omega)
      intro step hmem
      unfold extractSteps at hmem
      by_cases hin : ((startBit + i) / 8).toNat < 8
      · rw [if_pos hin] at hmem
        rcases List.mem_cons.mp hmem with rfl | hrest
        · have hwithin : i.toNat < 64 := by omega
          have hmask : ((startBit + i) % 8).toNat < 8 := by omega
          exact ⟨(UInt8.toNat_add _ _).trans (Nat.mod_eq_of_lt hpos), hin, hmask, hwithin⟩
        · exact ih (by omega) (by omega) step hrest
      · rw [if_neg hin] at hmem
        exact absurd hmem List.not_mem_nil

/-- The field of a signal that starts behind the frame is empty, and every other ends with
the frame. -/
theorem rawField_eq (data : Vector UInt8 8) (startBit length : UInt8) :
    rawField data startBit length =
      if 64 ≤ startBit.toNat then 0
      else littleWord data.toList / 2 ^ startBit.toNat % 2 ^ min length.toNat 64 := by
  have hword := littleWord_data_lt data
  rw [rawField, Nat.shiftRight_eq_div_pow]
  split
  next hbehind =>
    have hle : 2 ^ 64 ≤ 2 ^ startBit.toNat := Nat.pow_le_pow_right (by decide) hbehind
    rw [Nat.div_eq_of_lt (hword.trans_le hle), Nat.zero_mod]
  next =>
    rcases Nat.le_total length.toNat 64 with hshort | hlong
    · rw [min_eq_left hshort]
    · have hfield : littleWord data.toList / 2 ^ startBit.toNat < 2 ^ 64 :=
        (Nat.div_le_self _ _).trans_lt hword
      have hle : 2 ^ 64 ≤ 2 ^ length.toNat := Nat.pow_le_pow_right (by decide) hlong
      rw [min_eq_right hlong, Nat.mod_eq_of_lt hfield, Nat.mod_eq_of_lt (hfield.trans_le hle)]

/-- For every start and length the bits of the frame's word from the start on, zero behind
its end, and every iteration that contributes is within the frame and the shifts' operands. -/
theorem extractBits_eq_div_mod (data : Vector UInt8 8) (startBit length : UInt8) :
    (extractBits data startBit length).toNat =
        (if 64 ≤ startBit.toNat then 0
        else littleWord data.toList / 2 ^ startBit.toNat % 2 ^ min length.toNat 64) ∧
      extractBits data startBit length =
        (extractSteps startBit length.toNat 0).foldl (ExtractStep.apply data) 0 ∧
      ∀ step ∈ extractSteps startBit length.toNat 0, step.InRange startBit := by
  have hlength := length.toNat_lt
  have hstart := startBit.toNat_lt
  refine ⟨?_, extractLoop_eq_foldl data startBit length.toNat 0 0,
    inRange_extractSteps (by simpa using hlength) (by simpa using hstart)⟩
  rw [toNat_extractBits, rawField_eq]

end AutomotiveGateway.Can
