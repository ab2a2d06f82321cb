import AutomotiveGateway.Can.SignalDecoder

/-!
# The integer a signal contributes

The decoder scales `raw_signed`, a 64-bit signed integer. It is the integer that the DBC
file gives to the field, except for an unsigned field of 64 bits whose top bit is set.
-/

namespace AutomotiveGateway.Can

open Memory

variable {D : Type}

/-- The variable `raw_signed` of `decode`, once it has its final value. -/
def rawSigned (frame : CanFrame) (sig : SignalDef D) : Int64 :=
  signExtend (extractBits frame.data sig.startBit sig.length) sig

/-- The integer that a DBC file gives to a field: the field itself, or its two's
complement value for a signed signal. -/
def dbcValue (sig : SignalDef D) (data : Vector UInt8 8) : Int :=
  let u := rawField data sig.startBit sig.length
  if sig.isSigned ∧ u.testBit (sig.length.toNat - 1) then (u : Int) - (2 ^ sig.length.toNat : Nat)
  else u

theorem rawField_lt (data : Vector UInt8 8) (startBit length : UInt8) :
    rawField data startBit length < 2 ^ length.toNat :=
  Nat.mod_lt _ (Nat.two_pow_pos _)

/-- A signed field of `n` bits has a value between `-2 ^ (n - 1)` and `2 ^ (n - 1)`, an
unsigned one between 0 and `2 ^ n`. -/
theorem dbcValue_range (sig : SignalDef D) (data : Vector UInt8 8) (hpos : 1 ≤ sig.length.toNat) :
    if sig.isSigned then
      -(2 ^ (sig.length.toNat - 1) : Nat) ≤ dbcValue sig data ∧
        dbcValue sig data < (2 ^ (sig.length.toNat - 1) : Nat)
    else 0 ≤ dbcValue sig data ∧ dbcValue sig data < (2 ^ sig.length.toNat : Nat) := by
  have hfield := rawField_lt data sig.startBit sig.length
  obtain ⟨m, hm⟩ : ∃ m, sig.length.toNat = m + 1 := ⟨sig.length.toNat - 1, by omega⟩
  have hhalf : (2 : Nat) ^ (m + 1) = 2 * 2 ^ m := Nat.pow_succ'
  rw [hm] at hfield
  have htop := testBit_top_iff hfield
  unfold dbcValue
  rw [hm, Nat.add_sub_cancel]
  by_cases hsigned : sig.isSigned
  · rw [if_pos hsigned]
    by_cases hbit : (rawField data sig.startBit sig.length).testBit m
    · have hge := htop.1 hbit
      rw [if_pos ⟨hsigned, hbit⟩]
      omega
    · have hlt := mt htop.2 hbit
      rw [if_neg fun h => hbit h.2]
      omega
  · rw [if_neg hsigned, if_neg fun h => hsigned h.1]
    omega

/-- Sign extension agrees with two's complement at every width. -/
theorem toInt_rawSigned_of_isSigned (frame : CanFrame) {sig : SignalDef D}
    (hsigned : sig.isSigned) (hpos : 1 ≤ sig.length.toNat) (hwidth : sig.length.toNat ≤ 64) :
    (rawSigned frame sig).toInt = dbcValue sig frame.data := by
  have hfield := toNat_extractBits frame.data sig.startBit sig.length
  have hlt := rawField_lt frame.data sig.startBit sig.length
  rw [rawSigned, toInt_signExtend (by rw [hfield]; exact hlt), hfield, dbcValue]
  have hbmod : rawValue sig.isSigned sig.length (rawField frame.data sig.startBit sig.length) =
      Int.bmod (rawField frame.data sig.startBit sig.length) (2 ^ sig.length.toNat) := by
    by_cases hnarrow : sig.length < 64
    · exact if_pos ⟨hsigned, hnarrow⟩
    · have hfull : sig.length.toNat = 64 := Nat.le_antisymm hwidth (Nat.le_of_not_lt hnarrow)
      rw [rawValue, if_neg fun h => hnarrow h.2, hfull]
  rw [hbmod, bmod_two_pow hpos hlt]
  simp only [hsigned, true_and]

/-- An unsigned field is taken over as long as it is no negative 64-bit integer. -/
theorem toInt_rawSigned_of_not_isSigned (frame : CanFrame) {sig : SignalDef D}
    (hsigned : ¬ sig.isSigned) (hwidth : sig.length.toNat ≤ 64) :
    (rawSigned frame sig).toInt = dbcValue sig frame.data ↔
      rawField frame.data sig.startBit sig.length < 2 ^ 63 := by
  have hfield := toNat_extractBits frame.data sig.startBit sig.length
  have hlt := rawField_lt frame.data sig.startBit sig.length
  have hword : rawField frame.data sig.startBit sig.length < 2 ^ 64 :=
    Nat.lt_of_lt_of_le hlt (Nat.pow_le_pow_right (by decide) hwidth)
  rw [rawSigned, toInt_signExtend (by rw [hfield]; exact hlt), hfield, dbcValue, rawValue,
    if_neg fun h => hsigned h.1, if_neg fun h => hsigned h.1, bmod_two_pow (by decide) hword]
  have htop := testBit_top_iff hword
  by_cases hbit : (rawField frame.data sig.startBit sig.length).testBit 63
  · have hge := htop.1 hbit
    rw [if_pos hbit]
    omega
  · have hsmall := mt htop.2 hbit
    rw [if_neg hbit]
    omega

/-- The top bit of the frame's word is the top bit of its last byte. -/
theorem littleWord_lt_iff (data : Vector UInt8 8) :
    littleWord data.toList < 2 ^ 63 ↔ data[7] < 0x80 := by
  have hlength : data.toList.length = 8 := Vector.length_toList
  have hword := littleWord_data_lt data
  have hlast : byteAt data.toList (63 / 8) = data[7] := by
    simp [byteAt, hlength]
  have hbyte := testBit_top_iff data[7].toNat_lt
  have htop := testBit_top_iff hword
  rw [testBit_littleWord, hlast] at htop
  rw [← Nat.not_le, ← htop, UInt8.lt_iff_toNat_lt]
  exact (not_congr hbyte).trans Nat.not_le

variable [DoubleOps D]

/-- The decoder scales `raw_signed`; for a little-endian signal inside the frame this is
the integer of the DBC file if and only if the signal is signed, or shorter than 64 bits,
or the top bit of the data is clear. -/
theorem rawSigned_eq_dbcValue_iff (frame : CanFrame) {sig : SignalDef D}
    (_hlittle : sig.isLittleEndian) (hpos : 1 ≤ sig.length.toNat)
    (hin : sig.startBit.toNat + sig.length.toNat ≤ 64) :
    (decodeSignal frame sig).value = physicalValue sig (rawSigned frame sig) ∧
    ((rawSigned frame sig).toInt = dbcValue sig frame.data ↔
      sig.isSigned ∨ sig.length.toNat < 64 ∨ frame.data[7] < 0x80) := by
  have hwidth : sig.length.toNat ≤ 64 := by omega
  refine ⟨rfl, ?_⟩
  by_cases hsigned : sig.isSigned
  · exact ⟨fun _ => Or.inl hsigned, fun _ => toInt_rawSigned_of_isSigned frame hsigned hpos hwidth⟩
  rw [toInt_rawSigned_of_not_isSigned frame hsigned hwidth, or_iff_right hsigned]
  by_cases hnarrow : sig.length.toNat < 64
  · have hlt := rawField_lt frame.data sig.startBit sig.length
    have hhalf : 2 ^ sig.length.toNat ≤ 2 ^ 63 := Nat.pow_le_pow_right (by decide) (by omega)
    exact ⟨fun _ => Or.inl hnarrow, fun _ => Nat.lt_of_lt_of_le hlt hhalf⟩
  · -- a field of 64 bits is the whole word
    have hstart : sig.startBit.toNat = 0 := by omega
    have hfull : sig.length.toNat = 64 := by omega
    have hword := littleWord_data_lt frame.data
    rw [or_iff_right hnarrow, rawField, hstart, hfull, Nat.shiftRight_zero, Nat.mod_eq_of_lt hword,
      littleWord_lt_iff]

/-- An unsigned signal from bit 0 on, with integers in place of floating-point numbers. -/
def unsignedSignal (length : UInt8) : SignalDef Int where
  name := ['W']
  startBit := 0
  length
  isSigned := false
  isLittleEndian := true
  scale := 1
  offset := 0
  minVal := 0
  maxVal := 100
  unit := []

/-- A frame in which every bit is set. -/
def onesFrame : CanFrame := { canId := 0x100, canDlc := 8, data := Vector.replicate 8 0xFF }

/-- The 63 low bits of a frame full of ones. -/
theorem rawSigned_eq_dbcValue_63 :
    (rawSigned onesFrame (unsignedSignal 63)).toInt = dbcValue (unsignedSignal 63) onesFrame.data :=
  (@rawSigned_eq_dbcValue_iff Int intOps onesFrame (unsignedSignal 63) rfl (by decide)
    (by decide)).2.2 (Or.inr (Or.inl (by decide)))

/-- All 64 bits of it are -1 to the decoder. -/
theorem rawSigned_ne_dbcValue_64 :
    (unsignedSignal 64).isLittleEndian = true ∧ 1 ≤ (unsignedSignal 64).length.toNat ∧
      (unsignedSignal 64).startBit.toNat + (unsignedSignal 64).length.toNat ≤ 64 ∧
      (rawSigned onesFrame (unsignedSignal 64)).toInt = -1 ∧
      dbcValue (unsignedSignal 64) onesFrame.data = 18446744073709551615 := by
  decide

end AutomotiveGateway.Can
