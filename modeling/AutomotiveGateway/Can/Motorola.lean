import AutomotiveGateway.Can.SignalDecoder
import Mathlib.Tactic.Ring

/-!
# Motorola byte order

A big-endian signal starts at its most significant bit and runs down each byte into the
next one. The decoder walks upwards from the start bit whatever byte order the DBC file
gives, so it finds the big-endian value only where the two walks read equal bits.
-/

namespace AutomotiveGateway.Can

open Memory

/-- The bit of the data at a position counted from bit 0 of byte 0. -/
def dataBit (data : Vector UInt8 8) (pos : Nat) : Bool :=
  (byteAt data.toList (pos / 8)).toNat.testBit (pos % 8)

/-- The next lower bit of the same byte or, behind bit 0, bit 7 of the next byte. -/
def motorolaNext (pos : Nat) : Nat := if pos % 8 = 0 then pos + 15 else pos - 1

/-- The position of a signal's bit, counted from its most significant one. -/
def motorolaPos (startBit : Nat) : Nat → Nat
  | 0 => startBit
  | k + 1 => motorolaNext (motorolaPos startBit k)

/-- The number that a signal's first bits make up, most significant bit first. -/
def motorolaValue (data : Vector UInt8 8) (startBit : Nat) : Nat → Nat
  | 0 => 0
  | length + 1 =>
      2 * motorolaValue data startBit length + (dataBit data (motorolaPos startBit length)).toNat

/-- All bits of the signal lie inside the data. -/
def MotorolaInside (startBit length : Nat) : Prop := ∀ k < length, motorolaPos startBit k < 64

instance (startBit length : Nat) : Decidable (MotorolaInside startBit length) :=
  Nat.decidableBallLT length fun k _ => motorolaPos startBit k < 64

theorem dataBit_eq (data : Vector UInt8 8) (pos : Nat) :
    dataBit data pos = (littleWord data.toList).testBit pos := (testBit_littleWord _ _).symm

/-- How many bits of the frame come before a position in big-endian order. -/
def motorolaIndex (pos : Nat) : Nat := 8 * (pos / 8) + (7 - pos % 8)

theorem motorolaIndex_next (pos : Nat) :
    motorolaIndex (motorolaNext pos) = motorolaIndex pos + 1 := by
  unfold motorolaIndex motorolaNext
  split_ifs <;> omega

theorem motorolaIndex_pos (startBit k : Nat) :
    motorolaIndex (motorolaPos startBit k) = motorolaIndex startBit + k := by
  induction k with
  | zero => rfl
  | succ k ih => rw [motorolaPos, motorolaIndex_next, ih, Nat.add_assoc]

/-- The walk never comes back to where it started. -/
theorem motorolaPos_ne {startBit k : Nat} (hk : 0 < k) : motorolaPos startBit k ≠ startBit := by
  intro hback
  have hindex := motorolaIndex_pos startBit k
  rw [hback] at hindex
  omega

theorem motorolaPos_add (startBit k l : Nat) :
    motorolaPos startBit (k + l) = motorolaPos (motorolaPos startBit k) l := by
  induction l with
  | zero => rfl
  | succ l ih => rw [← Nat.add_assoc, motorolaPos, ih, motorolaPos]

/-- Further bits are appended behind the ones read so far. -/
theorem motorolaValue_add (data : Vector UInt8 8) (startBit k l : Nat) :
    motorolaValue data startBit (k + l) =
      motorolaValue data startBit k * 2 ^ l + motorolaValue data (motorolaPos startBit k) l := by
  induction l with
  | zero => simp [motorolaValue]
  | succ l ih =>
      rw [← Nat.add_assoc, motorolaValue, ih, motorolaPos_add, motorolaValue, Nat.pow_succ]
      ring

/-- The bits of the big-endian value, counted from the least significant one. -/
theorem testBit_motorolaValue (data : Vector UInt8 8) (startBit length i : Nat) :
    (motorolaValue data startBit length).testBit i =
      (decide (i < length) && dataBit data (motorolaPos startBit (length - 1 - i))) := by
  induction length generalizing i with
  | zero => simp [motorolaValue]
  | succ length ih =>
      rw [motorolaValue, ← Nat.bit_val]
      cases i with
      | zero => simp
      | succ i =>
          have hindex : length + 1 - 1 - (i + 1) = length - 1 - i := by omega
          rw [Nat.testBit_bit_succ, ih, hindex]
          simp

/-- Inside a byte the walk goes down. -/
theorem motorolaPos_byte (k : Nat) {bit j : Nat} (hbit : bit < 8) (hj : j ≤ bit) :
    motorolaPos (8 * k + bit) j = 8 * k + (bit - j) := by
  induction j with
  | zero => rfl
  | succ j ih =>
      rw [motorolaPos, ih (by omega), motorolaNext, if_neg (by omega)]
      omega

/-- From bit 7 on, the walk reads a whole byte. -/
theorem motorolaValue_byte (data : Vector UInt8 8) (k : Nat) :
    motorolaValue data (8 * k + 7) 8 = (byteAt data.toList k).toNat := by
  apply Nat.eq_of_testBit_eq
  intro i
  rw [testBit_motorolaValue]
  by_cases hi : i < 8
  · have hdiv : (8 * k + i) / 8 = k := by omega
    have hmod : (8 * k + i) % 8 = i := by omega
    have hpos : 7 - (8 - 1 - i) = i := by omega
    rw [motorolaPos_byte k (by decide) (by omega), hpos, dataBit, hdiv, hmod, decide_eq_true hi,
      Bool.true_and]
  · have hbyte := (byteAt data.toList k).toNat_lt
    have hpow : 2 ^ 8 ≤ 2 ^ i := Nat.pow_le_pow_right (by decide) (Nat.le_of_not_lt hi)
    rw [Nat.testBit_lt_two_pow (Nat.lt_of_lt_of_le hbyte hpow), decide_eq_false hi, Bool.false_and]

/-- A byte-aligned signal of 16 bits is made up of two bytes, the more significant one first. -/
theorem motorolaValue_sixteen (data : Vector UInt8 8) (k : Nat) :
    motorolaValue data (8 * k + 7) 16 =
      (byteAt data.toList k).toNat * 256 + (byteAt data.toList (k + 1)).toNat := by
  have hnext : motorolaPos (8 * k + 7) 8 = 8 * (k + 1) + 7 := by
    rw [motorolaPos, motorolaPos_byte k (by decide) le_rfl, motorolaNext, if_pos (by omega)]
    omega
  have hsixteen := motorolaValue_add data (8 * k + 7) 8 8
  rw [hnext, motorolaValue_byte, motorolaValue_byte] at hsixteen
  exact hsixteen

/-! ## Against the decoder -/

/-- The decoder's upward walk gives the big-endian value when both read equal bits. -/
theorem extractBits_eq_motorolaValue_iff (data : Vector UInt8 8) (startBit length : UInt8) :
    (extractBits data startBit length).toNat =
        motorolaValue data startBit.toNat length.toNat ↔
      ∀ i < length.toNat, dataBit data (startBit.toNat + i) =
        dataBit data (motorolaPos startBit.toNat (length.toNat - 1 - i)) := by
  rw [toNat_extractBits, rawField]
  constructor
  · intro heq i hi
    have hbit := congrArg (Nat.testBit · i) heq
    simpa [Nat.testBit_mod_two_pow, Nat.testBit_shiftRight, testBit_motorolaValue, hi,
      dataBit_eq] using hbit
  · intro hbits
    apply Nat.eq_of_testBit_eq
    intro i
    rw [Nat.testBit_mod_two_pow, Nat.testBit_shiftRight, testBit_motorolaValue, ← dataBit_eq]
    by_cases hi : i < length.toNat
    · rw [hbits i hi]
    · rw [decide_eq_false hi, Bool.false_and, Bool.false_and]

/-- Of a signal with more than one bit, a frame in which only the start bit is set shows
the difference. -/
theorem exists_extractBits_ne {startBit length : UInt8} (hlong : 1 < length.toNat)
    (hin : MotorolaInside startBit.toNat length.toNat) :
    ∃ data, (extractBits data startBit length).toNat ≠
      motorolaValue data startBit.toNat length.toNat := by
  have hstart : startBit.toNat < 64 := hin 0 (by omega)
  obtain ⟨data, hdata⟩ := exists_data_littleWord (Nat.pow_lt_pow_right (by decide) hstart)
  have hbit : ∀ pos, dataBit data pos = decide (startBit.toNat = pos) := by
    intro pos
    rw [dataBit_eq, hdata, Nat.testBit_two_pow]
  refine ⟨data, fun heq => ?_⟩
  have hfirst := (extractBits_eq_motorolaValue_iff data startBit length).1 heq 0 (by omega)
  have hback : motorolaPos startBit.toNat (length.toNat - 1 - 0) ≠ startBit.toNat :=
    motorolaPos_ne (by omega)
  rw [hbit, hbit, Nat.add_zero, decide_eq_true rfl, eq_comm, decide_eq_true_iff] at hfirst
  exact hback hfirst.symm

variable {D : Type} [DoubleOps D]

/-- For a Motorola signal inside the data, the raw value that the decoder scales is the
big-endian one in a frame if and only if the bits that it reads upwards from the start bit
equal those that the Motorola walk reads, weight by weight. In every frame this is so if
and only if the signal has at most one bit. -/
theorem rawValue_eq_motorolaValue_iff {sig : SignalDef D} (_hbig : sig.isLittleEndian = false)
    (hin : MotorolaInside sig.startBit.toNat sig.length.toNat) :
    (∀ frame : CanFrame, (decodeSignal frame sig).value =
      physicalValue sig (signExtend (extractBits frame.data sig.startBit sig.length) sig)) ∧
    (∀ frame : CanFrame,
      (extractBits frame.data sig.startBit sig.length).toNat =
          motorolaValue frame.data sig.startBit.toNat sig.length.toNat ↔
        ∀ i < sig.length.toNat, dataBit frame.data (sig.startBit.toNat + i) =
          dataBit frame.data (motorolaPos sig.startBit.toNat (sig.length.toNat - 1 - i))) ∧
    ((∀ frame : CanFrame, (extractBits frame.data sig.startBit sig.length).toNat =
        motorolaValue frame.data sig.startBit.toNat sig.length.toNat) ↔ sig.length.toNat ≤ 1) := by
  refine ⟨fun _ => rfl, fun frame => extractBits_eq_motorolaValue_iff _ _ _, ?_⟩
  constructor
  · intro hall
    by_contra hlong
    obtain ⟨data, hne⟩ := exists_extractBits_ne (Nat.lt_of_not_le hlong) hin
    exact hne (hall { canId := 0, data })
  · intro hshort frame
    rw [extractBits_eq_motorolaValue_iff]
    intro i hi
    obtain rfl : i = 0 := by omega
    have hone : sig.length.toNat - 1 - 0 = 0 := by omega
    rw [hone, motorolaPos, Nat.add_zero]

/-- A big-endian signal that starts at bit 7 of byte 0. -/
def motorolaSignal (length : UInt8) : SignalDef Int where
  name := ['M']
  startBit := 7
  length
  isSigned := false
  isLittleEndian := false
  scale := 1
  offset := 0
  minVal := 0
  maxVal := 65535
  unit := []

/-- A flag of one bit is read in a frame in which it is set. -/
theorem rawValue_eq_motorolaValue_flag :
    (extractBits #v[0x80, 0, 0, 0, 0, 0, 0, 0] 7 1).toNat =
      motorolaValue #v[0x80, 0, 0, 0, 0, 0, 0, 0] 7 1 :=
  (@rawValue_eq_motorolaValue_iff Int intOps (motorolaSignal 1) rfl (by decide)).2.2.2
    (by decide) { canId := 0x100, data := #v[0x80, 0, 0, 0, 0, 0, 0, 0] }

/-- The bytes 12 34 are 0x1234 in Motorola order; the decoder reads 0x3412 from bit 7 on. -/
theorem rawValue_ne_motorolaValue_sixteen :
    (motorolaSignal 16).isLittleEndian = false ∧ MotorolaInside 7 16 ∧
      motorolaValue #v[0x12, 0x34, 0, 0, 0, 0, 0, 0] 7 16 = 0x1234 ∧
      (extractBits #v[0x12, 0x34, 0, 0, 0, 0, 0, 0] 7 16).toNat = 0x68 := by
  decide

end AutomotiveGateway.Can
