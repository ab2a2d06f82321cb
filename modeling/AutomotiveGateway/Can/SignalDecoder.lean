import AutomotiveGateway.Can.Definitions
import AutomotiveGateway.Foundation.Memory
import Mathlib.Data.Nat.Bitwise

/-!
# Decoding the signals of a frame

The decoder collects a signal bit by bit. The result is the field of the frame's
64-bit little-endian word at the signal's position, cut off at the end of the frame.
-/

namespace AutomotiveGateway.Can

open Memory

/-- `can_frame`: the identifier with its three flag bits, the number of bytes that were on
the bus, and the data bytes. -/
structure CanFrame where
  canId : UInt32
  canDlc : UInt8 := 0
  data : Vector UInt8 8 := Vector.replicate 8 0
deriving DecidableEq, Repr

/-- A decoded signal: its name, physical value and unit. -/
structure DecodedSignal (D : Type) where
  name : StdString
  value : D
  unit : StdString
deriving DecidableEq, Repr

/-- The loop of `extract_bits`, with `remaining` iterations to go. -/
def extractLoop (data : Vector UInt8 8) (startBit : UInt8) : Nat → UInt8 → UInt64 → UInt64
  | 0, _, result => result
  | remaining + 1, i, result =>
      let bitPos := startBit + i
      let byteIdx := bitPos / 8
      let bitIdx := bitPos % 8
      if h : byteIdx.toNat < 8 then
        let bit := data.get ⟨byteIdx.toNat, h⟩ &&& ((1 : UInt8) <<< bitIdx)
        extractLoop data startBit remaining (i + 1)
          (if bit ≠ 0 then result ||| ((1 : UInt64) <<< i.toUInt64) else result)
      else result

/-- Extract the raw bits of a signal, least significant bit first. -/
def extractBits (data : Vector UInt8 8) (startBit length : UInt8) : UInt64 :=
  extractLoop data startBit length.toNat 0 0

/-! ## The field of a signal -/

/-- The number with these little-endian bytes. -/
def littleWord : List UInt8 → Nat
  | [] => 0
  | byte :: bytes => littleWord bytes * 2 ^ 8 + byte.toNat

/-- The `length` bits from `startBit` on of the frame's little-endian word. -/
def rawField (data : Vector UInt8 8) (startBit length : UInt8) : Nat :=
  (littleWord data.toList >>> startBit.toNat) % 2 ^ length.toNat

theorem testBit_littleWord (bytes : List UInt8) (n : Nat) :
    (littleWord bytes).testBit n = (byteAt bytes (n / 8)).toNat.testBit (n % 8) := by
  induction bytes generalizing n with
  | nil => simp [littleWord, byteAt]
  | cons byte bytes ih =>
      have hbyte := byte.toNat_lt
      rw [littleWord, Nat.mul_comm, Nat.testBit_two_pow_mul_add _ hbyte]
      by_cases hfirst : n < 8
      · rw [if_pos hfirst, Nat.div_eq_of_lt hfirst, Nat.mod_eq_of_lt hfirst]
        rfl
      · obtain ⟨m, rfl⟩ : ∃ m, n = m + 8 := ⟨n - 8, by omega⟩
        rw [if_neg hfirst, Nat.add_sub_cancel, ih, Nat.add_div_right m (by decide),
          Nat.add_mod_right]
        rfl

/-- Behind the last byte there are no bits. -/
theorem testBit_littleWord_of_le {bytes : List UInt8} {n : Nat} (hn : 8 * bytes.length ≤ n) :
    (littleWord bytes).testBit n = false := by
  have hindex : bytes.length ≤ n / 8 := by omega
  rw [testBit_littleWord, byteAt, List.getD_eq_getElem?_getD, List.getElem?_eq_none hindex]
  exact Nat.zero_testBit _

theorem littleWord_lt (bytes : List UInt8) : littleWord bytes < 2 ^ (8 * bytes.length) := by
  induction bytes with
  | nil => exact Nat.one_pos
  | cons byte bytes ih =>
      have hbyte := byte.toNat_lt
      rw [littleWord, List.length_cons, Nat.mul_succ, Nat.pow_add]
      omega

theorem littleWord_data_lt (data : Vector UInt8 8) : littleWord data.toList < 2 ^ 64 := by
  have hlt := littleWord_lt data.toList
  rwa [Vector.length_toList] at hlt

/-- The first bytes are the low bits of the word. -/
theorem littleWord_take (bytes : List UInt8) (count : Nat) :
    littleWord (bytes.take count) = littleWord bytes % 2 ^ (8 * count) := by
  apply Nat.eq_of_testBit_eq
  intro n
  rw [Nat.testBit_mod_two_pow, testBit_littleWord, testBit_littleWord]
  by_cases hn : n < 8 * count
  · rw [byteAt_take (by omega), decide_eq_true hn, Bool.true_and]
  · have hbehind : (bytes.take count).length ≤ n / 8 := by
      rw [List.length_take]
      omega
    rw [decide_eq_false hn, Bool.false_and, byteAt, List.getD_eq_getElem?_getD,
      List.getElem?_eq_none hbehind]
    exact Nat.zero_testBit _

theorem littleWord_inj {left right : List UInt8} (hlength : left.length = right.length)
    (hword : littleWord left = littleWord right) : left = right := by
  induction left generalizing right with
  | nil => exact (List.eq_nil_of_length_eq_zero hlength.symm).symm
  | cons byte bytes ih =>
      cases right with
      | nil => cases hlength
      | cons byte' bytes' =>
          have hbyte := byte.toNat_lt
          have hbyte' := byte'.toNat_lt
          simp only [littleWord] at hword
          have hhead : byte = byte' := UInt8.toNat_inj.1 (by omega)
          rw [hhead, ih (Nat.succ.inj hlength) (by omega)]

/-- Every word is the word of some bytes. -/
theorem exists_littleWord_eq (size : Nat) {word : Nat} (hword : word < 2 ^ (8 * size)) :
    ∃ bytes : List UInt8, bytes.length = size ∧ littleWord bytes = word := by
  induction size generalizing word with
  | zero => exact ⟨[], rfl, (Nat.lt_one_iff.1 hword).symm⟩
  | succ size ih =>
      rw [Nat.mul_succ, Nat.pow_add] at hword
      obtain ⟨bytes, hlength, hhigh⟩ := ih (Nat.div_lt_of_lt_mul (Nat.mul_comm _ _ ▸ hword))
      refine ⟨UInt8.ofNat word :: bytes, by rw [List.length_cons, hlength], ?_⟩
      rw [littleWord, hhigh, UInt8.toNat_ofNat']
      exact Nat.div_add_mod' word (2 ^ 8)

/-- Every 64-bit word is the word of some frame. -/
theorem exists_data_littleWord {word : Nat} (hword : word < 2 ^ 64) :
    ∃ data : Vector UInt8 8, littleWord data.toList = word := by
  obtain ⟨bytes, hlength, hbytes⟩ := exists_littleWord_eq 8 hword
  exact ⟨⟨bytes.toArray, by simpa using hlength⟩, hbytes⟩

/-- A mask with one bit shows that bit. -/
theorem and_two_pow_eq_zero_iff (n bit : Nat) : n &&& 2 ^ bit = 0 ↔ n.testBit bit = false := by
  have hpos : 2 ^ bit ≠ 0 := Nat.ne_of_gt (Nat.two_pow_pos bit)
  rw [Nat.and_two_pow, Nat.mul_eq_zero, or_iff_left hpos]
  cases n.testBit bit <;> simp

/-- One bit of a byte, looked at through a mask. -/
theorem and_shiftLeft_ne_zero (byte : UInt8) {bitIdx : UInt8} (hbit : bitIdx.toNat < 8) :
    byte &&& ((1 : UInt8) <<< bitIdx) ≠ 0 ↔ byte.toNat.testBit bitIdx.toNat := by
  have hmask : ((1 : UInt8) <<< bitIdx).toNat = 2 ^ bitIdx.toNat := by
    have hpow : 2 ^ bitIdx.toNat < 2 ^ 8 := Nat.pow_lt_pow_right (by decide) hbit
    rw [UInt8.toNat_shiftLeft, Nat.mod_eq_of_lt hbit, UInt8.toNat_one, Nat.shiftLeft_eq,
      Nat.one_mul, Nat.mod_eq_of_lt hpow]
  rw [ne_eq, ← UInt8.toNat_inj, UInt8.toNat_and, hmask, UInt8.toNat_zero, and_two_pow_eq_zero_iff,
    Bool.not_eq_false]

theorem testBit_or_shiftLeft (result : UInt64) {i : UInt8} (hi : i.toNat < 64) (j : Nat) :
    (result ||| ((1 : UInt64) <<< i.toUInt64)).toNat.testBit j =
      (result.toNat.testBit j || decide (i.toNat = j)) := by
  have hpow : 2 ^ i.toNat < 2 ^ 64 := Nat.pow_lt_pow_right (by decide) hi
  rw [UInt64.toNat_or, UInt64.toNat_shiftLeft, UInt8.toNat_toUInt64, Nat.mod_eq_of_lt hi,
    UInt64.toNat_one, Nat.shiftLeft_eq, Nat.one_mul, Nat.mod_eq_of_lt hpow, Nat.testBit_or,
    Nat.testBit_two_pow]

theorem toNat_add_one {i : UInt8} (hi : i.toNat + 1 < 256) : (i + 1).toNat = i.toNat + 1 := by
  rw [UInt8.toNat_add, UInt8.toNat_one, Nat.mod_eq_of_lt hi]

/-- The 8-bit position of an iteration, as long as it does not wrap around. -/
theorem toNat_bitPos {startBit i : UInt8} (hpos : startBit.toNat + i.toNat < 256) :
    ((startBit + i) / 8).toNat = (startBit.toNat + i.toNat) / 8 ∧
      ((startBit + i) % 8).toNat = (startBit.toNat + i.toNat) % 8 := by
  have hbitPos : (startBit + i).toNat = startBit.toNat + i.toNat := by
    rw [UInt8.toNat_add, Nat.mod_eq_of_lt hpos]
  rw [UInt8.toNat_div, UInt8.toNat_mod, hbitPos]
  exact ⟨rfl, rfl⟩

/-- An iteration looks at the frame's bit at its position. -/
theorem bitAtPos_iff (data : Vector UInt8 8) {startBit i : UInt8}
    (hpos : startBit.toNat + i.toNat < 256) (hin : ((startBit + i) / 8).toNat < 8) :
    data.get ⟨_, hin⟩ &&& ((1 : UInt8) <<< ((startBit + i) % 8)) ≠ 0 ↔
      (littleWord data.toList).testBit (startBit.toNat + i.toNat) := by
  obtain ⟨hbyteIdx, hbitIdx⟩ := toNat_bitPos hpos
  rw [and_shiftLeft_ne_zero _ (by omega), testBit_littleWord, hbitIdx]
  have hindex : (startBit.toNat + i.toNat) / 8 < 8 := by omega
  simp [byteAt, hbyteIdx, hindex]
  rfl

/-- What the remaining iterations of the loop add. They stop at bit 64 of the frame, so
the 8-bit position never wraps around. -/
theorem testBit_extractLoop (data : Vector UInt8 8) (startBit : UInt8) (remaining : Nat) (i : UInt8)
    (result : UInt64) (hi : i.toNat + remaining < 256) (hpos : startBit.toNat + i.toNat < 256)
    (j : Nat) :
    (extractLoop data startBit remaining i result).toNat.testBit j =
      (result.toNat.testBit j || decide (i.toNat ≤ j ∧ j < i.toNat + remaining) &&
        (littleWord data.toList).testBit (startBit.toNat + j)) := by
  induction remaining generalizing i result with
  | zero =>
      have hnone : ¬ (i.toNat ≤ j ∧ j < i.toNat + 0) := by omega
      rw [extractLoop, decide_eq_false hnone, Bool.false_and, Bool.or_false]
  | succ remaining ih =>
      have hbyteIdx := (toNat_bitPos hpos).1
      have hnext : (i + 1).toNat = i.toNat + 1 := toNat_add_one (by omega)
      unfold extractLoop
      by_cases hin : ((startBit + i) / 8).toNat < 8
      · have hbit := bitAtPos_iff data hpos hin
        have hnarrow : i.toNat < 64 := by omega
        rw [dif_pos hin, ih (i + 1) _ (by omega) (by omega), hnext]
        by_cases hset : (littleWord data.toList).testBit (startBit.toNat + i.toNat)
        · rw [if_pos (hbit.2 hset), testBit_or_shiftLeft result hnarrow]
          by_cases hj : i.toNat = j
          · subst hj
            simp [hset]
          · grind
        · rw [if_neg (fun h => hset (hbit.1 h))]
          by_cases hj : i.toNat = j
          · subst hj
            simp [hset]
          · grind
      · rw [dif_neg hin]
        -- behind the end of the frame there are no bits to add
        by_cases hj : i.toNat ≤ j
        · have hbit : (littleWord data.toList).testBit (startBit.toNat + j) = false := by
            apply testBit_littleWord_of_le
            rw [Vector.length_toList]
            omega
          rw [hbit, Bool.and_false, Bool.or_false]
        · have hout : ¬ (i.toNat ≤ j ∧ j < i.toNat + (remaining + 1)) := fun h => hj h.1
          rw [decide_eq_false hout, Bool.false_and, Bool.or_false]

/-- `extract_bits` reads the signal's field. -/
theorem toNat_extractBits (data : Vector UInt8 8) (startBit length : UInt8) :
    (extractBits data startBit length).toNat = rawField data startBit length := by
  apply Nat.eq_of_testBit_eq
  intro j
  have hlength := length.toNat_lt
  have hstart := startBit.toNat_lt
  rw [extractBits, testBit_extractLoop data startBit length.toNat 0 0 (by simpa using hlength)
    (by simpa using hstart), rawField, Nat.testBit_mod_two_pow, Nat.testBit_shiftRight]
  simp

/-! ## The value of a signal -/

/-- The raw value a signal's field stands for, in two's complement for a signed signal. -/
def rawValue (isSigned : Bool) (length : UInt8) (field : Nat) : Int :=
  if isSigned ∧ length < 64 then Int.bmod field (2 ^ length.toNat) else Int.bmod field (2 ^ 64)

/-- The ones above the low `length` bits. -/
theorem toNat_shiftLeft_ones {length : UInt8} (hlength : length.toNat < 64) :
    (~~~(0 : UInt64) <<< length.toUInt64).toNat =
      2 ^ length.toNat * (2 ^ (64 - length.toNat) - 1) := by
  have hsplit : 2 ^ length.toNat * 2 ^ (64 - length.toNat) = 2 ^ 64 := by
    rw [← Nat.pow_add]
    congr 1
    omega
  have hpos : 0 < 2 ^ length.toNat := Nat.two_pow_pos _
  have hle : 2 ^ length.toNat ≤ 2 ^ 64 := Nat.pow_le_pow_right (by decide) (by omega)
  have hones : (~~~(0 : UInt64)).toNat = 2 ^ 64 - 1 := by decide
  have hover : (2 ^ 64 - 1) * 2 ^ length.toNat =
      (2 ^ 64 - 2 ^ length.toNat) + 2 ^ 64 * (2 ^ length.toNat - 1) := by
    omega
  rw [UInt64.toNat_shiftLeft, UInt8.toNat_toUInt64, Nat.mod_eq_of_lt hlength, hones,
    Nat.shiftLeft_eq, hover, Nat.add_mul_mod_self_left, Nat.mod_eq_of_lt (by omega),
    Nat.mul_sub, hsplit, Nat.mul_one]

theorem toInt_toInt64 (raw : UInt64) : raw.toInt64.toInt = Int.bmod raw.toNat (2 ^ 64) := by
  rw [← Int64.toInt_toBitVec, UInt64.toBitVec_toInt64, BitVec.toInt_eq_toNat_bmod,
    UInt64.toNat_toBitVec]

/-- The top bit of a number of `m + 1` bits. -/
theorem testBit_top_iff {n m : Nat} (hn : n < 2 ^ (m + 1)) : n.testBit m ↔ 2 ^ m ≤ n :=
  ⟨Nat.ge_two_pow_of_testBit,
    fun hge => Nat.testBit_of_two_pow_le_and_two_pow_add_one_gt hge hn⟩

/-- Two's complement looks at the top bit of the field only. -/
theorem bmod_two_pow {field length : Nat} (hpos : 0 < length) (hfield : field < 2 ^ length) :
    Int.bmod field (2 ^ length) =
      if field.testBit (length - 1) then (field : Int) - (2 ^ length : Nat) else field := by
  obtain ⟨m, rfl⟩ : ∃ m, length = m + 1 := ⟨length - 1, by omega⟩
  have hhalf : (2 : Nat) ^ (m + 1) = 2 * 2 ^ m := by rw [Nat.pow_succ, Nat.mul_comm]
  have hmod : (field : Int) % (2 ^ (m + 1) : Nat) = field :=
    Int.emod_eq_of_lt (Int.natCast_nonneg field) (Int.ofNat_lt.2 hfield)
  have hbit := testBit_top_iff hfield
  rw [Nat.add_sub_cancel, Int.bmod_def, hmod]
  by_cases hge : 2 ^ m ≤ field
  · rw [if_neg (by omega), if_pos (hbit.2 hge)]
  · rw [if_pos (by omega), if_neg (fun h => hge (hbit.1 h))]

/-- Setting all bits from `length` on subtracts `2 ^ length`. -/
theorem bmod_or_ones {raw : UInt64} {length : UInt8} (hlength : length.toNat < 64)
    (hraw : raw.toNat < 2 ^ length.toNat) :
    Int.bmod (raw ||| (~~~(0 : UInt64) <<< length.toUInt64)).toNat (2 ^ 64) =
      Int.bmod ((raw.toNat : Int) - (2 ^ length.toNat : Nat)) (2 ^ 64) := by
  have hsplit : 2 ^ length.toNat * 2 ^ (64 - length.toNat) = 2 ^ 64 := by
    rw [← Nat.pow_add]
    congr 1
    omega
  have hle : 2 ^ length.toNat ≤ 2 ^ 64 := Nat.pow_le_pow_right (by decide) (by omega)
  have hor : (raw ||| (~~~(0 : UInt64) <<< length.toUInt64)).toNat =
      raw.toNat + (2 ^ 64 - 2 ^ length.toNat) := by
    rw [UInt64.toNat_or, toNat_shiftLeft_ones hlength, Nat.lor_comm,
      ← Nat.two_pow_add_eq_or_of_lt hraw, Nat.mul_sub, hsplit, Nat.mul_one, Nat.add_comm]
  have hcast : ((raw.toNat + (2 ^ 64 - 2 ^ length.toNat) : Nat) : Int) =
      (raw.toNat : Int) - (2 ^ length.toNat : Nat) + (2 ^ 64 : Nat) := by
    omega
  rw [hor, hcast, Int.add_bmod_right]

/-- The test for a set sign bit. -/
theorem and_signBit_ne_zero (raw : UInt64) {length : UInt8} (hpos : 0 < length.toNat)
    (hlength : length.toNat < 64) :
    raw &&& ((1 : UInt64) <<< (length - 1).toUInt64) ≠ 0 ↔
      raw.toNat.testBit (length.toNat - 1) := by
  have hle : (1 : UInt8) ≤ length := hpos
  have hsub : (length - 1).toNat = length.toNat - 1 := UInt8.toNat_sub_of_le length 1 hle
  have hwidth : length.toNat - 1 < 64 := by omega
  have hpow : 2 ^ (length.toNat - 1) < 2 ^ 64 := Nat.pow_lt_pow_right (by decide) hwidth
  have hmask : ((1 : UInt64) <<< (length - 1).toUInt64).toNat = 2 ^ (length.toNat - 1) := by
    rw [UInt64.toNat_shiftLeft, UInt8.toNat_toUInt64, hsub, Nat.mod_eq_of_lt hwidth,
      UInt64.toNat_one, Nat.shiftLeft_eq, Nat.one_mul, Nat.mod_eq_of_lt hpow]
  rw [ne_eq, ← UInt64.toNat_inj, UInt64.toNat_and, hmask, UInt64.toNat_zero,
    and_two_pow_eq_zero_iff, Bool.not_eq_false]

variable {D : Type}

/-- The raw value with its sign. For a signed signal of length 0 there is no sign bit
to look at, and no bit of the raw value either. -/
def signExtend (raw : UInt64) (sig : SignalDef D) : Int64 :=
  if sig.isSigned ∧ sig.length < 64 then
    let signBit := (1 : UInt64) <<< (sig.length - 1).toUInt64
    if raw &&& signBit ≠ 0 then (raw ||| (~~~(0 : UInt64) <<< sig.length.toUInt64)).toInt64
    else raw.toInt64
  else raw.toInt64

/-- The sign extension gives a field its value. -/
theorem toInt_signExtend {raw : UInt64} {sig : SignalDef D}
    (hraw : raw.toNat < 2 ^ sig.length.toNat) :
    (signExtend raw sig).toInt = rawValue sig.isSigned sig.length raw.toNat := by
  unfold signExtend rawValue
  by_cases hsigned : sig.isSigned ∧ sig.length < 64
  · obtain ⟨-, hlt⟩ := id hsigned
    have hlength : sig.length.toNat < 64 := hlt
    rw [if_pos hsigned, if_pos hsigned]
    rcases Nat.eq_zero_or_pos sig.length.toNat with hzero | hpos
    · -- An empty field: whatever bit the shift by -1 selects, it is not set.
      have hraw0 : raw = 0 := by
        rw [hzero] at hraw
        exact UInt64.toNat_inj.1 (by simpa using hraw)
      subst hraw0
      simp [hzero]
    · have hfit : 2 ^ sig.length.toNat ≤ 2 ^ 63 := Nat.pow_le_pow_right (by decide) (by omega)
      rw [bmod_two_pow hpos hraw]
      by_cases hsign : raw.toNat.testBit (sig.length.toNat - 1)
      · rw [if_pos ((and_signBit_ne_zero raw hpos hlength).2 hsign), if_pos hsign, toInt_toInt64,
          bmod_or_ones hlength hraw]
        exact Int.bmod_eq_of_le (by omega) (by omega)
      · rw [if_neg (fun h => hsign ((and_signBit_ne_zero raw hpos hlength).1 h)), if_neg hsign,
          toInt_toInt64]
        exact Int.bmod_eq_of_le (by omega) (by omega)
  · rw [if_neg hsigned, if_neg hsigned, toInt_toInt64]

variable [DoubleOps D]

/-- The physical value of a raw value, clamped to the signal's range. -/
def physicalValue (sig : SignalDef D) (rawSigned : Int64) : D :=
  let physical := DoubleOps.add (DoubleOps.mul (DoubleOps.ofInt64 rawSigned) sig.scale) sig.offset
  stdMax sig.minVal (stdMin sig.maxVal physical)

/-- Decode one signal. -/
def decodeSignal (frame : CanFrame) (sig : SignalDef D) : DecodedSignal D :=
  let raw := extractBits frame.data sig.startBit sig.length
  { name := sig.name, value := physicalValue sig (signExtend raw sig), unit := sig.unit }

/-- Decode all signals of a frame, in the order of the definition. -/
def decode (frame : CanFrame) (msg : MessageDef D) : List (DecodedSignal D) :=
  msg.signals.map (decodeSignal frame)

/-! ## What a DBC file says of a value -/

/-- A value inside a range stays; any other becomes an end of the range. A value that is not less
than the upper end becomes that end, as a NaN does. -/
def clamp (lower upper value : D) : D :=
  if DoubleOps.lt value upper then (if DoubleOps.lt lower value then value else lower)
  else if DoubleOps.lt lower upper then upper
  else lower

/-- The physical value of a raw number: `raw * scale + offset`, clamped to the range of the
signal. -/
def dbcPhysical (sig : SignalDef D) (raw : Int64) : D :=
  clamp sig.minVal sig.maxVal
    (DoubleOps.add (DoubleOps.mul (DoubleOps.ofInt64 raw) sig.scale) sig.offset)

theorem physicalValue_eq (sig : SignalDef D) (raw : Int64) :
    physicalValue sig raw = dbcPhysical sig raw := by
  unfold physicalValue dbcPhysical clamp stdMax stdMin
  dsimp only
  split <;> rfl

/-- The physical value of a signal in the data of a frame. -/
def signalValue (data : Vector UInt8 8) (sig : SignalDef D) : D :=
  dbcPhysical sig
    (Int64.ofInt (rawValue sig.isSigned sig.length (rawField data sig.startBit sig.length)))

theorem value_decodeSignal (frame : CanFrame) (sig : SignalDef D) :
    (decodeSignal frame sig).value = signalValue frame.data sig := by
  have hfield := toNat_extractBits frame.data sig.startBit sig.length
  have hraw : (extractBits frame.data sig.startBit sig.length).toNat < 2 ^ sig.length.toNat := by
    rw [hfield]
    exact Nat.mod_lt _ (Nat.two_pow_pos _)
  rw [decodeSignal, signalValue, ← hfield, ← toInt_signExtend hraw, Int64.ofInt_toInt,
    physicalValue_eq]

end AutomotiveGateway.Can
