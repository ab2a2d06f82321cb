import Mathlib.Data.List.Basic
import Mathlib.Tactic.Common
import Mathlib.Tactic.IntervalCases

/-!
# Byte order of machine words

Big-endian bytes are the wire form. A little-endian host reaches them by
swapping a word and copying its bytes, or by shifting them into place; both
ways are shown to give the same bytes and the same words.
-/

namespace ByteOrder

/-! ## 16-bit words -/

/-- The wire bytes of a word, most significant first. -/
def bigBytes16 (x : UInt16) : List UInt8 := [(x >>> 8).toUInt8, x.toUInt8]

/-- A word assembled by shifting from its wire bytes. -/
def ofBig16 (hi lo : UInt8) : UInt16 := (hi.toUInt16 <<< 8) ||| lo.toUInt16

/-- The host's image of a word in memory. -/
def littleBytes16 (x : UInt16) : List UInt8 := [x.toUInt8, (x >>> 8).toUInt8]

/-- A word copied from two bytes of host memory. -/
def ofLittle16 (b₀ b₁ : UInt8) : UInt16 := b₀.toUInt16 ||| (b₁.toUInt16 <<< 8)

def swap16 (x : UInt16) : UInt16 := (x <<< 8) ||| (x >>> 8)

@[simp] theorem length_bigBytes16 (x : UInt16) : (bigBytes16 x).length = 2 := rfl

theorem toNat_ofBig16 (hi lo : UInt8) :
    (ofBig16 hi lo).toNat = hi.toNat * 256 + lo.toNat := by
  have hlo := lo.toNat_lt
  have hhi := hi.toNat_lt
  have hor := Nat.two_pow_add_eq_or_of_lt hlo hi.toNat
  have hshift : (8 : UInt16).toNat % 16 = 8 := rfl
  simp only [ofBig16, UInt16.toNat_or, UInt16.toNat_shiftLeft, UInt8.toNat_toUInt16, hshift,
    Nat.shiftLeft_eq]
  rw [Nat.mod_eq_of_lt (by omega), Nat.mul_comm, ← hor]

theorem ofBig16_bigBytes16 (x : UInt16) :
    ofBig16 (x >>> 8).toUInt8 x.toUInt8 = x := by
  apply UInt16.toNat_inj.mp
  have hx := x.toNat_lt
  rw [toNat_ofBig16]
  simp [Nat.shiftRight_eq_div_pow]
  omega

theorem bigBytes16_ofBig16 (hi lo : UInt8) : bigBytes16 (ofBig16 hi lo) = [hi, lo] := by
  have hlo := lo.toNat_lt
  have hhi := hi.toNat_lt
  simp only [bigBytes16, List.cons.injEq, and_true]
  constructor
  · apply UInt8.toNat_inj.mp
    simp [toNat_ofBig16, Nat.shiftRight_eq_div_pow]
    omega
  · apply UInt8.toNat_inj.mp
    simp [toNat_ofBig16]

/-- A word is determined by its bytes, and they by the word. -/
theorem ofBig16_inj {hi lo hi' lo' : UInt8} :
    ofBig16 hi lo = ofBig16 hi' lo' ↔ hi = hi' ∧ lo = lo' := by
  constructor
  · intro heq
    have hbytes := congrArg bigBytes16 heq
    rw [bigBytes16_ofBig16, bigBytes16_ofBig16] at hbytes
    simpa using hbytes
  · rintro ⟨rfl, rfl⟩
    rfl

theorem hiByte_ofBig16 (hi lo : UInt8) : (ofBig16 hi lo >>> 8).toUInt8 = hi :=
  (List.cons.inj (bigBytes16_ofBig16 hi lo)).1

theorem loByte_ofBig16 (hi lo : UInt8) : (ofBig16 hi lo).toUInt8 = lo :=
  (List.cons.inj (List.cons.inj (bigBytes16_ofBig16 hi lo)).2).1

/-- Masking a byte with all ones changes nothing. -/
@[simp] theorem and_byteMask (b : UInt8) : b &&& 0xFF = b := by
  apply UInt8.toBitVec_inj.mp
  ext i hi
  interval_cases i <;> simp

theorem littleBytes16_swap16 (x : UInt16) : littleBytes16 (swap16 x) = bigBytes16 x := by
  simp only [littleBytes16, bigBytes16, swap16, List.cons.injEq, and_true]
  constructor
  · apply UInt8.toBitVec_inj.mp
    ext i hi
    simp
  · apply UInt8.toBitVec_inj.mp
    ext i hi
    simp
    grind

theorem swap16_ofLittle16 (b₀ b₁ : UInt8) : swap16 (ofLittle16 b₀ b₁) = ofBig16 b₀ b₁ := by
  apply UInt16.toBitVec_inj.mp
  simp only [swap16, ofLittle16, ofBig16]
  ext i hi
  simp
  grind

/-- Network order conversion of a little-endian host. -/
abbrev htons : UInt16 → UInt16 := swap16

abbrev ntohs : UInt16 → UInt16 := swap16

/-! ## 32-bit words -/

def bigBytes32 (x : UInt32) : List UInt8 :=
  [(x >>> 24).toUInt8, (x >>> 16).toUInt8, (x >>> 8).toUInt8, x.toUInt8]

def ofBig32 (b₀ b₁ b₂ b₃ : UInt8) : UInt32 :=
  (b₀.toUInt32 <<< 24) ||| (b₁.toUInt32 <<< 16) ||| (b₂.toUInt32 <<< 8) ||| b₃.toUInt32

def littleBytes32 (x : UInt32) : List UInt8 :=
  [x.toUInt8, (x >>> 8).toUInt8, (x >>> 16).toUInt8, (x >>> 24).toUInt8]

def ofLittle32 (b₀ b₁ b₂ b₃ : UInt8) : UInt32 :=
  b₀.toUInt32 ||| (b₁.toUInt32 <<< 8) ||| (b₂.toUInt32 <<< 16) ||| (b₃.toUInt32 <<< 24)

def swap32 (x : UInt32) : UInt32 :=
  (x <<< 24) ||| ((x &&& (0xFF00 : UInt32)) <<< 8) |||
    ((x >>> 8) &&& (0xFF00 : UInt32)) ||| (x >>> 24)

abbrev htonl : UInt32 → UInt32 := swap32

abbrev ntohl : UInt32 → UInt32 := swap32

@[simp] theorem length_bigBytes32 (x : UInt32) : (bigBytes32 x).length = 4 := rfl

theorem toNat_ofBig32 (b₀ b₁ b₂ b₃ : UInt8) :
    (ofBig32 b₀ b₁ b₂ b₃).toNat =
      b₀.toNat * 16777216 + b₁.toNat * 65536 + b₂.toNat * 256 + b₃.toNat := by
  have h₀ := b₀.toNat_lt
  have h₁ := b₁.toNat_lt
  have h₂ := b₂.toNat_lt
  have h₃ := b₃.toNat_lt
  have hshift₂₄ : (24 : UInt32).toNat % 32 = 24 := rfl
  have hshift₁₆ : (16 : UInt32).toNat % 32 = 16 := rfl
  have hshift₈ : (8 : UInt32).toNat % 32 = 8 := rfl
  -- the shifted bytes occupy disjoint bit ranges, so each `or` is a sum
  have hor₁ := Nat.two_pow_add_eq_or_of_lt (i := 24) (b := b₁.toNat * 65536) (by omega) b₀.toNat
  have hor₂ := Nat.two_pow_add_eq_or_of_lt (i := 16) (b := b₂.toNat * 256) (by omega)
    (b₀.toNat * 256 + b₁.toNat)
  have hor₃ := Nat.two_pow_add_eq_or_of_lt (i := 8) (b := b₃.toNat) (by omega)
    (b₀.toNat * 65536 + b₁.toNat * 256 + b₂.toNat)
  simp only [ofBig32, UInt32.toNat_or, UInt32.toNat_shiftLeft, UInt8.toNat_toUInt32, hshift₂₄,
    hshift₁₆, hshift₈, Nat.shiftLeft_eq]
  rw [Nat.mod_eq_of_lt (by omega), Nat.mod_eq_of_lt (by omega), Nat.mod_eq_of_lt (by omega)]
  have hfirst : b₀.toNat * 2 ^ 24 ||| b₁.toNat * 2 ^ 16 =
      2 ^ 16 * (b₀.toNat * 256 + b₁.toNat) := by
    rw [show b₀.toNat * 2 ^ 24 = 2 ^ 24 * b₀.toNat by omega,
      show b₁.toNat * 2 ^ 16 = b₁.toNat * 65536 by omega, ← hor₁]
    omega
  have hsecond : 2 ^ 16 * (b₀.toNat * 256 + b₁.toNat) ||| b₂.toNat * 2 ^ 8 =
      2 ^ 8 * (b₀.toNat * 65536 + b₁.toNat * 256 + b₂.toNat) := by
    rw [show b₂.toNat * 2 ^ 8 = b₂.toNat * 256 by omega, ← hor₂]
    omega
  rw [hfirst, hsecond, ← hor₃]
  omega

theorem ofBig32_bigBytes32 (x : UInt32) :
    ofBig32 (x >>> 24).toUInt8 (x >>> 16).toUInt8 (x >>> 8).toUInt8 x.toUInt8 = x := by
  apply UInt32.toNat_inj.mp
  have hx := x.toNat_lt
  rw [toNat_ofBig32]
  simp [Nat.shiftRight_eq_div_pow]
  omega

theorem bigBytes32_ofBig32 (b₀ b₁ b₂ b₃ : UInt8) :
    bigBytes32 (ofBig32 b₀ b₁ b₂ b₃) = [b₀, b₁, b₂, b₃] := by
  have h₀ := b₀.toNat_lt
  have h₁ := b₁.toNat_lt
  have h₂ := b₂.toNat_lt
  have h₃ := b₃.toNat_lt
  simp only [bigBytes32, List.cons.injEq, and_true]
  refine ⟨?_, ?_, ?_, ?_⟩
  all_goals
    apply UInt8.toNat_inj.mp
    simp [toNat_ofBig32, Nat.shiftRight_eq_div_pow]
  all_goals omega

theorem littleBytes32_swap32 (x : UInt32) : littleBytes32 (swap32 x) = bigBytes32 x := by
  simp only [littleBytes32, bigBytes32, swap32, List.cons.injEq, and_true]
  refine ⟨?_, ?_, ?_, ?_⟩
  all_goals
    apply UInt8.toBitVec_inj.mp
    ext i hi
    interval_cases i <;> simp

theorem ofLittle32_eq_ofBig32 (b₀ b₁ b₂ b₃ : UInt8) :
    ofLittle32 b₀ b₁ b₂ b₃ = ofBig32 b₃ b₂ b₁ b₀ := by
  unfold ofLittle32 ofBig32
  generalize b₁.toUInt32 <<< 8 = x₁, b₂.toUInt32 <<< 16 = x₂, b₃.toUInt32 <<< 24 = x₃
  rw [UInt32.or_comm, UInt32.or_comm b₀.toUInt32, UInt32.or_comm _ x₂, UInt32.or_assoc,
    UInt32.or_assoc]

/-- A word copied to memory and back is unchanged. -/
theorem ofLittle32_littleBytes32 (x : UInt32) :
    ofLittle32 x.toUInt8 (x >>> 8).toUInt8 (x >>> 16).toUInt8 (x >>> 24).toUInt8 = x := by
  rw [ofLittle32_eq_ofBig32, ofBig32_bigBytes32]

theorem bigBytes32_injective {x y : UInt32} (hbytes : bigBytes32 x = bigBytes32 y) : x = y := by
  simp only [bigBytes32, List.cons.injEq, and_true] at hbytes
  obtain ⟨h₀, h₁, h₂, h₃⟩ := hbytes
  rw [← ofBig32_bigBytes32 x, ← ofBig32_bigBytes32 y, h₀, h₁, h₂, h₃]

/-- Swapping changes nothing exactly when the bytes of the word are a palindrome. -/
theorem swap32_eq_self_iff {x : UInt32} : swap32 x = x ↔ (bigBytes32 x).reverse = bigBytes32 x := by
  have hswap := littleBytes32_swap32 x
  constructor
  · intro hself
    rwa [hself] at hswap
  · intro hreverse
    have hlittle : littleBytes32 (swap32 x) = littleBytes32 x := hswap.trans hreverse.symm
    exact bigBytes32_injective (congrArg List.reverse hlittle)

theorem swap32_ofLittle32 (b₀ b₁ b₂ b₃ : UInt8) :
    swap32 (ofLittle32 b₀ b₁ b₂ b₃) = ofBig32 b₀ b₁ b₂ b₃ := by
  rw [ofLittle32_eq_ofBig32]
  have hbytes := littleBytes32_swap32 (ofBig32 b₃ b₂ b₁ b₀)
  rw [bigBytes32_ofBig32] at hbytes
  simp only [littleBytes32, List.cons.injEq, and_true] at hbytes
  obtain ⟨h₀, h₁, h₂, h₃⟩ := hbytes
  rw [← ofLittle32_littleBytes32 (swap32 _), h₀, h₁, h₂, h₃, ofLittle32_eq_ofBig32]

end ByteOrder
