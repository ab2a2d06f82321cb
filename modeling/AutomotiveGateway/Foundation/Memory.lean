import AutomotiveGateway.Foundation.ByteOrder
import Mathlib.Data.List.Basic
import Mathlib.Tactic.Common

/-!
# Byte buffers

A pointer into a byte array is the list of bytes from its address to the end of
the array. Plain accesses are total and their callers guard them; checked
accesses fail outside the buffer, so a computation made of them that succeeds
never left its bounds.
-/

namespace Memory

open ByteOrder

/-- The byte at an offset behind a pointer, under its caller's length guard. -/
def byteAt (pointer : List UInt8) (offset : Nat) : UInt8 := pointer.getD offset 0

theorem byteAt_take {pointer : List UInt8} {len offset : Nat} (hoffset : offset < len) :
    byteAt (pointer.take len) offset = byteAt pointer offset := by
  simp [byteAt, hoffset]

/-- Four bytes at the front of a long enough buffer. -/
theorem exists_cons₄ {buffer : List UInt8} (hlen : 4 ≤ buffer.length) :
    ∃ b₀ b₁ b₂ b₃ rest, buffer = b₀ :: b₁ :: b₂ :: b₃ :: rest := by
  match buffer, hlen with
  | b₀ :: b₁ :: b₂ :: b₃ :: rest, _ => exact ⟨b₀, b₁, b₂, b₃, rest, rfl⟩
  | [], hlen | [_], hlen | [_, _], hlen | [_, _, _], hlen =>
      simp only [List.length_cons, List.length_nil] at hlen
      omega

/-- Move `count` bytes from offset `source` to the front of the buffer. -/
def moveToFront (buffer : List UInt8) (source count : Nat) : List UInt8 :=
  (buffer.drop source).take count ++ buffer.drop count

/-- Overwrite the bytes at an offset, as far as the buffer reaches. -/
def overwrite (buffer : List UInt8) (offset : Nat) (bytes : List UInt8) : List UInt8 :=
  buffer.take offset ++ bytes ++ buffer.drop (offset + bytes.length)

/-- Read a byte, failing outside the buffer. -/
def load (buffer : List UInt8) (offset : Nat) : Option UInt8 := buffer[offset]?

/-- Write bytes at an offset, failing unless they all fit in the buffer. -/
def store (buffer : List UInt8) (offset : Nat) (bytes : List UInt8) : Option (List UInt8) :=
  if offset + bytes.length ≤ buffer.length then some (overwrite buffer offset bytes) else none

theorem load_of_lt {buffer : List UInt8} {offset : Nat} (h : offset < buffer.length) :
    load buffer offset = some (byteAt buffer offset) := by
  simp [load, byteAt, h]

@[simp] theorem length_overwrite {buffer bytes : List UInt8} {offset : Nat}
    (hfits : offset + bytes.length ≤ buffer.length) :
    (overwrite buffer offset bytes).length = buffer.length := by
  simp only [overwrite, List.length_append, List.length_take, List.length_drop]
  omega

/-! ## Words -/

/-- The big-endian words behind a pointer, under their caller's length guard. -/
def bigAt16 (pointer : List UInt8) (offset : Nat) : UInt16 :=
  ofBig16 (byteAt pointer offset) (byteAt pointer (offset + 1))

def bigAt32 (pointer : List UInt8) (offset : Nat) : UInt32 :=
  ofBig32 (byteAt pointer offset) (byteAt pointer (offset + 1)) (byteAt pointer (offset + 2))
    (byteAt pointer (offset + 3))

/-- Copy a word out of a buffer, failing outside it. -/
def loadLittle16 (buffer : List UInt8) (offset : Nat) : Option UInt16 := do
  let b₀ ← load buffer offset
  let b₁ ← load buffer (offset + 1)
  return ofLittle16 b₀ b₁

def loadLittle32 (buffer : List UInt8) (offset : Nat) : Option UInt32 := do
  let b₀ ← load buffer offset
  let b₁ ← load buffer (offset + 1)
  let b₂ ← load buffer (offset + 2)
  let b₃ ← load buffer (offset + 3)
  return ofLittle32 b₀ b₁ b₂ b₃

/-- A word copied from inside the buffer and converted by the host is the big-endian
word there. -/
theorem loadLittle16_of_le (buffer : List UInt8) (offset : Nat)
    (h : offset + 2 ≤ buffer.length) :
    ∃ word, loadLittle16 buffer offset = some word ∧ ntohs word = bigAt16 buffer offset := by
  refine ⟨_, ?_, swap16_ofLittle16 _ _⟩
  rw [loadLittle16, load_of_lt (by omega), load_of_lt (by omega)]
  rfl

theorem loadLittle32_of_le (buffer : List UInt8) (offset : Nat)
    (h : offset + 4 ≤ buffer.length) :
    ∃ word, loadLittle32 buffer offset = some word ∧ ntohl word = bigAt32 buffer offset := by
  refine ⟨_, ?_, swap32_ofLittle32 _ _ _ _⟩
  rw [loadLittle32, load_of_lt (by omega), load_of_lt (by omega), load_of_lt (by omega),
    load_of_lt (by omega)]
  rfl

theorem bigAt16_take {pointer : List UInt8} {len offset : Nat} (hoffset : offset + 2 ≤ len) :
    bigAt16 (pointer.take len) offset = bigAt16 pointer offset := by
  simp (disch := omega) only [bigAt16, byteAt_take]

theorem bigAt32_take {pointer : List UInt8} {len offset : Nat} (hoffset : offset + 4 ≤ len) :
    bigAt32 (pointer.take len) offset = bigAt32 pointer offset := by
  simp (disch := omega) only [bigAt32, byteAt_take]

/-- An offset behind another one counts from there. -/
theorem byteAt_add (pointer : List UInt8) (offset k : Nat) :
    byteAt pointer (offset + k) = byteAt (pointer.drop offset) k := by
  simp [byteAt, List.getD_eq_getElem?_getD]

theorem bigAt16_add (pointer : List UInt8) (offset k : Nat) :
    bigAt16 pointer (offset + k) = bigAt16 (pointer.drop offset) k := by
  simp only [bigAt16, Nat.add_assoc, byteAt_add pointer offset]

theorem bigAt32_add (pointer : List UInt8) (offset k : Nat) :
    bigAt32 pointer (offset + k) = bigAt32 (pointer.drop offset) k := by
  simp only [bigAt32, Nat.add_assoc, byteAt_add pointer offset]

/-- Behind the bytes written before, offsets count from their end. -/
theorem byteAt_append_add (written rest : List UInt8) (k : Nat) :
    byteAt (written ++ rest) (written.length + k) = byteAt rest k := by
  rw [byteAt_add, List.drop_left]

theorem byteAt_append_length (written rest : List UInt8) :
    byteAt (written ++ rest) written.length = byteAt rest 0 :=
  byteAt_append_add written rest 0

theorem bigAt16_append_add (written rest : List UInt8) (k : Nat) :
    bigAt16 (written ++ rest) (written.length + k) = bigAt16 rest k := by
  rw [bigAt16_add, List.drop_left]

theorem bigAt32_append_add (written rest : List UInt8) (k : Nat) :
    bigAt32 (written ++ rest) (written.length + k) = bigAt32 rest k := by
  rw [bigAt32_add, List.drop_left]

theorem bigAt32_append_length (written rest : List UInt8) :
    bigAt32 (written ++ rest) written.length = bigAt32 rest 0 :=
  bigAt32_append_add written rest 0

/-! ## Sequences of writes -/

/-- Two writes, one right behind the other, are one write. -/
theorem store_bind_store (buffer first second : List UInt8) {offset next : Nat}
    (hnext : next = offset + first.length) :
    ((store buffer offset first).bind fun buffer => store buffer next second) =
      store buffer offset (first ++ second) := by
  subst hnext
  by_cases hfirst : offset + first.length ≤ buffer.length
  · have hlength := length_overwrite hfirst
    rw [store, if_pos hfirst, Option.bind_some, store, store, hlength,
      List.length_append]
    by_cases hsecond : offset + first.length + second.length ≤ buffer.length
    · rw [if_pos hsecond, if_pos (by omega)]
      have htake : (buffer.take offset ++ first).length = offset + first.length := by
        rw [List.length_append, List.length_take]
        omega
      simp only [overwrite, Option.some.injEq]
      rw [List.take_append_of_le_length (Nat.le_of_eq htake.symm),
        List.take_of_length_le (Nat.le_of_eq htake),
        List.drop_append, List.drop_of_length_le (by omega), List.nil_append, List.drop_drop, htake]
      simp only [List.length_append, List.append_assoc]
      congr 4
      omega
    · rw [if_neg hsecond, if_neg (by omega)]
  · rw [store, if_neg hfirst, store, if_neg (by rw [List.length_append]; omega)]
    rfl

/-- A computation that writes exactly these bytes at an offset, and fails when they do
not fit. -/
def Writes (write : List UInt8 → Option (List UInt8)) (offset : Nat) (bytes : List UInt8) : Prop :=
  ∀ buffer, write buffer = store buffer offset bytes

theorem writes_store (offset : Nat) (bytes : List UInt8) :
    Writes (fun buffer => store buffer offset bytes) offset bytes := fun _ => rfl

theorem Writes.congr {write : List UInt8 → Option (List UInt8)} {offset : Nat}
    {bytes image : List UInt8} (h : Writes write offset bytes) (heq : bytes = image) :
    Writes write offset image := heq ▸ h

theorem Writes.store_bind {rest : List UInt8 → Option (List UInt8)} {offset next : Nat}
    {first second : List UInt8} (hrest : Writes rest next second)
    (hnext : next = offset + first.length) :
    Writes (fun buffer => store buffer offset first >>= rest) offset (first ++ second) := by
  intro buffer
  rw [← store_bind_store buffer first second hnext, ← funext hrest]
  rfl

/-- Writing right behind the bytes written so far appends to them. -/
theorem Writes.append {write : List UInt8 → Option (List UInt8)} {written spare bytes : List UInt8}
    (h : Writes write written.length bytes) (hfits : bytes.length ≤ spare.length) :
    write (written ++ spare) = some (written ++ bytes ++ spare.drop bytes.length) := by
  rw [h, store, if_pos (by simp only [List.length_append]; omega)]
  simp [overwrite, List.drop_append]

theorem length_flatMap_of_const {α : Type} {image : α → List UInt8} {size : Nat}
    (hsize : ∀ record, (image record).length = size) (records : List α) :
    (records.flatMap image).length = records.length * size := by
  simp [List.length_flatMap, hsize]

/-- Write records of a fixed size one behind the other; the result is the buffer and
the offset behind the last of them. -/
def storeEach {α : Type} (write : α → List UInt8 → Nat → Option (List UInt8)) (size : Nat) :
    List α → List UInt8 → Nat → Option (List UInt8 × Nat)
  | [], buffer, offset => some (buffer, offset)
  | record :: records, buffer, offset => do
      let buffer ← write record buffer offset
      storeEach write size records buffer (offset + size)

theorem storeEach_append {α : Type} {write : α → List UInt8 → Nat → Option (List UInt8)}
    {image : α → List UInt8} {size : Nat} (hsize : ∀ record, (image record).length = size)
    (hwrite : ∀ record offset, Writes (fun buffer => write record buffer offset) offset
      (image record))
    (records : List α) {written spare : List UInt8} (hfits : records.length * size ≤ spare.length) :
    storeEach write size records (written ++ spare) written.length =
      some (written ++ records.flatMap image ++ spare.drop (records.length * size),
        (written ++ records.flatMap image).length) := by
  induction records generalizing written spare with
  | nil => simp [storeEach]
  | cons record records ih =>
      rw [List.length_cons, Nat.succ_mul] at hfits
      have himage := hsize record
      have hfirst := @Writes.append _ written spare _ (hwrite record written.length) (by omega)
      have hrest := @ih (written ++ image record) (spare.drop size)
        (by rw [List.length_drop]; omega)
      rw [List.length_append, himage] at hrest
      rw [storeEach, hfirst, himage, Option.bind_eq_bind, Option.bind_some, hrest,
        List.flatMap_cons, List.drop_drop, List.length_cons, Nat.succ_mul]
      simp only [List.append_assoc, Nat.add_comm size]

/-! ## Sequences of reads -/

/-- Read records of a fixed size one behind the other. -/
def readEach {β : Type} (read : List UInt8 → Nat → β) (size count : Nat) (buffer : List UInt8)
    (offset : Nat) : List β :=
  (List.range count).map fun i => read buffer (offset + size * i)

/-- Records are read back in order from where they were written. -/
theorem readEach_flatMap {α β : Type} {image : α → List UInt8} {size : Nat}
    (hsize : ∀ record, (image record).length = size) {read : List UInt8 → Nat → β} {value : α → β}
    {records : List α} (hread : ∀ record ∈ records, ∀ written rest,
      read (written ++ (image record ++ rest)) written.length = value record)
    (written rest : List UInt8) :
    readEach read size records.length (written ++ (records.flatMap image ++ rest)) written.length =
      records.map value := by
  induction records generalizing written with
  | nil => rfl
  | cons record records ih =>
      have hfirst := hread record List.mem_cons_self written (records.flatMap image ++ rest)
      have hrest := ih (fun other hmem => hread other (List.mem_cons_of_mem _ hmem))
        (written ++ image record)
      rw [List.length_append, hsize] at hrest
      simp only [List.append_assoc] at hrest
      have hnext : ∀ i, written.length + size * (i + 1) = written.length + size + size * i := by
        intro i
        rw [Nat.mul_succ, Nat.add_comm (size * i), Nat.add_assoc]
      rw [readEach] at hrest ⊢
      rw [List.length_cons, List.range_succ_eq_map, List.map_cons, List.map_map, List.map_cons,
        List.flatMap_cons, List.append_assoc, Nat.mul_zero, Nat.add_zero, hfirst, ← hrest]
      simp only [Function.comp_def, Nat.succ_eq_add_one, hnext]

end Memory
