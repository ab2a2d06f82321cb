import AutomotiveGateway.Foundation.Machine
import Mathlib.Data.Finmap

/-!
# Items worked off in order

The order in which a program works off items shows in what it leaves behind. A map keeps the
last of several values that are written under one key. A 16-bit counter numbers the items, and
if each step of a machine takes the next numbers, a whole run takes consecutive ones.
-/

/-! ## Maps -/

namespace LastWrite

variable {α κ β : Type*} [DecidableEq κ]

/-- Write the items to a map one after the other. -/
def writeAll (key : α → κ) (value : α → β) (map : Finmap fun _ : κ => β) (items : List α) :
    Finmap fun _ : κ => β :=
  items.foldl (fun map item => map.insert (key item) (value item)) map

/-- The last item with a key. -/
def lastOf (key : α → κ) (k : κ) (items : List α) : Option α :=
  (items.filter fun item => key item = k).getLast?

theorem lookup_writeAll (key : α → κ) (value : α → β) (map : Finmap fun _ : κ => β)
    (items : List α) (k : κ) :
    (writeAll key value map items).lookup k =
      ((lastOf key k items).map value).or (map.lookup k) := by
  unfold writeAll lastOf
  induction items generalizing map with
  | nil => rfl
  | cons item items ih =>
      rw [List.foldl_cons, ih]
      by_cases hkey : key item = k
      · subst hkey
        rw [List.filter_cons_of_pos (by simp), List.getLast?_cons, Finmap.lookup_insert]
        cases (items.filter fun other => key other = key item).getLast? <;> rfl
      · rw [List.filter_cons_of_neg (by simpa using hkey),
          Finmap.lookup_insert_of_ne _ (Ne.symm hkey)]

end LastWrite

/-! ## Consecutive numbers -/

namespace Numbering

variable {α β : Type*}

/-- Number items consecutively. -/
def numbered (first : UInt16) : List α → List (α × UInt16)
  | [] => []
  | item :: items => (item, first) :: numbered (first + 1) items

/-- The counter behind the last of `count` items. -/
theorem add_one_add_ofNat (first : UInt16) (count : Nat) :
    first + 1 + UInt16.ofNat count = first + UInt16.ofNat (count + 1) := by
  rw [UInt16.add_assoc, UInt16.ofNat_add, UInt16.add_comm 1]
  rfl

/-- Numbers are counted from the first one, modulo `2 ^ 16`. -/
theorem numbered_eq_zipIdx (first : UInt16) (items : List α) :
    numbered first items =
      items.zipIdx.map fun step => (step.1, first + UInt16.ofNat step.2) := by
  induction items generalizing first with
  | nil => rfl
  | cons item items ih =>
      rw [numbered, ih, List.zipIdx_cons, List.zipIdx_succ, List.map_cons, List.map_map]
      simp [add_one_add_ofNat, Function.comp_def]

/-- Numbering goes on where it stopped. -/
theorem numbered_append (first : UInt16) (items more : List α) :
    numbered first (items ++ more) =
      numbered first items ++ numbered (first + UInt16.ofNat items.length) more := by
  induction items generalizing first with
  | nil => simp [numbered]
  | cons item items ih =>
      rw [List.cons_append, numbered, ih, numbered, List.length_cons, add_one_add_ofNat,
        List.cons_append]

/-! ## The numbers alone -/

/-- `count` consecutive numbers. -/
def consecutive (first : UInt16) (count : Nat) : List UInt16 :=
  (List.range count).map fun i => first + UInt16.ofNat i

@[simp] theorem length_consecutive (first : UInt16) (count : Nat) :
    (consecutive first count).length = count := by
  simp [consecutive]

theorem consecutive_add (first : UInt16) (count more : Nat) :
    consecutive first (count + more) =
      consecutive first count ++ consecutive (first + UInt16.ofNat count) more := by
  simp [consecutive, List.range_add, Function.comp_def, UInt16.add_assoc]

theorem map_zipIdx_eq_consecutive (first : UInt16) (items : List α) :
    items.zipIdx.map (fun step => first + UInt16.ofNat step.2) =
      consecutive first items.length := by
  rw [consecutive, List.range_eq_range', ← List.zipIdx_map_snd 0 items, List.map_map]
  rfl

theorem map_snd_numbered (first : UInt16) (items : List α) :
    (numbered first items).map Prod.snd = consecutive first items.length := by
  rw [numbered_eq_zipIdx, List.map_map, ← map_zipIdx_eq_consecutive]
  rfl

/-- Numbers counted from 1 that skip 0 when they wrap. -/
def cyclic (count : Nat) : List UInt16 :=
  (List.range count).map fun i => UInt16.ofNat (i % 65535 + 1)

theorem ne_zero_of_mem_cyclic {count : Nat} {number : UInt16} (hmem : number ∈ cyclic count) :
    number ≠ 0 := by
  obtain ⟨i, _, rfl⟩ := List.mem_map.mp hmem
  intro hzero
  have hlt : i % 65535 + 1 < 65536 := by omega
  have hnat := congrArg UInt16.toNat hzero
  rw [UInt16.toNat_ofNat_of_lt' hlt] at hnat
  exact absurd hnat (Nat.succ_ne_zero _)

/-- A counter that wraps through 0 agrees with one that skips it for one round. -/
theorem consecutive_one_eq_cyclic_iff (count : Nat) :
    consecutive 1 count = cyclic count ↔ count ≤ 65535 := by
  constructor
  · intro heq
    by_contra hlong
    have hwrap := congrArg (fun numbers : List UInt16 => numbers[65535]?) heq
    have hlt : 65535 < count := by omega
    simp only [consecutive, cyclic, List.getElem?_map, List.getElem?_range hlt] at hwrap
    exact absurd hwrap (by decide)
  · intro hcount
    apply List.map_congr_left
    intro i hi
    have hlt := List.mem_range.mp hi
    rw [Nat.mod_eq_of_lt (by omega), UInt16.add_comm, UInt16.ofNat_add]
    rfl

end Numbering

/-! ## Counters of a machine -/

namespace Machine

open Numbering

variable {σ ι ω : Type*}

/-- Each step returns, numbers its outputs by the counter, and leaves that behind the last
of them. -/
def Counts (M : Machine σ ι ω) (counter : σ → UInt16) (number? : ω → Option UInt16) : Prop :=
  ∀ state input, ∃ next out, M.step state input = some (next, out) ∧
    ∃ count, out.filterMap number? = consecutive (counter state) count ∧
      counter next = counter state + UInt16.ofNat count

theorem Run.consecutive_of_counts {M : Machine σ ι ω} {counter : σ → UInt16}
    {number? : ω → Option UInt16} (hcounts : M.Counts counter number?) {first last : σ}
    {inputs : List ι} {outs : List ω} (hrun : M.Run first inputs last outs) :
    outs.filterMap number? =
      consecutive (counter first) (outs.filterMap number?).length := by
  suffices hsome : ∃ count, outs.filterMap number? = consecutive (counter first) count by
    obtain ⟨count, hcount⟩ := hsome
    rw [hcount, length_consecutive]
  induction hrun with
  | nil => exact ⟨0, rfl⟩
  | @cons state input middle out inputs last outs _ hstep _ ih =>
      obtain ⟨next, out', hstep', count, hout, hnext⟩ := hcounts state input
      rw [hstep, Option.some.injEq, Prod.mk.injEq] at hstep'
      obtain ⟨rfl, rfl⟩ := hstep'
      obtain ⟨more, hrest⟩ := ih
      refine ⟨count + more, ?_⟩
      rw [List.filterMap_append, hout, hrest, hnext, consecutive_add]

/-- A counting machine that is always enabled runs on any inputs. -/
theorem exists_run_of_counts {M : Machine σ ι ω} {counter : σ → UInt16}
    {number? : ω → Option UInt16} (hcounts : M.Counts counter number?)
    (henabled : ∀ state input, M.Enabled state input) (first : σ) (inputs : List ι) :
    ∃ last outs, M.Run first inputs last outs := by
  induction inputs generalizing first with
  | nil => exact ⟨first, [], .nil first⟩
  | cons input inputs ih =>
      obtain ⟨next, out, hnext, _⟩ := hcounts first input
      obtain ⟨last, outs, hrest⟩ := ih next
      exact ⟨last, out ++ outs, .cons (henabled first input) hnext hrest⟩

end Machine
