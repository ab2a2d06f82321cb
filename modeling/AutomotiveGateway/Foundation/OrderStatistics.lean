import Mathlib.Data.List.Perm.Basic
import Mathlib.Data.List.Sort
import Mathlib.Order.MinMax
import Mathlib.Tactic.Common

/-!
# Order statistics

The elements of a list by their place in the sorted list, and the smallest and the largest
as one scan finds them. None of them depends on the order of the list.
-/

namespace OrderStatistics

variable {α : Type*} [LinearOrder α]

/-! ## Scans -/

/-- The smallest element, the first of equals. -/
def minElement (first : α) (rest : List α) : α :=
  rest.foldl (fun smallest x => if x < smallest then x else smallest) first

/-- The largest element, the first of equals. -/
def maxElement (first : α) (rest : List α) : α :=
  rest.foldl (fun largest x => if largest < x then x else largest) first

theorem minElement_cons (first x : α) (rest : List α) :
    minElement first (x :: rest) = minElement (min x first) rest := by
  have hmin : (if x < first then x else first) = min x first := by
    rcases lt_or_ge x first with hlt | hge
    · rw [if_pos hlt, min_eq_left hlt.le]
    · rw [if_neg hge.not_gt, min_eq_right hge]
  rw [← hmin]
  rfl

theorem minElement_mem (first : α) (rest : List α) :
    minElement first rest ∈ first :: rest := by
  induction rest generalizing first with
  | nil => exact List.mem_cons_self
  | cons x rest ih =>
      rw [minElement_cons]
      rcases List.mem_cons.mp (ih (min x first)) with hmin | hrest
      · rw [hmin]
        rcases min_choice x first with hx | hfirst
        · rw [hx]
          exact List.mem_cons_of_mem _ List.mem_cons_self
        · rw [hfirst]
          exact List.mem_cons_self
      · exact List.mem_cons_of_mem _ (List.mem_cons_of_mem _ hrest)

theorem minElement_le {first x : α} {rest : List α} (hmem : x ∈ first :: rest) :
    minElement first rest ≤ x := by
  induction rest generalizing first x with
  | nil => exact (List.mem_singleton.mp hmem).ge
  | cons y rest ih =>
      rw [minElement_cons]
      have hhead : minElement (min y first) rest ≤ min y first := ih List.mem_cons_self
      rcases List.mem_cons.mp hmem with rfl | hrest
      · exact hhead.trans (min_le_right y x)
      · rcases List.mem_cons.mp hrest with rfl | hrest
        · exact hhead.trans (min_le_left x first)
        · exact ih (List.mem_cons_of_mem _ hrest)

-- The largest element is the smallest of the reversed order.
theorem maxElement_mem (first : α) (rest : List α) : maxElement first rest ∈ first :: rest :=
  @minElement_mem αᵒᵈ _ first rest

theorem le_maxElement {first x : α} {rest : List α} (hmem : x ∈ first :: rest) :
    x ≤ maxElement first rest :=
  @minElement_le αᵒᵈ _ first x rest hmem

/-! ## Elements by rank -/

/-- The list in order. Which algorithm sorts makes no difference for a linear order. -/
def sorted (xs : List α) : List α := xs.insertionSort (· ≤ ·)

theorem sorted_perm (xs : List α) : (sorted xs).Perm xs := List.perm_insertionSort _ xs

@[simp] theorem length_sorted (xs : List α) : (sorted xs).length = xs.length :=
  (sorted_perm xs).length_eq

theorem pairwise_sorted (xs : List α) : (sorted xs).Pairwise (· ≤ ·) :=
  List.pairwise_insertionSort _ xs

theorem sorted_eq_of_perm {xs ys : List α} (hperm : xs.Perm ys) : sorted xs = sorted ys := by
  have hsorted : (sorted xs).Perm (sorted ys) :=
    (sorted_perm xs).trans (hperm.trans (sorted_perm ys).symm)
  exact hsorted.eq_of_pairwise (fun _ _ _ _ => le_antisymm) (pairwise_sorted xs)
    (pairwise_sorted ys)

/-- The element that `k` others precede in the sorted list. -/
def orderStatistic (xs : List α) (k : Fin xs.length) : α :=
  (sorted xs).get (k.cast (length_sorted xs).symm)

theorem orderStatistic_mem (xs : List α) (k : Fin xs.length) : orderStatistic xs k ∈ xs :=
  (sorted_perm xs).mem_iff.mp (List.get_mem _ _)

theorem orderStatistic_mono {xs : List α} {j k : Fin xs.length} (hle : j ≤ k) :
    orderStatistic xs j ≤ orderStatistic xs k := by
  rcases hle.eq_or_lt with rfl | hlt
  · exact le_rfl
  · exact List.pairwise_iff_get.mp (pairwise_sorted xs) _ _ hlt

theorem orderStatistic_perm {xs ys : List α} (hperm : xs.Perm ys) (k : Fin xs.length) :
    orderStatistic xs k = orderStatistic ys (k.cast hperm.length_eq) := by
  simp only [orderStatistic, List.get_eq_getElem, Fin.val_cast, sorted_eq_of_perm hperm]

/-- `x` is an element, at least `k` of the others are no larger, and at least all but `k` of
them no smaller. -/
def HasRank (xs : List α) (k : Nat) (x : α) : Prop :=
  ∃ others, xs.Perm (x :: others) ∧ k ≤ others.countP (· ≤ x) ∧
    xs.length - 1 - k ≤ others.countP (x ≤ ·)

theorem hasRank_orderStatistic (xs : List α) (k : Fin xs.length) :
    HasRank xs k (orderStatistic xs k) := by
  have hk : (k : Nat) < (sorted xs).length := by
    rw [length_sorted]
    exact k.isLt
  have horder := List.pairwise_iff_get.mp (pairwise_sorted xs)
  refine ⟨(sorted xs).eraseIdx k, ((sorted_perm xs).symm.trans
    (List.getElem_cons_eraseIdx_perm hk).symm), ?_, ?_⟩
  · have hbefore : ((sorted xs).take k).countP (· ≤ orderStatistic xs k) =
        ((sorted xs).take k).length := by
      rw [List.countP_eq_length]
      intro x hmem
      obtain ⟨i, hi, rfl⟩ := List.mem_take_iff_getElem.mp hmem
      exact decide_eq_true (horder ⟨i, by omega⟩ ⟨k, hk⟩ (Fin.mk_lt_mk.mpr (by omega)))
    rw [List.eraseIdx_eq_take_drop_succ, List.countP_append, hbefore, List.length_take]
    omega
  · have hafter : ((sorted xs).drop (k + 1)).countP (orderStatistic xs k ≤ ·) =
        ((sorted xs).drop (k + 1)).length := by
      rw [List.countP_eq_length]
      intro x hmem
      obtain ⟨i, hi, rfl⟩ := List.mem_drop_iff_getElem.mp hmem
      exact decide_eq_true (horder ⟨k, hk⟩ ⟨k + 1 + i, by omega⟩ (Fin.mk_lt_mk.mpr (by omega)))
    rw [List.eraseIdx_eq_take_drop_succ, List.countP_append, hafter, List.length_drop,
      length_sorted]
    omega

end OrderStatistics
