import Mathlib.Data.List.Induction
import Mathlib.Order.Bounds.Basic
import Mathlib.Tactic.Common

/-!
# Paced sending

A paced sender looks again and again how many items are due by then, and sends one if these are
more than it has sent. When it comes late it catches up, so that in the end only the latest delay
shows: the number of items sent is the least, over all polls, of those due at the poll and the
polls behind it.
-/

namespace Pacing

/-- One poll: how many items have been sent behind it. -/
def poll (sent due : Nat) : Nat := if sent < due then sent + 1 else sent

/-- How many items have been sent behind some polls. -/
def sentBehind (sent : Nat) (dues : List Nat) : Nat := dues.foldl poll sent

/-- What the polls allow to send: one item each, and no more than is due. -/
def Allowed (sent : Nat) (dues : List Nat) (total : Nat) : Prop :=
  total = sent + dues.length ∨
    ∃ earlier due later, dues = earlier ++ due :: later ∧ total = due + later.length

theorem poll_eq_min {sent due : Nat} (hle : sent ≤ due) : poll sent due = min (sent + 1) due := by
  rw [poll]
  split
  · rw [min_eq_left (by omega)]
  · rw [min_eq_right (by omega)]
    omega

theorem sentBehind_concat (sent : Nat) (dues : List Nat) (due : Nat) :
    sentBehind sent (dues ++ [due]) = poll (sentBehind sent dues) due := by
  rw [sentBehind, List.foldl_append]
  rfl

/-- Nothing is sent before it is due. -/
theorem sentBehind_le {sent bound : Nat} {dues : List Nat} (hsent : sent ≤ bound)
    (hdues : ∀ due ∈ dues, due ≤ bound) : sentBehind sent dues ≤ bound := by
  induction dues generalizing sent with
  | nil => exact hsent
  | cons due dues ih =>
      obtain ⟨hdue, hlater⟩ := List.forall_mem_cons.mp hdues
      refine ih ?_ hlater
      rw [poll]
      split <;> omega

theorem Allowed.concat {sent total : Nat} {dues : List Nat} (h : Allowed sent dues total)
    (due : Nat) : Allowed sent (dues ++ [due]) (total + 1) := by
  rcases h with rfl | ⟨earlier, due', later, rfl, rfl⟩
  · left
    rw [List.length_append, List.length_singleton, Nat.add_assoc]
  · right
    refine ⟨earlier, due', later ++ [due], ?_, ?_⟩
    · rw [List.append_assoc, List.cons_append]
    · rw [List.length_append, List.length_singleton, Nat.add_assoc]

/-- What is allowed behind one more poll. -/
theorem allowed_concat_iff {sent total due : Nat} {dues : List Nat} :
    Allowed sent (dues ++ [due]) total ↔
      total = due ∨ ∃ before, Allowed sent dues before ∧ total = before + 1 := by
  constructor
  · rintro (rfl | ⟨earlier, due', later, hdues, rfl⟩)
    · right
      refine ⟨_, .inl rfl, ?_⟩
      rw [List.length_append, List.length_singleton, Nat.add_assoc]
    -- the poll that allows the total is the last one, or one before it
    · rcases List.eq_nil_or_concat later with rfl | ⟨front, last, rfl⟩
      · left
        obtain ⟨-, hlast⟩ := List.append_inj' hdues rfl
        rw [List.length_nil, Nat.add_zero]
        exact (List.cons.inj hlast).1.symm
      · right
        rw [List.concat_eq_append, ← List.cons_append, ← List.append_assoc] at hdues
        obtain ⟨rfl, -⟩ := List.append_inj' hdues rfl
        refine ⟨_, .inr ⟨earlier, due', front, rfl, rfl⟩, ?_⟩
        rw [List.concat_eq_append, List.length_append, List.length_singleton, Nat.add_assoc]
  · rintro (rfl | ⟨before, hbefore, rfl⟩)
    · exact .inr ⟨dues, total, [], rfl, rfl⟩
    · exact hbefore.concat due

/-- A sender that polls what becomes due has sent the least of what the polls allow. -/
theorem isLeast_sentBehind {sent : Nat} {dues : List Nat}
    (hsorted : (sent :: dues).Pairwise (· ≤ ·)) :
    IsLeast {total | Allowed sent dues total} (sentBehind sent dues) := by
  -- on the last poll, which adds what is due at it to the minimum and one to all else
  induction dues using List.reverseRecOn with
  | nil =>
      refine ⟨.inl rfl, ?_⟩
      rintro total (rfl | ⟨earlier, due, later, hnil, -⟩)
      · exact Nat.le_refl _
      · simp at hnil
  | append_singleton dues due ih =>
      rw [← List.cons_append, List.pairwise_append] at hsorted
      obtain ⟨hdues, -, hdue⟩ := hsorted
      obtain ⟨hallowed, hleast⟩ := ih hdues
      have hle : sentBehind sent dues ≤ due :=
        sentBehind_le (hdue sent List.mem_cons_self due (List.mem_singleton_self due))
          fun earlier hmem =>
            hdue earlier (List.mem_cons_of_mem _ hmem) due (List.mem_singleton_self due)
      rw [sentBehind_concat, poll_eq_min hle]
      constructor
      · apply allowed_concat_iff.mpr
        rcases Nat.le_total (sentBehind sent dues + 1) due with hmin | hmin
        · right
          exact ⟨_, hallowed, min_eq_left hmin⟩
        · left
          exact min_eq_right hmin
      · intro total htotal
        rcases allowed_concat_iff.mp htotal with rfl | ⟨before, hbefore, rfl⟩
        · exact min_le_right _ _
        · exact (min_le_left _ _).trans (Nat.add_le_add_right (hleast hbefore) 1)

/-- A sender that polls before two more items are due is never behind. -/
theorem sentBehind_of_prompt {sent : Nat} {dues : List Nat}
    (hsorted : (sent :: dues).Pairwise (· ≤ ·))
    (hprompt : (sent :: dues).IsChain fun due next => next ≤ due + 1) :
    sentBehind sent dues = dues.getLastD sent := by
  induction dues generalizing sent with
  | nil => rfl
  | cons due dues ih =>
      obtain ⟨hle, hlater⟩ := List.pairwise_cons.mp hsorted
      obtain ⟨hnext, hprompt⟩ := List.isChain_cons_cons.mp hprompt
      have hpoll : poll sent due = due := by
        rw [poll_eq_min (hle due List.mem_cons_self)]
        exact min_eq_right hnext
      rw [sentBehind, List.foldl_cons, hpoll, List.getLastD_cons]
      exact ih hlater hprompt

end Pacing
