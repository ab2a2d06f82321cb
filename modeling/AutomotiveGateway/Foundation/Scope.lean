import Mathlib.Data.Finset.Lattice.Lemmas
import Mathlib.Data.Finset.SDiff
import Mathlib.Tactic.Common

/-!
# Scopes of objects that own descriptors

The statements of a scope construct objects one after the other. A constructor opens its
descriptor and makes further calls; if one of these fails it throws, and the object it was about
to construct is not destroyed. Leaving a scope destroys the objects that are complete, the last
one first. So a statement that fails leaves behind the descriptor of its own object at most.
-/

namespace Scope

/-- A statement with what its system calls return. -/
inductive Statement
  | construct (fd : Int) (calls : List Bool)
  | require (result : Bool)
deriving DecidableEq, Repr

namespace Statement

/-- The statement is completed. -/
def Succeeds : Statement → Prop
  | construct fd calls => 0 ≤ fd ∧ ∀ result ∈ calls, result = true
  | require result => result = true

instance decidableSucceeds : (statement : Statement) → Decidable statement.Succeeds
  | construct _ _ => inferInstanceAs (Decidable (_ ∧ _))
  | require _ => inferInstanceAs (Decidable (_ = true))

/-- The descriptor that the statement opens, whether or not it is completed. -/
def opens : Statement → List Int
  | construct fd _ => if 0 ≤ fd then [fd] else []
  | require _ => []

end Statement

/-- How a scope ends: all statements are completed, or it has been left and its objects are
destroyed. -/
structure Outcome where
  openFds : Finset Int
  /-- The descriptors of the complete objects, the last one first. -/
  owned : List Int
  /-- The descriptors that the destructors have closed, in their order. -/
  closed : List Int := []
  entered : Bool
deriving DecidableEq

/-- Run the statements of a scope. -/
def run (openFds : Finset Int) (owned : List Int) : List Statement → Outcome
  | [] => { openFds, owned, entered := true }
  | statement :: statements =>
      let opened := openFds ∪ statement.opens.toFinset
      if statement.Succeeds then run opened (statement.opens ++ owned) statements
      else { openFds := opened \ owned.toFinset, owned := [], closed := owned, entered := false }

/-- The system opens descriptors that are not open. -/
def Fresh (openFds : Finset Int) : List Statement → Prop
  | [] => True
  | statement :: statements =>
      (∀ fd ∈ statement.opens, fd ∉ openFds) ∧
        (statement.Succeeds → Fresh (openFds ∪ statement.opens.toFinset) statements)

/-- The descriptors that statements open, in their order. -/
def opened (statements : List Statement) : List Int := statements.flatMap Statement.opens

variable {before : Finset Int} {statements : List Statement}

theorem reverse_opens (statement : Statement) : statement.opens.reverse = statement.opens := by
  cases statement with
  | construct fd calls =>
      rw [Statement.opens]
      split_ifs <;> rfl
  | require result => rfl

/-- Behind a front of completed statements, what is open and owned is what they opened. -/
theorem run_append {front : List Statement} (hfront : ∀ statement ∈ front, statement.Succeeds)
    (openFds : Finset Int) (owned : List Int) :
    run openFds owned (front ++ statements) =
      run (openFds ∪ (opened front).toFinset) ((opened front).reverse ++ owned) statements := by
  induction front generalizing openFds owned with
  | nil => rw [opened, List.flatMap_nil, List.toFinset_nil, Finset.union_empty]; rfl
  | cons statement front ih =>
      obtain ⟨hfirst, hrest⟩ := List.forall_mem_cons.mp hfront
      rw [List.cons_append, run, if_pos hfirst, ih hrest, opened, opened, List.flatMap_cons,
        List.toFinset_append, Finset.union_assoc, List.reverse_append, reverse_opens,
        List.append_assoc]

/-- The descriptors of completed statements are new, and each is opened once. -/
theorem Fresh.opened_front {front : List Statement} (hfresh : Fresh before (front ++ statements))
    (hfront : ∀ statement ∈ front, statement.Succeeds) :
    (opened front).Nodup ∧ (∀ fd ∈ opened front, fd ∉ before) ∧
      Fresh (before ∪ (opened front).toFinset) statements := by
  induction front generalizing before with
  | nil =>
      rw [opened, List.flatMap_nil, List.toFinset_nil, Finset.union_empty]
      exact ⟨List.nodup_nil, List.forall_mem_nil _, hfresh⟩
  | cons statement front ih =>
      obtain ⟨hfirst, hrest⟩ := List.forall_mem_cons.mp hfront
      obtain ⟨hnew, hbehind⟩ := hfresh
      obtain ⟨hnodup, hothers, hlast⟩ := ih (hbehind hfirst) hrest
      have hopens : statement.opens.Nodup := by
        cases statement with
        | construct fd calls =>
            rw [Statement.opens]
            split_ifs
            · exact List.nodup_singleton fd
            · exact List.nodup_nil
        | require result => exact List.nodup_nil
      have happend : opened (statement :: front) = statement.opens ++ opened front :=
        List.flatMap_cons
      rw [happend, List.toFinset_append, ← Finset.union_assoc]
      refine ⟨List.nodup_append.mpr ⟨hopens, hnodup, ?_⟩, ?_, hlast⟩
      -- what the rest opens was not open when the first descriptor already was
      · rintro fd hfd other hother rfl
        exact hothers fd hother (Finset.mem_union_right _ (List.mem_toFinset.mpr hfd))
      · refine List.forall_mem_append.mpr ⟨hnew, fun fd hfd hbefore => ?_⟩
        exact hothers fd hfd (Finset.mem_union_left _ hbefore)

/-- Statements that are not all completed have a first one that fails. -/
theorem exists_failed (hfailed : ¬ ∀ statement ∈ statements, statement.Succeeds) :
    ∃ front failed rest, statements = front ++ failed :: rest ∧
      (∀ statement ∈ front, statement.Succeeds) ∧ ¬ failed.Succeeds := by
  induction statements with
  | nil => exact absurd (List.forall_mem_nil _) hfailed
  | cons statement statements ih =>
      by_cases hfirst : statement.Succeeds
      · obtain ⟨front, failed, rest, rfl, hfront, hlast⟩ :=
          ih fun hrest => hfailed (List.forall_mem_cons.mpr ⟨hfirst, hrest⟩)
        exact ⟨statement :: front, failed, rest, rfl,
          List.forall_mem_cons.mpr ⟨hfirst, hfront⟩, hlast⟩
      · exact ⟨[], statement, statements, rfl, List.forall_mem_nil _, hfirst⟩

/-- A scope is entered with all its descriptors open, or left with none of them open but the one
of the statement that failed. -/
theorem run_cases (hfresh : Fresh before statements) :
    (∀ statement ∈ statements, statement.Succeeds) ∧
      run before [] statements =
        { openFds := before ∪ (opened statements).toFinset
          owned := (opened statements).reverse
          entered := true } ∨
    ∃ front failed rest, statements = front ++ failed :: rest ∧
      (∀ statement ∈ front, statement.Succeeds) ∧ ¬ failed.Succeeds ∧
      run before [] statements =
        { openFds := before ∪ failed.opens.toFinset
          owned := []
          closed := (opened front).reverse
          entered := false } := by
  by_cases hall : ∀ statement ∈ statements, statement.Succeeds
  · refine .inl ⟨hall, ?_⟩
    have hrun := @run_append [] statements hall before []
    rwa [List.append_nil, List.append_nil] at hrun
  · obtain ⟨front, failed, rest, rfl, hfront, hfailed⟩ := exists_failed hall
    obtain ⟨-, hothers, hnew, -⟩ := hfresh.opened_front hfront
    refine .inr ⟨front, failed, rest, rfl, hfront, hfailed, ?_⟩
    -- what the destructors close was new, so nothing else is closed with it
    have hclosed : (before ∪ (opened front).toFinset ∪ failed.opens.toFinset) \
        (opened front).reverse.toFinset = before ∪ failed.opens.toFinset := by
      rw [List.toFinset_reverse]
      ext fd
      simp only [Finset.mem_sdiff, Finset.mem_union, List.mem_toFinset]
      constructor
      · tauto
      · rintro (hbefore | hopens)
        · exact ⟨.inl (.inl hbefore), fun hfront => hothers fd hfront hbefore⟩
        · refine ⟨.inr hopens, fun hfront => hnew fd hopens ?_⟩
          exact Finset.mem_union_right _ (List.mem_toFinset.mpr hfront)
    rw [run_append hfront, run, if_neg hfailed, List.append_nil, hclosed]

end Scope
