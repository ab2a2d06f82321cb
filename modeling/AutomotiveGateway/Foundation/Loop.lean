import Mathlib.Data.List.Basic
import Mathlib.Tactic.Common

/-!
# While loops with outputs

The body of a loop either leaves it or performs one iteration. A bounded run
gives up when its fuel is spent before the loop is left, so a loop that never
ends gives up for every bound.
-/

namespace Loop

variable {σ ω : Type*}

/-- Run the loop for fewer than `fuel` iterations, collecting the outputs. -/
def run (body : σ → Option (σ × List ω)) : Nat → σ → Option (σ × List ω)
  | 0, _ => none
  | fuel + 1, state =>
      match body state with
      | none => some (state, [])
      | some (next, out) => (run body fuel next).map fun result => (result.1, out ++ result.2)

variable {body : σ → Option (σ × List ω)}

/-- States the loop passes through, with the outputs produced on the way. -/
inductive Reaches (body : σ → Option (σ × List ω)) : σ → List ω → σ → Prop
  | refl (state) : Reaches body state [] state
  | step {state middle last out outs} (hbody : body state = some (middle, out))
      (hrest : Reaches body middle outs last) : Reaches body state (out ++ outs) last

/-- Some bound suffices for the loop to be left. -/
def Terminates (body : σ → Option (σ × List ω)) (state : σ) : Prop :=
  ∃ fuel, (run body fuel state).isSome

theorem run_of_exit {state : σ} (hbody : body state = none) (fuel : Nat) :
    run body (fuel + 1) state = some (state, []) := by
  rw [run, hbody]

theorem run_of_step {state next : σ} {out : List ω} (hbody : body state = some (next, out))
    (fuel : Nat) : run body (fuel + 1) state =
      (run body fuel next).map fun result => (result.1, out ++ result.2) := by
  rw [run, hbody]

/-- More fuel does not change a finished run. -/
theorem run_mono {fuel more : Nat} (hle : fuel ≤ more) {state : σ} {result : σ × List ω}
    (hrun : run body fuel state = some result) : run body more state = some result := by
  induction fuel generalizing more state result with
  | zero => simp [run] at hrun
  | succ fuel ih =>
      obtain ⟨more, rfl⟩ : ∃ rest, more = rest + 1 := ⟨more - 1, by omega⟩
      cases hbody : body state with
      | none => rwa [run_of_exit hbody] at hrun ⊢
      | some split =>
          obtain ⟨next, out⟩ := split
          rw [run_of_step hbody, Option.map_eq_some_iff] at hrun ⊢
          obtain ⟨tail, htail, hresult⟩ := hrun
          exact ⟨tail, ih (by omega) htail, hresult⟩

/-- A finished run passes through its final state, where the body leaves. -/
theorem run_reaches {fuel : Nat} {state last : σ} {outs : List ω}
    (hrun : run body fuel state = some (last, outs)) :
    Reaches body state outs last ∧ body last = none := by
  induction fuel generalizing state outs with
  | zero => simp [run] at hrun
  | succ fuel ih =>
      cases hbody : body state with
      | none =>
          rw [run_of_exit hbody, Option.some.injEq, Prod.mk.injEq] at hrun
          obtain ⟨rfl, rfl⟩ := hrun
          exact ⟨.refl _, hbody⟩
      | some split =>
          obtain ⟨next, out⟩ := split
          rw [run_of_step hbody, Option.map_eq_some_iff] at hrun
          obtain ⟨⟨last', outs'⟩, htail, heq⟩ := hrun
          rw [Prod.mk.injEq] at heq
          obtain ⟨rfl, rfl⟩ := heq
          exact ⟨.step hbody (ih htail).1, (ih htail).2⟩

/-- An invariant of the body holds in every state the loop passes through. -/
theorem Reaches.invariant (invariant : σ → Prop)
    (hkeep : ∀ state next out, invariant state → body state = some (next, out) → invariant next)
    {state last : σ} {outs : List ω} (hreach : Reaches body state outs last)
    (hstate : invariant state) : invariant last := by
  induction hreach with
  | refl => exact hstate
  | step hbody _ ih => exact ih (hkeep _ _ _ hstate hbody)

/-- What an iteration outputs from every state of an invariant, the whole loop outputs. -/
theorem Reaches.forall_out (invariant : σ → Prop) (property : ω → Prop)
    (hkeep : ∀ state next out, invariant state → body state = some (next, out) →
      invariant next ∧ ∀ output ∈ out, property output)
    {state last : σ} {outs : List ω} (hreach : Reaches body state outs last)
    (hstate : invariant state) : ∀ output ∈ outs, property output := by
  induction hreach with
  | refl => simp
  | step hbody _ ih =>
      obtain ⟨hnext, hout⟩ := hkeep _ _ _ hstate hbody
      intro output hmem
      rcases List.mem_append.mp hmem with hmem | hmem
      · exact hout output hmem
      · exact ih hnext output hmem

/-- A loop that always continues from a class of states never leaves it. -/
theorem run_eq_none_of_stuck (stuck : σ → Prop)
    (hstep : ∀ state, stuck state → ∃ next out, body state = some (next, out) ∧ stuck next)
    {state : σ} (hstate : stuck state) (fuel : Nat) : run body fuel state = none := by
  induction fuel generalizing state with
  | zero => rfl
  | succ fuel ih =>
      obtain ⟨next, out, hbody, hnext⟩ := hstep state hstate
      rw [run_of_step hbody, ih hnext, Option.map_none]

end Loop
