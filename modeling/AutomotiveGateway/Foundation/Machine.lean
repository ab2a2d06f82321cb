import Mathlib.Data.List.Basic
import Mathlib.Tactic.Common

/-!
# Machines driven by inputs

A machine answers each input the environment may offer with a new state and a
list of outputs. A projection relates a machine whose state is a family of
independent components to the machine of a single component. Running the whole
then agrees, component by component, with running each component alone on its
own inputs.
-/

/-- A deterministic component driven by inputs. `step` is `none` when serving
the input never returns. -/
structure Machine (σ ι ω : Type*) where
  Enabled : σ → ι → Prop
  step : σ → ι → Option (σ × List ω)

namespace Machine

variable {σ ι ω : Type*}

/-- A finite run: the inputs served in order and all outputs they caused. -/
inductive Run (M : Machine σ ι ω) : σ → List ι → σ → List ω → Prop
  | nil (state) : Run M state [] state []
  | cons {state input middle out inputs last outs} (henabled : M.Enabled state input)
      (hstep : M.step state input = some (middle, out))
      (hrest : Run M middle inputs last outs) :
      Run M state (input :: inputs) last (out ++ outs)

namespace Run

variable {M : Machine σ ι ω}

theorem append {first middle last : σ} {inputs more : List ι} {outs moreOuts : List ω}
    (hfirst : M.Run first inputs middle outs) (hsecond : M.Run middle more last moreOuts) :
    M.Run first (inputs ++ more) last (outs ++ moreOuts) := by
  induction hfirst with
  | nil => exact hsecond
  | cons henabled hstep _ ih =>
      rw [List.cons_append, List.append_assoc]
      exact .cons henabled hstep (ih hsecond)

/-- A run can be cut at any point of its input. -/
theorem split {first last : σ} {inputs more : List ι} {outs : List ω}
    (hrun : M.Run first (inputs ++ more) last outs) :
    ∃ middle before after, M.Run first inputs middle before ∧
      M.Run middle more last after ∧ outs = before ++ after := by
  induction inputs generalizing first outs with
  | nil => exact ⟨first, [], outs, .nil first, hrun, rfl⟩
  | cons input inputs ih =>
      cases hrun with
      | @cons _ _ middle out _ _ outs henabled hstep hrest =>
          obtain ⟨cut, before, after, hbefore, hafter, rfl⟩ := ih hrest
          exact ⟨cut, out ++ before, after, .cons henabled hstep hbefore, hafter,
            (List.append_assoc out before after).symm⟩

/-- The rest of a run behind a first input whose step is known. -/
theorem tail {first middle last : σ} {input : ι} {inputs : List ι} {out outs : List ω}
    (hrun : M.Run first (input :: inputs) last outs)
    (hstep : M.step first input = some (middle, out)) :
    ∃ rest, M.Run middle inputs last rest ∧ outs = out ++ rest := by
  cases hrun with
  | @cons _ _ _ _ _ _ rest _ hstep' hrest =>
      rw [hstep, Option.some.injEq, Prod.mk.injEq] at hstep'
      obtain ⟨rfl, rfl⟩ := hstep'
      exact ⟨rest, hrest, rfl⟩

theorem deterministic {first left right : σ} {inputs : List ι} {outsLeft outsRight : List ω}
    (hleft : M.Run first inputs left outsLeft) (hright : M.Run first inputs right outsRight) :
    left = right ∧ outsLeft = outsRight := by
  induction hleft generalizing outsRight with
  | nil =>
      cases hright
      exact ⟨rfl, rfl⟩
  | cons _ hstep _ ih =>
      obtain ⟨rest, hrest, rfl⟩ := hright.tail hstep
      obtain ⟨rfl, rfl⟩ := ih hrest
      exact ⟨rfl, rfl⟩

/-- A predicate kept by every enabled step is kept by every run. -/
theorem invariant (invariant : σ → Prop)
    (hkeep : ∀ state input next out, invariant state → M.Enabled state input →
      M.step state input = some (next, out) → invariant next)
    {first last : σ} {inputs : List ι} {outs : List ω}
    (hrun : M.Run first inputs last outs) (hfirst : invariant first) : invariant last := by
  induction hrun with
  | nil => exact hfirst
  | cons henabled hstep _ ih => exact ih (hkeep _ _ _ _ hfirst henabled hstep)

/-- What every step does at most, every run does at most. -/
theorem forall_out {allowed : ω → Prop}
    (hstep : ∀ state input next out, M.step state input = some (next, out) →
      ∀ output ∈ out, allowed output)
    {first last : σ} {inputs : List ι} {outs : List ω} (hrun : M.Run first inputs last outs) :
    ∀ output ∈ outs, allowed output := by
  induction hrun with
  | nil => exact List.forall_mem_nil _
  | cons _ hfirst _ ih => exact List.forall_mem_append.mpr ⟨hstep _ _ _ _ hfirst, ih⟩

end Run

/-! ## Families of independent components -/

/-- Inputs and outputs of the whole machine belong to components, and each step
of the whole is a step of the component its input belongs to. -/
structure Projection (whole : Machine σ ι ω) {ν : Type*} (part : Machine ν ι ω)
    (κ : Type*) where
  key : ι → κ
  outKey : ω → κ
  view : σ → κ → ν
  Inv : σ → Prop
  enabled_iff : ∀ {state input}, Inv state →
    (whole.Enabled state input ↔ part.Enabled (view state (key input)) input)
  step_isSome : ∀ {state input}, Inv state → whole.Enabled state input →
    (part.step (view state (key input)) input).isSome → (whole.step state input).isSome
  step_own : ∀ {state input next out}, Inv state → whole.Enabled state input →
    whole.step state input = some (next, out) →
    part.step (view state (key input)) input = some (view next (key input), out)
  step_other : ∀ {state input next out}, Inv state → whole.Enabled state input →
    whole.step state input = some (next, out) →
    ∀ other, other ≠ key input → view next other = view state other
  step_out : ∀ {state input next out}, Inv state → whole.Enabled state input →
    whole.step state input = some (next, out) → ∀ output ∈ out, outKey output = key input
  step_inv : ∀ {state input next out}, Inv state → whole.Enabled state input →
    whole.step state input = some (next, out) → Inv next

namespace Projection

variable {ν κ : Type*} [DecidableEq κ] {whole : Machine σ ι ω} {part : Machine ν ι ω}
  (P : Projection whole part κ)

omit [DecidableEq κ] in
theorem run_inv {first last : σ} {inputs : List ι} {outs : List ω}
    (hrun : whole.Run first inputs last outs) (hinv : P.Inv first) : P.Inv last :=
  hrun.invariant P.Inv (fun _ _ _ _ hstate henabled hstep =>
    P.step_inv hstate henabled hstep) hinv

/-- Every run of the whole contains a run of each component on its own inputs,
with exactly its own outputs. -/
theorem run_project {first last : σ} {inputs : List ι} {outs : List ω}
    (hrun : whole.Run first inputs last outs) (hinv : P.Inv first) (who : κ) :
    part.Run (P.view first who) (inputs.filter fun input => P.key input = who)
      (P.view last who) (outs.filter fun output => P.outKey output = who) := by
  induction hrun with
  | nil state => exact .nil _
  | @cons state input middle out inputs last outs henabled hstep _ ih =>
      have hrest := ih (P.step_inv hinv henabled hstep)
      have hout := P.step_out hinv henabled hstep
      rw [List.filter_append]
      by_cases howner : P.key input = who
      · subst howner
        have hkeep : out.filter (fun output => P.outKey output = P.key input) = out :=
          List.filter_eq_self.mpr (fun output hmem => by simpa using hout output hmem)
        rw [List.filter_cons_of_pos (by simp), hkeep]
        exact .cons ((P.enabled_iff hinv).mp henabled) (P.step_own hinv henabled hstep) hrest
      · have hdrop : out.filter (fun output => P.outKey output = who) = [] :=
          List.filter_eq_nil_iff.mpr (fun output hmem => by simpa [hout output hmem] using howner)
        rw [List.filter_cons_of_neg (by simpa using howner), hdrop, List.nil_append,
          ← P.step_other hinv henabled hstep who (Ne.symm howner)]
        exact hrest

omit [DecidableEq κ] in
/-- A run of one component can be replayed by the whole machine. -/
theorem run_lift {start finish : ν} {inputs : List ι} {outs : List ω}
    (hrun : part.Run start inputs finish outs) {who : κ}
    (hkeys : ∀ input ∈ inputs, P.key input = who) {first : σ} (hinv : P.Inv first)
    (hview : P.view first who = start) :
    ∃ last, whole.Run first inputs last outs ∧ P.view last who = finish := by
  induction hrun generalizing first with
  | nil => exact ⟨first, .nil first, hview⟩
  | @cons start input middle out inputs finish outs henabled hstep _ ih =>
      have hkey : P.key input = who := hkeys input List.mem_cons_self
      subst hkey
      subst hview
      have henabled' := (P.enabled_iff hinv).mpr henabled
      obtain ⟨⟨next, out'⟩, hnext⟩ := Option.isSome_iff_exists.mp
        (P.step_isSome hinv henabled' (Option.isSome_of_eq_some hstep))
      have hown := P.step_own hinv henabled' hnext
      rw [hstep, Option.some.injEq, Prod.mk.injEq] at hown
      obtain ⟨rfl, rfl⟩ := hown
      obtain ⟨last, hlast, hfinish⟩ := ih
        (fun other hmem => hkeys other (List.mem_cons_of_mem _ hmem))
        (P.step_inv hinv henabled' hnext) rfl
      exact ⟨last, .cons henabled' hnext hlast, hfinish⟩

/-- A component's share of a run is what the whole machine does when it is given
only that component's inputs, from any state in which the component looks the same. -/
theorem isolated {first last alone : σ} {inputs : List ι} {outs : List ω}
    (hrun : whole.Run first inputs last outs) (hinv : P.Inv first) (who : κ)
    (halone : P.Inv alone) (hview : P.view alone who = P.view first who) :
    ∃ aloneLast,
      whole.Run alone (inputs.filter fun input => P.key input = who) aloneLast
        (outs.filter fun output => P.outKey output = who) ∧
      P.view aloneLast who = P.view last who :=
  P.run_lift (P.run_project hrun hinv who)
    (fun _ hmem => by simpa using (List.mem_filter.mp hmem).2) halone hview

end Projection

end Machine
