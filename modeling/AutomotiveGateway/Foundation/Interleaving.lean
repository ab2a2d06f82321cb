import AutomotiveGateway.Foundation.Machine

/-!
# Two machines side by side

Two machines that share nothing but the order in which their inputs come. A run of both
contains a run of each on its own inputs, and any two runs are found in a run of both,
whatever the order of the inputs.
-/

namespace Machine

variable {σ ι ω τ κ υ : Type*}

/-- Both machines; an input is served by the one it belongs to. -/
def beside (M : Machine σ ι ω) (N : Machine τ κ υ) : Machine (σ × τ) (ι ⊕ κ) (ω ⊕ υ) where
  Enabled state
    | .inl input => M.Enabled state.1 input
    | .inr input => N.Enabled state.2 input
  step state
    | .inl input => (M.step state.1 input).map fun served =>
        ((served.1, state.2), served.2.map .inl)
    | .inr input => (N.step state.2 input).map fun served =>
        ((state.1, served.1), served.2.map .inr)

/-- What belongs to the left machine. -/
def lefts (both : List (ι ⊕ κ)) : List ι := both.filterMap Sum.getLeft?

/-- What belongs to the right machine. -/
def rights (both : List (ι ⊕ κ)) : List κ := both.filterMap Sum.getRight?

theorem lefts_append (both more : List (ι ⊕ κ)) : lefts (both ++ more) = lefts both ++ lefts more :=
  List.filterMap_append

theorem rights_append (both more : List (ι ⊕ κ)) :
    rights (both ++ more) = rights both ++ rights more := List.filterMap_append

theorem lefts_map_inl (inputs : List ι) : lefts (inputs.map (Sum.inl : ι → ι ⊕ κ)) = inputs := by
  rw [lefts, List.filterMap_map]
  exact List.filterMap_some

theorem rights_map_inl (inputs : List ι) : rights (inputs.map (Sum.inl : ι → ι ⊕ κ)) = [] := by
  rw [rights, List.filterMap_map]
  exact List.filterMap_none inputs

theorem lefts_map_inr (inputs : List κ) : lefts (inputs.map (Sum.inr : κ → ι ⊕ κ)) = [] := by
  rw [lefts, List.filterMap_map]
  exact List.filterMap_none inputs

theorem rights_map_inr (inputs : List κ) : rights (inputs.map (Sum.inr : κ → ι ⊕ κ)) = inputs := by
  rw [rights, List.filterMap_map]
  exact List.filterMap_some

variable {M : Machine σ ι ω} {N : Machine τ κ υ}

theorem beside_step_inl {state next : σ} {input : ι} {out : List ω}
    (hstep : M.step state input = some (next, out)) (other : τ) :
    (M.beside N).step (state, other) (.inl input) = some ((next, other), out.map .inl) := by
  simp only [beside, hstep, Option.map_some]

theorem beside_step_inr {state next : τ} {input : κ} {out : List υ} (other : σ)
    (hstep : N.step state input = some (next, out)) :
    (M.beside N).step (other, state) (.inr input) = some ((other, next), out.map .inr) := by
  simp only [beside, hstep, Option.map_some]

namespace Run

/-- A run of both is a run of each, with its own outputs. -/
theorem beside_split {first last : σ × τ} {inputs : List (ι ⊕ κ)} {outs : List (ω ⊕ υ)}
    (hrun : (M.beside N).Run first inputs last outs) :
    M.Run first.1 (lefts inputs) last.1 (lefts outs) ∧
      N.Run first.2 (rights inputs) last.2 (rights outs) := by
  induction hrun with
  | nil state => exact ⟨.nil _, .nil _⟩
  | @cons state input middle out inputs last outs henabled hstep _ ih =>
      obtain ⟨hleft, hright⟩ := ih
      rw [lefts_append, rights_append]
      cases input with
      | inl input =>
          obtain ⟨⟨next, own⟩, hown, hnext⟩ := Option.map_eq_some_iff.mp hstep
          cases hnext
          rw [lefts_map_inl, rights_map_inl]
          exact ⟨.cons henabled hown hleft, hright⟩
      | inr input =>
          obtain ⟨⟨next, own⟩, hown, hnext⟩ := Option.map_eq_some_iff.mp hstep
          cases hnext
          rw [lefts_map_inr, rights_map_inr]
          exact ⟨hleft, .cons henabled hown hright⟩

/-- Runs of each make a run of both for every order of their inputs. -/
theorem exists_beside {first last : σ} {start finish : τ} {inputs : List (ι ⊕ κ)}
    {outs : List ω} {others : List υ} (hleft : M.Run first (lefts inputs) last outs)
    (hright : N.Run start (rights inputs) finish others) :
    ∃ both, (M.beside N).Run (first, start) inputs (last, finish) both ∧
      lefts both = outs ∧ rights both = others := by
  induction inputs generalizing first start outs others with
  | nil =>
      cases hleft
      cases hright
      exact ⟨[], .nil _, rfl, rfl⟩
  | cons input inputs ih =>
      cases input with
      | inl input =>
          cases hleft with
          | @cons _ _ middle out _ _ rest henabled hstep hrest =>
              obtain ⟨both, hboth, rfl, rfl⟩ := ih hrest hright
              refine ⟨_, .cons henabled (beside_step_inl hstep start) hboth, ?_, ?_⟩
              · rw [lefts_append, lefts_map_inl]
              · rw [rights_append, rights_map_inl, List.nil_append]
      | inr input =>
          cases hright with
          | @cons _ _ middle out _ _ rest henabled hstep hrest =>
              obtain ⟨both, hboth, rfl, rfl⟩ := ih hleft hrest
              refine ⟨_, .cons henabled (beside_step_inr first hstep) hboth, ?_, ?_⟩
              · rw [lefts_append, lefts_map_inr, List.nil_append]
              · rw [rights_append, rights_map_inr]

end Run

end Machine
