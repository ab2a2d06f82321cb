import AutomotiveGateway.Foundation.Machine

/-!
# Further inputs placed in a run

A run of a machine with further inputs placed among its own. Where each of them leaves the
machine as it is, the run does not change, and otherwise the first that does not shows.
-/

namespace Machine

variable {σ ι ω κ ν : Type*}

/-- An input of the machine, or one placed among them. -/
inductive Placed (ι κ : Type*)
  | input (input : ι)
  | further (further : κ)

/-- The machine's own inputs. -/
def ordinary : List (Placed ι κ) → List ι
  | [] => []
  | .input input :: placed => input :: ordinary placed
  | .further _ :: placed => ordinary placed

/-- The machine with further inputs. Its own inputs are served whether or not the
environment would still offer them. -/
def withFurther (M : Machine σ ι ω) (further : σ → κ → Option (σ × List ω)) :
    Machine σ (Placed ι κ) ω where
  Enabled _ _ := True
  step state
    | .input input => M.step state input
    | .further input => further state input

variable {M : Machine σ ι ω} {further : σ → κ → Option (σ × List ω)}

/-- Each further input finds the machine in a state in which it does nothing. -/
def Quiet (M : Machine σ ι ω) (further : σ → κ → Option (σ × List ω)) (start : σ)
    (placed : List (Placed ι κ)) : Prop :=
  ∀ front input back, placed = front ++ .further input :: back →
    ∀ last outs, M.Run start (ordinary front) last outs → further last input = some (last, [])

/-- At every point the run with the further inputs is there and shows the same as the run
without them. -/
def SameView (M : Machine σ ι ω) (further : σ → κ → Option (σ × List ω)) (view : σ → ν)
    (start : σ) (placed : List (Placed ι κ)) : Prop :=
  ∀ front, front <+: placed → ∀ last outs, M.Run start (ordinary front) last outs →
    ∃ other others, (M.withFurther further).Run start front other others ∧
      view other = view last

theorem Quiet.of_input {start middle : σ} {input : ι} {out : List ω}
    {placed : List (Placed ι κ)} (hquiet : Quiet M further start (.input input :: placed))
    (henabled : M.Enabled start input) (hstep : M.step start input = some (middle, out)) :
    Quiet M further middle placed := by
  rintro front other back rfl last outs hrun
  exact hquiet (.input input :: front) other back rfl last _ (.cons henabled hstep hrun)

theorem Quiet.of_further {start : σ} {input : κ} {placed : List (Placed ι κ)}
    (hquiet : Quiet M further start (.further input :: placed)) :
    Quiet M further start placed := by
  rintro front other back rfl last outs hrun
  exact hquiet (.further input :: front) other back rfl last outs hrun

theorem Quiet.of_prefix {start : σ} {front placed : List (Placed ι κ)}
    (hquiet : Quiet M further start placed) (hfront : front <+: placed) :
    Quiet M further start front := by
  obtain ⟨rest, rfl⟩ := hfront
  rintro before input back rfl last outs hrun
  exact hquiet before input (back ++ rest) (by simp) last outs hrun

/-- Quiet inputs change nothing. -/
theorem Run.withQuiet {start last : σ} {placed : List (Placed ι κ)} {outs : List ω}
    (hrun : M.Run start (ordinary placed) last outs) (hquiet : Quiet M further start placed) :
    (M.withFurther further).Run start placed last outs := by
  induction placed generalizing start outs with
  | nil =>
      cases hrun
      exact .nil _
  | cons head placed ih =>
      cases head with
      | input input =>
          cases hrun with
          | cons henabled hstep hrest =>
              exact .cons trivial hstep (ih hrest (hquiet.of_input henabled hstep))
      | further input =>
          have hnothing := hquiet [] input placed rfl start [] (.nil start)
          have hwhole : (M.withFurther further).Run start (.further input :: placed) last
              ([] ++ outs) := .cons trivial hnothing (ih hrun hquiet.of_further)
          exact hwhole

theorem SameView.of_input {view : σ → ν} {start middle : σ} {input : ι} {out : List ω}
    {placed : List (Placed ι κ)} (hsame : SameView M further view start (.input input :: placed))
    (henabled : M.Enabled start input) (hstep : M.step start input = some (middle, out)) :
    SameView M further view middle placed := by
  intro front hfront last outs hrun
  obtain ⟨other, others, hother, hview⟩ := hsame (.input input :: front)
    (List.cons_prefix_cons.mpr ⟨rfl, hfront⟩) last (out ++ outs) (.cons henabled hstep hrun)
  have hserved : (M.withFurther further).step start (.input input) = some (middle, out) := hstep
  obtain ⟨rest, hrest, -⟩ := hother.tail hserved
  exact ⟨other, rest, hrest, hview⟩

/-- A further input that shows nothing at the start of a run. -/
theorem SameView.head {view : σ → ν} {start : σ} {input : κ} {placed : List (Placed ι κ)}
    (hsame : SameView M further view start (.further input :: placed)) :
    ∃ next out, further start input = some (next, out) ∧ view next = view start := by
  obtain ⟨other, others, hother, hview⟩ := hsame [.further input]
    (List.cons_prefix_cons.mpr ⟨rfl, List.nil_prefix⟩) start [] (.nil start)
  cases hother with
  | cons _ hstep hrest =>
      cases hrest
      exact ⟨other, _, hstep, hview⟩

theorem SameView.of_further {view : σ → ν} {start : σ} {input : κ}
    {placed : List (Placed ι κ)}
    (hsame : SameView M further view start (.further input :: placed))
    (hnothing : further start input = some (start, [])) :
    SameView M further view start placed := by
  intro front hfront last outs hrun
  obtain ⟨other, others, hother, hview⟩ := hsame (.further input :: front)
    (List.cons_prefix_cons.mpr ⟨rfl, hfront⟩) last outs hrun
  have hserved : (M.withFurther further).step start (.further input) = some (start, []) :=
    hnothing
  obtain ⟨rest, hrest, -⟩ := hother.tail hserved
  exact ⟨other, rest, hrest, hview⟩

/-- Where a further input that does something shows, a run that shows none of them was
quiet. -/
theorem SameView.quiet {view : σ → ν}
    (hshows : ∀ state input next out, further state input = some (next, out) →
      view next = view state → further state input = some (state, []))
    {start : σ} {placed : List (Placed ι κ)} (hsame : SameView M further view start placed) :
    Quiet M further start placed := by
  induction placed generalizing start with
  | nil =>
      intro front input back hplaced
      exact absurd hplaced.symm (List.append_ne_nil_of_right_ne_nil _ (List.cons_ne_nil _ _))
  | cons head placed ih =>
      intro front input back hplaced last outs hrun
      cases front with
      | nil =>
          obtain ⟨rfl, rfl⟩ := List.cons.inj hplaced
          cases hrun
          obtain ⟨next, out, hstep, hview⟩ := hsame.head
          exact hshows start input next out hstep hview
      | cons first front =>
          obtain ⟨rfl, rfl⟩ := List.cons.inj hplaced
          cases head with
          | input own =>
              cases hrun with
              | cons henabled hstep hrest =>
                  exact ih (hsame.of_input henabled hstep) front input back rfl last _ hrest
          | further other =>
              obtain ⟨next, out, hstep, hview⟩ := hsame.head
              have hnothing := hshows start other next out hstep hview
              exact ih (hsame.of_further hnothing) front input back rfl last outs hrun

end Machine
