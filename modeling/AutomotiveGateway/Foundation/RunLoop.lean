import AutomotiveGateway.Foundation.Machine

/-!
# Loops that wait and dispatch

A loop waits until the system reports a batch of ready sources, serves the batch one source
after the other, and looks at its flag before it waits again. A signal may clear the flag
between any two of its statements. Batches are only a grouping: a run of the loop serves its
sources as the dispatcher alone would. After a signal the loop serves at most what it has
already been given, or the one batch it is about to wait for.
-/

/-- What a loop dispatches. `Ready` are the batches the system may report, and `Reply` what
the system may give to the callback of a source. `dispatch` is `none` when the callback throws
or never returns. -/
structure Dispatcher (σ β ρ ω : Type*) where
  Ready : σ → List β → Prop
  Reply : σ → β → ρ → Prop
  dispatch : σ → β → ρ → Option (σ × List ω)

namespace Dispatcher

variable {σ β ρ ω : Type*}

/-- The dispatcher alone, one source after the other. A source is served from states of the
invariant in which it is the next one. -/
def machine (D : Dispatcher σ β ρ ω) (Inv : σ → List β → Prop) : Machine σ (β × ρ) ω where
  Enabled state served := (∃ rest, Inv state (served.1 :: rest)) ∧ D.Reply state served.1 served.2
  step state served := D.dispatch state served.1 served.2

end Dispatcher

namespace RunLoop

variable {σ β ρ ω : Type*}

/-- Where the loop is: before it sets its flag, before it looks at the flag, before the system
call that waits, waiting, or serving a batch. -/
inductive Stage (β : Type*)
  | starting
  | checking
  | entering
  | waiting
  | dispatching (rest : List β)
  | returned
  | threw

structure LoopState (σ β : Type*) where
  stage : Stage β := .starting
  running : Bool := false
  state : σ

/-- What happens next: the loop takes its next step, the wait ends with a batch or fails, the
callback of the next source is served, or a signal clears the flag. -/
inductive Turn (β ρ : Type*)
  | proceed
  | ready (batch : List β)
  | failed (errno : Nat)
  | dispatch (reply : ρ)
  | stop

/-- A callback that was served. -/
structure Served (β ρ ω : Type*) where
  source : β
  reply : ρ
  outs : List ω

/-- `EINTR` -/
def eintr : Nat := 4

/-- Signals interrupt the wait, and nothing else. -/
def Stage.interrupted : Stage β → Stage β
  | waiting => checking
  | stage => stage

/-- The turns the system and the loop may take. A batch has at most `capacity` sources. -/
def Enabled (D : Dispatcher σ β ρ ω) (capacity : Nat) (loop : LoopState σ β) :
    Turn β ρ → Prop
  | .proceed => loop.stage = .starting ∨ loop.stage = .checking ∨ loop.stage = .entering ∨
      loop.stage = .dispatching []
  | .ready batch => loop.stage = .waiting ∧ D.Ready loop.state batch ∧ batch.length ≤ capacity
  | .failed _ => loop.stage = .waiting
  | .dispatch reply => ∃ source rest, loop.stage = .dispatching (source :: rest) ∧
      D.Reply loop.state source reply
  | .stop => loop.stage ≠ .returned ∧ loop.stage ≠ .threw

def step (D : Dispatcher σ β ρ ω) (loop : LoopState σ β) :
    Turn β ρ → Option (LoopState σ β × List (Served β ρ ω))
  | .proceed =>
      match loop.stage with
      | .starting => some ({ loop with stage := .checking, running := true }, [])
      | .checking =>
          some ({ loop with stage := if loop.running then .entering else .returned }, [])
      | .entering => some ({ loop with stage := .waiting }, [])
      | .dispatching [] => some ({ loop with stage := .checking }, [])
      | _ => some (loop, [])
  | .ready batch => some ({ loop with stage := .dispatching batch }, [])
  | .failed errno =>
      some ({ loop with stage := if errno = eintr then .checking else .threw }, [])
  | .dispatch reply =>
      match loop.stage with
      | .dispatching (source :: rest) => (D.dispatch loop.state source reply).map fun served =>
          ({ loop with stage := .dispatching rest, state := served.1 },
            [{ source, reply, outs := served.2 }])
      | _ => some (loop, [])
  | .stop => some ({ loop with stage := loop.stage.interrupted, running := false }, [])

/-- The loop around a dispatcher. -/
def machine (D : Dispatcher σ β ρ ω) (capacity : Nat) :
    Machine (LoopState σ β) (Turn β ρ) (Served β ρ ω) where
  Enabled := Enabled D capacity
  step := step D

/-- The sources still to be served of the batch at hand. -/
def Stage.rest : Stage β → List β
  | dispatching rest => rest
  | _ => []

variable {D : Dispatcher σ β ρ ω} {capacity : Nat} {loop next : LoopState σ β} {turn : Turn β ρ}
  {outs : List (Served β ρ ω)}

/-- Everything a turn can do. -/
theorem step_cases (henabled : Enabled D capacity loop turn)
    (hstep : step D loop turn = some (next, outs)) :
    (turn = .proceed ∧ outs = [] ∧
      (loop.stage = .starting ∧ next = { loop with stage := .checking, running := true } ∨
        loop.stage = .checking ∧ loop.running ∧ next = { loop with stage := .entering } ∨
        loop.stage = .checking ∧ ¬ loop.running ∧ next = { loop with stage := .returned } ∨
        loop.stage = .entering ∧ next = { loop with stage := .waiting } ∨
        loop.stage = .dispatching [] ∧ next = { loop with stage := .checking })) ∨
    (∃ batch, turn = .ready batch ∧ loop.stage = .waiting ∧ D.Ready loop.state batch ∧
      batch.length ≤ capacity ∧ next = { loop with stage := .dispatching batch } ∧ outs = []) ∨
    (∃ errno, turn = .failed errno ∧ loop.stage = .waiting ∧ outs = [] ∧
      next = { loop with stage := if errno = eintr then .checking else .threw }) ∨
    (∃ reply source rest state own, turn = .dispatch reply ∧
      loop.stage = .dispatching (source :: rest) ∧ D.Reply loop.state source reply ∧
      D.dispatch loop.state source reply = some (state, own) ∧
      next = { loop with stage := .dispatching rest, state } ∧
      outs = [{ source, reply, outs := own }]) ∨
    (turn = .stop ∧ loop.stage ≠ .returned ∧ loop.stage ≠ .threw ∧ outs = [] ∧
      next = { loop with stage := loop.stage.interrupted, running := false }) := by
  cases turn with
  | proceed =>
      refine .inl ⟨rfl, ?_⟩
      rcases henabled with hstage | hstage | hstage | hstage
      all_goals
        simp only [step, hstage, Option.some.injEq, Prod.mk.injEq] at hstep
        obtain ⟨rfl, rfl⟩ := hstep
      · exact ⟨rfl, .inl ⟨hstage, rfl⟩⟩
      · by_cases hrunning : loop.running
        · exact ⟨rfl, .inr (.inl ⟨hstage, hrunning, by rw [if_pos hrunning]⟩)⟩
        · exact ⟨rfl, .inr (.inr (.inl ⟨hstage, hrunning, by rw [if_neg hrunning]⟩))⟩
      · exact ⟨rfl, .inr (.inr (.inr (.inl ⟨hstage, rfl⟩)))⟩
      · exact ⟨rfl, .inr (.inr (.inr (.inr ⟨hstage, rfl⟩)))⟩
  | ready batch =>
      obtain ⟨hstage, hready, hfits⟩ := henabled
      cases hstep
      exact .inr (.inl ⟨batch, rfl, hstage, hready, hfits, rfl, rfl⟩)
  | failed errno =>
      cases hstep
      exact .inr (.inr (.inl ⟨errno, rfl, henabled, rfl, rfl⟩))
  | dispatch reply =>
      obtain ⟨source, rest, hstage, hreply⟩ := henabled
      simp only [step, hstage, Option.map_eq_some_iff, Prod.mk.injEq] at hstep
      obtain ⟨⟨state, own⟩, hdispatch, rfl, rfl⟩ := hstep
      exact .inr (.inr (.inr (.inl
        ⟨reply, source, rest, state, own, rfl, hstage, hreply, hdispatch, rfl, rfl⟩)))
  | stop =>
      cases hstep
      exact .inr (.inr (.inr (.inr ⟨rfl, henabled.1, henabled.2, rfl, rfl⟩)))

theorem rest_interrupted (stage : Stage β) : stage.interrupted.rest = stage.rest := by
  cases stage <;> rfl

/-! ## The sources served -/

/-- A turn serves one source, the first of those still to be served, or none. -/
theorem step_serves (henabled : Enabled D capacity loop turn)
    (hstep : step D loop turn = some (next, outs)) :
    (outs = [] ∧ next.state = loop.state ∧ (next.stage.rest = loop.stage.rest ∨
      loop.stage.rest = [] ∧ D.Ready loop.state next.stage.rest)) ∨
    ∃ served : Served β ρ ω, outs = [served] ∧
      loop.stage.rest = served.source :: next.stage.rest ∧
      D.Reply loop.state served.source served.reply ∧
      D.dispatch loop.state served.source served.reply = some (next.state, served.outs) := by
  rcases step_cases henabled hstep with ⟨-, rfl, hproceed⟩ |
    ⟨batch, -, hstage, hready, -, rfl, rfl⟩ | ⟨errno, -, hstage, rfl, rfl⟩ |
    ⟨reply, source, rest, state, own, -, hstage, hreply, hdispatch, rfl, rfl⟩ |
    ⟨-, -, -, rfl, rfl⟩
  · left
    rcases hproceed with ⟨hstage, rfl⟩ | ⟨hstage, -, rfl⟩ | ⟨hstage, -, rfl⟩ | ⟨hstage, rfl⟩ |
      ⟨hstage, rfl⟩
    all_goals
      rw [hstage]
      exact ⟨rfl, rfl, .inl rfl⟩
  · rw [hstage]
    exact .inl ⟨rfl, rfl, .inr ⟨rfl, hready⟩⟩
  · refine .inl ⟨rfl, rfl, .inl ?_⟩
    rw [hstage]
    split <;> rfl
  · rw [hstage]
    exact .inr ⟨_, rfl, rfl, hreply, hdispatch⟩
  · exact .inl ⟨rfl, rfl, .inl (rest_interrupted loop.stage)⟩

/-- An invariant of the state and the sources still to be served. -/
structure Keeps (D : Dispatcher σ β ρ ω) (Inv : σ → List β → Prop) : Prop where
  ready : ∀ {state batch}, Inv state [] → D.Ready state batch → Inv state batch
  dispatch : ∀ {state source rest reply next outs}, Inv state (source :: rest) →
    D.Reply state source reply → D.dispatch state source reply = some (next, outs) →
    Inv next rest

theorem Keeps.step {Inv : σ → List β → Prop} (hkeeps : Keeps D Inv)
    (henabled : Enabled D capacity loop turn) (hstep : step D loop turn = some (next, outs))
    (hinv : Inv loop.state loop.stage.rest) : Inv next.state next.stage.rest := by
  rcases step_serves henabled hstep with ⟨-, hstate, hrest | ⟨hempty, hready⟩⟩ |
    ⟨served, -, hrest, hreply, hdispatch⟩
  · rwa [hstate, hrest]
  · rw [hempty] at hinv
    rw [hstate]
    exact hkeeps.ready hinv hready
  · rw [hrest] at hinv
    exact hkeeps.dispatch hinv hreply hdispatch

/-- The invariant holds wherever the loop gets. -/
theorem Keeps.run {Inv : σ → List β → Prop} (hkeeps : Keeps D Inv) {first last : LoopState σ β}
    {turns : List (Turn β ρ)} (hrun : (machine D capacity).Run first turns last outs)
    (hinv : Inv first.state first.stage.rest) : Inv last.state last.stage.rest :=
  hrun.invariant (fun loop => Inv loop.state loop.stage.rest)
    (fun _ _ _ _ hstate henabled hstep => hkeeps.step henabled hstep hstate) hinv

/-- A run of the loop is a run of the dispatcher, source by source. -/
theorem Keeps.run_dispatcher {Inv : σ → List β → Prop} (hkeeps : Keeps D Inv)
    {first last : LoopState σ β} {turns : List (Turn β ρ)}
    (hrun : (machine D capacity).Run first turns last outs)
    (hinv : Inv first.state first.stage.rest) :
    (D.machine Inv).Run first.state (outs.map fun served => (served.source, served.reply))
      last.state (outs.flatMap Served.outs) := by
  induction hrun with
  | nil => exact .nil _
  | @cons loop turn next out turns last outs henabled hstep _ ih =>
      have hrest := ih (hkeeps.step henabled hstep hinv)
      rcases step_serves henabled hstep with ⟨rfl, hstate, -⟩ |
        ⟨served, rfl, hsource, hreply, hdispatch⟩
      · rw [hstate] at hrest
        exact hrest
      -- the source served is the first of those left, so the dispatcher takes it next
      · rw [hsource] at hinv
        exact .cons ⟨⟨_, hinv⟩, hreply⟩ hdispatch hrest

/-- A turn fails only in the callback it serves. -/
theorem step_isSome (henabled : Enabled D capacity loop turn) :
    (step D loop turn).isSome ↔ ∀ source reply, turn = .dispatch reply →
      loop.stage.rest.head? = some source → (D.dispatch loop.state source reply).isSome := by
  cases turn with
  | proceed =>
      refine iff_of_true ?_ fun _ _ hturn => by cases hturn
      rcases henabled with hstage | hstage | hstage | hstage
      all_goals
        simp only [step, hstage]
        rfl
  | ready batch => exact iff_of_true rfl fun _ _ hturn => by cases hturn
  | failed errno => exact iff_of_true rfl fun _ _ hturn => by cases hturn
  | dispatch reply =>
      obtain ⟨source, rest, hstage, -⟩ := henabled
      simp only [step, hstage, Option.isSome_map, Stage.rest, List.head?_cons, Option.some.injEq,
        Turn.dispatch.injEq]
      constructor
      · rintro hsome _ _ rfl rfl
        exact hsome
      · exact fun hserve => hserve source reply rfl rfl
  | stop => exact iff_of_true rfl fun _ _ hturn => by cases hturn

/-- A step of the loop itself in front of a run. -/
theorem run_proceed {last : LoopState σ β} {turns : List (Turn β ρ)}
    (henabled : Enabled D capacity loop .proceed) (hstep : step D loop .proceed = some (next, []))
    (hrun : (machine D capacity).Run next turns last outs) :
    (machine D capacity).Run loop (.proceed :: turns) last outs := by
  have hserved : (machine D capacity).step loop .proceed = some (next, []) := hstep
  exact .cons henabled hserved hrun

/-- The loop gets to its first wait. -/
theorem run_start (D : Dispatcher σ β ρ ω) (capacity : Nat) (state : σ) :
    (machine D capacity).Run { state } [.proceed, .proceed, .proceed]
      { stage := .waiting, running := true, state } [] := by
  apply run_proceed (.inl rfl) rfl
  apply run_proceed (.inr (.inl rfl)) rfl
  exact run_proceed (.inr (.inr (.inl rfl))) rfl (.nil _)

/-- The wait ends with a batch. -/
theorem run_ready {state : σ} {batch : List β} (hready : D.Ready state batch)
    (hcapacity : batch.length ≤ capacity) (running : Bool) :
    (machine D capacity).Run { stage := .waiting, running, state } [.ready batch]
      { stage := .dispatching batch, running, state } [] := by
  have henabled : (machine D capacity).Enabled { stage := .waiting, running, state }
      (.ready batch) := ⟨rfl, hready, hcapacity⟩
  have hstep : (machine D capacity).step { stage := .waiting, running, state } (.ready batch) =
      some ({ stage := .dispatching batch, running, state }, []) := rfl
  exact .cons henabled hstep (.nil _)

/-- The first source of a batch is served. -/
theorem run_dispatch {state after : σ} {source : β} {reply : ρ} {own : List ω}
    (hreply : D.Reply state source reply)
    (hdispatch : D.dispatch state source reply = some (after, own)) (capacity : Nat)
    (running : Bool) (rest : List β) :
    (machine D capacity).Run { stage := .dispatching (source :: rest), running, state }
      [.dispatch reply] { stage := .dispatching rest, running, state := after }
      [{ source, reply, outs := own }] := by
  have henabled : (machine D capacity).Enabled
      { stage := .dispatching (source :: rest), running, state } (.dispatch reply) :=
    ⟨source, rest, rfl, hreply⟩
  have hstep : (machine D capacity).step
      { stage := .dispatching (source :: rest), running, state } (.dispatch reply) =
        some ({ stage := .dispatching rest, running, state := after },
          [{ source, reply, outs := own }]) := by
    simp only [machine, step, hdispatch, Option.map_some]
  exact .cons henabled hstep (.nil _)

/-- A source can be served in a batch of its own. -/
theorem run_one {state after : σ} {source : β} {reply : ρ} {own : List ω}
    (hready : D.Ready state [source]) (hcapacity : 1 ≤ capacity)
    (hreply : D.Reply state source reply)
    (hdispatch : D.dispatch state source reply = some (after, own)) :
    (machine D capacity).Run { stage := .waiting, running := true, state }
      [.ready [source], .dispatch reply, .proceed, .proceed, .proceed]
      { stage := .waiting, running := true, state := after }
      [{ source, reply, outs := own }] := by
  have hback : (machine D capacity).Run
      { stage := .dispatching [], running := true, state := after }
      [.proceed, .proceed, .proceed] { stage := .waiting, running := true, state := after } [] := by
    apply run_proceed (.inr (.inr (.inr rfl))) rfl
    apply run_proceed (.inr (.inl rfl)) rfl
    exact run_proceed (.inr (.inr (.inl rfl))) rfl (.nil _)
  have hserved := run_dispatch hreply hdispatch capacity true []
  exact (run_ready hready hcapacity true).append (hserved.append hback)

/-! ## After a signal -/

/-- The loop has set its flag. -/
def Stage.started : Stage β → Bool
  | starting => false
  | _ => true

/-- The callbacks that may still be served once the flag is cleared. -/
def Stage.callbacksLeft (capacity : Nat) : Stage β → Nat
  | dispatching rest => rest.length
  | entering | waiting => capacity
  | _ => 0

/-- The flag was cleared while the loop was running. -/
def Stopped (loop : LoopState σ β) : Prop := loop.running = false ∧ loop.stage.started = true

theorem started_interrupted {stage : Stage β} (hstarted : stage.started = true) :
    stage.interrupted.started = true := by
  cases stage with
  | starting => exact absurd hstarted Bool.false_ne_true
  | _ => rfl

theorem callbacksLeft_interrupted (capacity : Nat) (stage : Stage β) :
    stage.interrupted.callbacksLeft capacity ≤ stage.callbacksLeft capacity := by
  cases stage with
  | waiting => exact Nat.zero_le _
  | _ => exact Nat.le_refl _

/-- The flag stays cleared, and every callback served uses up one of those left. -/
theorem Stopped.step (hstopped : Stopped loop) (henabled : Enabled D capacity loop turn)
    (hstep : RunLoop.step D loop turn = some (next, outs)) :
    Stopped next ∧
      next.stage.callbacksLeft capacity + outs.length ≤ loop.stage.callbacksLeft capacity := by
  obtain ⟨hflag, hstarted⟩ := hstopped
  rcases step_cases henabled hstep with ⟨-, rfl, hproceed⟩ |
    ⟨batch, -, hstage, -, hfits, rfl, rfl⟩ | ⟨errno, -, hstage, rfl, rfl⟩ |
    ⟨reply, source, rest, state, own, -, hstage, -, -, rfl, rfl⟩ | ⟨-, -, -, rfl, rfl⟩
  -- neither the step that sets the flag nor the one past a set flag can be next
  · rcases hproceed with ⟨hstage, rfl⟩ | ⟨hstage, hset, rfl⟩ | ⟨hstage, -, rfl⟩ | ⟨hstage, rfl⟩ |
      ⟨hstage, rfl⟩
    · rw [hstage] at hstarted
      exact absurd hstarted Bool.false_ne_true
    · rw [hflag] at hset
      exact absurd hset Bool.false_ne_true
    all_goals
      rw [hstage]
      exact ⟨⟨hflag, rfl⟩, Nat.le_refl _⟩
  · rw [hstage]
    exact ⟨⟨hflag, rfl⟩, hfits⟩
  · rw [hstage]
    split
    · exact ⟨⟨hflag, rfl⟩, Nat.zero_le _⟩
    · exact ⟨⟨hflag, rfl⟩, Nat.zero_le _⟩
  · rw [hstage]
    exact ⟨⟨hflag, rfl⟩, Nat.le_refl _⟩
  · exact ⟨⟨rfl, started_interrupted hstarted⟩, callbacksLeft_interrupted capacity loop.stage⟩

/-- Once the flag is cleared, a run serves no more callbacks than were left. -/
theorem Stopped.run {first last : LoopState σ β} {turns : List (Turn β ρ)}
    (hrun : (machine D capacity).Run first turns last outs) (hstopped : Stopped first) :
    Stopped last ∧
      last.stage.callbacksLeft capacity + outs.length ≤ first.stage.callbacksLeft capacity := by
  induction hrun with
  | nil => exact ⟨hstopped, Nat.le_refl _⟩
  | cons henabled hstep _ ih =>
      obtain ⟨hnext, hused⟩ := hstopped.step henabled hstep
      obtain ⟨hlast, hrest⟩ := ih hnext
      refine ⟨hlast, ?_⟩
      rw [List.length_append]
      omega

/-- Before the loop has set its flag, it is not set. -/
theorem running_of_starting {first last : LoopState σ β} {turns : List (Turn β ρ)}
    (hrun : (machine D capacity).Run first turns last outs) (hfirst : first.running = false)
    (hstarting : last.stage.started = false) : last.running = false := by
  -- every turn but a signal leaves the first stage
  refine hrun.invariant (fun loop => loop.stage.started = false → loop.running = false) ?_
    (fun _ => hfirst) hstarting
  rintro loop turn next out hloop henabled hstep hnext
  rcases step_cases henabled hstep with ⟨-, -, hproceed⟩ | ⟨batch, -, -, -, -, rfl, -⟩ |
    ⟨errno, -, -, -, rfl⟩ | ⟨reply, source, rest, state, own, -, -, -, -, rfl, -⟩ |
    ⟨-, -, -, -, rfl⟩
  · rcases hproceed with ⟨-, rfl⟩ | ⟨-, -, rfl⟩ | ⟨-, -, rfl⟩ | ⟨-, rfl⟩ | ⟨-, rfl⟩
    all_goals exact absurd hnext Bool.noConfusion
  · exact absurd hnext Bool.noConfusion
  · dsimp only at hnext
    split at hnext
    · exact absurd hnext Bool.noConfusion
    · exact absurd hnext Bool.noConfusion
  · exact absurd hnext Bool.noConfusion
  · rfl

/-- A signal that comes before the loop has set its flag is lost. -/
theorem stop_of_starting (D : Dispatcher σ β ρ ω) (hstarting : loop.stage = .starting)
    (hflag : loop.running = false) : step D loop .stop = some (loop, []) := by
  obtain ⟨stage, running, state⟩ := loop
  subst hstarting hflag
  rfl

/-- A signal stops a loop that has set its flag. -/
theorem stopped_stop (hstarted : loop.stage.started = true) :
    Stopped { loop with stage := loop.stage.interrupted, running := false } :=
  ⟨rfl, started_interrupted hstarted⟩

/-- Stages from which the loop returns without waiting again, if the flag is cleared. -/
def Stage.leaving : Stage β → Bool
  | checking | dispatching _ | returned => true
  | _ => false

/-- The steps until the loop returns. -/
def Stage.stepsLeft : Stage β → Nat
  | dispatching rest => rest.length + 2
  | checking => 1
  | _ => 0

/-- The loop is on its way out. -/
def Leaving (loop : LoopState σ β) : Prop := loop.running = false ∧ loop.stage.leaving = true

/-- A turn other than a signal. -/
def Turn.own : Turn β ρ → Bool
  | stop => false
  | _ => true

theorem interrupted_of_leaving {stage : Stage β} (hleaving : stage.leaving = true) :
    stage.interrupted = stage := by
  cases stage with
  | waiting => exact absurd hleaving Bool.false_ne_true
  | _ => rfl

/-- A signal sends a loop on its way out that waits, serves a batch or looks at its flag. -/
theorem leaving_stop (hstage : loop.stage.interrupted.leaving = true) :
    Leaving { loop with stage := loop.stage.interrupted, running := false } := ⟨rfl, hstage⟩

/-- On its way out every turn of the loop is a step towards its end. -/
theorem Leaving.step (hleaving : Leaving loop) (henabled : Enabled D capacity loop turn)
    (hstep : RunLoop.step D loop turn = some (next, outs)) :
    Leaving next ∧ next.stage.stepsLeft + turn.own.toNat = loop.stage.stepsLeft := by
  obtain ⟨hflag, hstage'⟩ := hleaving
  rcases step_cases henabled hstep with ⟨rfl, rfl, hproceed⟩ |
    ⟨batch, -, hstage, -, hfits, rfl, rfl⟩ | ⟨errno, -, hstage, rfl, rfl⟩ |
    ⟨reply, source, rest, state, own, rfl, hstage, -, -, rfl, rfl⟩ | ⟨rfl, -, -, rfl, rfl⟩
  · rcases hproceed with ⟨hstage, rfl⟩ | ⟨hstage, hset, rfl⟩ | ⟨hstage, -, rfl⟩ | ⟨hstage, rfl⟩ |
      ⟨hstage, rfl⟩
    · rw [hstage] at hstage'
      exact absurd hstage' Bool.false_ne_true
    · rw [hflag] at hset
      exact absurd hset Bool.false_ne_true
    · rw [hstage]
      exact ⟨⟨hflag, rfl⟩, rfl⟩
    · rw [hstage] at hstage'
      exact absurd hstage' Bool.false_ne_true
    · rw [hstage]
      exact ⟨⟨hflag, rfl⟩, rfl⟩
  · rw [hstage] at hstage'
    exact absurd hstage' Bool.false_ne_true
  · rw [hstage] at hstage'
    exact absurd hstage' Bool.false_ne_true
  · rw [hstage]
    exact ⟨⟨hflag, rfl⟩, Nat.add_right_comm rest.length 2 1⟩
  · refine ⟨⟨rfl, ?_⟩, ?_⟩
    · rw [interrupted_of_leaving hstage', hstage']
    · rw [interrupted_of_leaving hstage']
      rfl

/-- A run on the way out takes as many turns of its own as steps were left and are not left any
more. -/
theorem Leaving.run {first last : LoopState σ β} {turns : List (Turn β ρ)}
    (hrun : (machine D capacity).Run first turns last outs) (hleaving : Leaving first) :
    Leaving last ∧ last.stage.stepsLeft + turns.countP Turn.own = first.stage.stepsLeft := by
  induction hrun with
  | nil => exact ⟨hleaving, rfl⟩
  | @cons loop turn next out turns last outs henabled hstep _ ih =>
      obtain ⟨hnext, hstepped⟩ := hleaving.step henabled hstep
      obtain ⟨hlast, hrest⟩ := ih hnext
      refine ⟨hlast, ?_⟩
      rw [List.countP_cons]
      cases hown : turn.own with
      | true =>
          rw [hown] at hstepped
          simp only [Bool.toNat_true] at hstepped
          simp only [if_true]
          omega
      | false =>
          rw [hown] at hstepped
          simp only [Bool.toNat_false] at hstepped
          simp only [Bool.false_eq_true, if_false]
          omega

/-- A loop on its way out has returned or can take a turn of its own, if the callbacks can
return. -/
theorem Leaving.returned_or_due (D : Dispatcher σ β ρ ω) (capacity : Nat)
    (hleaving : Leaving loop)
    (hreturns : ∀ source rest, loop.stage = .dispatching (source :: rest) →
      ∃ reply, D.Reply loop.state source reply ∧ (D.dispatch loop.state source reply).isSome) :
    loop.stage = .returned ∨ ∃ turn : Turn β ρ, turn.own = true ∧ Enabled D capacity loop turn ∧
      (RunLoop.step D loop turn).isSome := by
  have hproceed : Enabled D capacity loop .proceed → ∃ turn : Turn β ρ, turn.own = true ∧
      Enabled D capacity loop turn ∧ (RunLoop.step D loop turn).isSome := fun henabled =>
    ⟨.proceed, rfl, henabled, (step_isSome henabled).mpr fun _ _ hturn => by cases hturn⟩
  cases hstage : loop.stage with
  | starting => exact absurd hleaving.2 (by rw [hstage]; exact Bool.false_ne_true)
  | entering => exact absurd hleaving.2 (by rw [hstage]; exact Bool.false_ne_true)
  | waiting => exact absurd hleaving.2 (by rw [hstage]; exact Bool.false_ne_true)
  | threw => exact absurd hleaving.2 (by rw [hstage]; exact Bool.false_ne_true)
  | returned => exact .inl rfl
  | checking => exact .inr (hproceed (.inr (.inl hstage)))
  | dispatching rest =>
      cases rest with
      | nil => exact .inr (hproceed (.inr (.inr (.inr hstage))))
      | cons source rest =>
          obtain ⟨reply, hreply, hserved⟩ := hreturns source rest hstage
          have henabled : Enabled D capacity loop (.dispatch reply) :=
            ⟨source, rest, hstage, hreply⟩
          refine .inr ⟨.dispatch reply, rfl, henabled, (step_isSome henabled).mpr ?_⟩
          rintro other _ hturn hnext
          cases hturn
          rw [hstage] at hnext
          cases hnext
          exact hserved

end RunLoop
