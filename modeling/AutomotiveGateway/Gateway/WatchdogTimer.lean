import AutomotiveGateway.Gateway.Callback

/-!
# The watchdog as a timer

The watchdog keeps the time of the last feed, with zero for none, and whether the silence
since was reported. What a check returns is a fact about all calls before it: the last feed
that no reset followed, and the checks since.
-/

namespace AutomotiveGateway

namespace Watchdog

def reset (watchdog : Watchdog) : Watchdog :=
  { watchdog with lastFeedNs := 0, fired := false }

/-- A call on the watchdog, with the reading of the clock it takes. -/
inductive Call
  | feed (nowNs : UInt64)
  | check (nowNs : UInt64)
  | reset
deriving DecidableEq, Repr

def Call.reading? : Call → Option UInt64
  | .feed nowNs => some nowNs
  | .check nowNs => some nowNs
  | .reset => none

/-- The readings of the clock in the order of the calls. -/
def readings (calls : List Call) : List UInt64 := calls.filterMap Call.reading?

/-- The clock is past zero and never goes back. -/
structure SteadyClock (calls : List Call) : Prop where
  positive : ∀ nowNs ∈ readings calls, 0 < nowNs
  steady : (readings calls).Pairwise (· ≤ ·)

def call (watchdog : Watchdog) : Call → Watchdog
  | .feed nowNs => watchdog.feed nowNs
  | .check nowNs => (watchdog.check nowNs).1
  | .reset => watchdog.reset

/-- The watchdog after the calls. -/
def after (watchdog : Watchdog) (calls : List Call) : Watchdog := calls.foldl call watchdog

/-- What the checks among the calls return. -/
def results (watchdog : Watchdog) : List Call → List Bool
  | [] => []
  | .feed nowNs :: calls => (watchdog.feed nowNs).results calls
  | .check nowNs :: calls =>
      (watchdog.check nowNs).2 :: (watchdog.check nowNs).1.results calls
  | .reset :: calls => watchdog.reset.results calls

@[simp] theorem after_nil (watchdog : Watchdog) : watchdog.after [] = watchdog := rfl

@[simp] theorem after_cons (watchdog : Watchdog) (head : Call) (calls : List Call) :
    watchdog.after (head :: calls) = (watchdog.call head).after calls := rfl

theorem after_append (watchdog : Watchdog) (calls more : List Call) :
    watchdog.after (calls ++ more) = (watchdog.after calls).after more :=
  List.foldl_append

/-- The silence since the last feed is longer than the timeout. -/
def Overdue (timeoutUs fedNs nowNs : UInt64) : Prop :=
  timeoutUs.toNat < (nowNs.toNat - fedNs.toNat) / 1000

instance (timeoutUs fedNs nowNs : UInt64) : Decidable (Overdue timeoutUs fedNs nowNs) :=
  Nat.decLt _ _

/-! ## One call -/

/-- A check marks the silence as reported and returns true, or does nothing. -/
theorem check_cases (watchdog : Watchdog) (nowNs : UInt64) :
    watchdog.check nowNs = ({ watchdog with fired := true }, true) ∨
      watchdog.check nowNs = (watchdog, false) := by
  unfold check
  dsimp only
  split_ifs
  · exact .inr rfl
  · exact .inl rfl
  · exact .inr rfl

theorem call_timeoutUs (watchdog : Watchdog) (call : Call) :
    (watchdog.call call).timeoutUs = watchdog.timeoutUs := by
  cases call with
  | feed nowNs => rfl
  | reset => rfl
  | check nowNs =>
      rcases watchdog.check_cases nowNs with hcheck | hcheck
      · rw [Watchdog.call, hcheck]
      · rw [Watchdog.call, hcheck]

theorem call_check_lastFeedNs (watchdog : Watchdog) (nowNs : UInt64) :
    (watchdog.call (.check nowNs)).lastFeedNs = watchdog.lastFeedNs := by
  rcases watchdog.check_cases nowNs with hcheck | hcheck
  · rw [call, hcheck]
  · rw [call, hcheck]

theorem call_check_fired (watchdog : Watchdog) (nowNs : UInt64) :
    (watchdog.call (.check nowNs)).fired = (watchdog.fired || (watchdog.check nowNs).2) := by
  rcases watchdog.check_cases nowNs with hcheck | hcheck
  · rw [call, hcheck, Bool.or_true]
  · rw [call, hcheck, Bool.or_false]

theorem check_of_unfed {watchdog : Watchdog} (hunfed : watchdog.lastFeedNs = 0)
    (nowNs : UInt64) : watchdog.check nowNs = (watchdog, false) := by
  rw [check, if_pos hunfed]

theorem check_of_fired {watchdog : Watchdog} (hfired : watchdog.fired = true) (nowNs : UInt64) :
    watchdog.check nowNs = (watchdog, false) := by
  simp [check, hfired]

/-- The subtraction of the code does not wrap when the feed came first. -/
theorem elapsed_gt_iff {timeoutUs fedNs nowNs : UInt64} (hle : fedNs ≤ nowNs) :
    (nowNs - fedNs) / 1000 > timeoutUs ↔ Overdue timeoutUs fedNs nowNs := by
  rw [gt_iff_lt, UInt64.lt_iff_toNat_lt, UInt64.toNat_div, UInt64.toNat_sub_of_le _ _ hle]
  exact Iff.rfl

theorem check_of_not_overdue {watchdog : Watchdog} {nowNs : UInt64}
    (hle : watchdog.lastFeedNs ≤ nowNs)
    (htimely : ¬ Overdue watchdog.timeoutUs watchdog.lastFeedNs nowNs) :
    watchdog.check nowNs = (watchdog, false) := by
  unfold check
  split
  next => rfl
  next => exact if_neg fun h => htimely ((elapsed_gt_iff hle).mp h.1)

theorem check_eq_true_iff {watchdog : Watchdog} {nowNs : UInt64}
    (hle : watchdog.lastFeedNs ≤ nowNs) :
    (watchdog.check nowNs).2 = true ↔ watchdog.lastFeedNs ≠ 0 ∧
      Overdue watchdog.timeoutUs watchdog.lastFeedNs nowNs ∧ watchdog.fired = false := by
  unfold check
  split
  next hunfed => simp [hunfed]
  next hfed =>
    simp only [elapsed_gt_iff hle, ne_eq, hfed, not_false_eq_true, true_and]
    split
    next hreport => simpa using hreport
    next hquiet => simpa using hquiet

/-! ## Runs of calls -/

theorem after_timeoutUs (watchdog : Watchdog) (calls : List Call) :
    (watchdog.after calls).timeoutUs = watchdog.timeoutUs := by
  induction calls generalizing watchdog with
  | nil => rfl
  | cons call calls ih => rw [after_cons, ih, call_timeoutUs]

/-- The calls are checks only. -/
def OnlyChecks (calls : List Call) : Prop := (∀ nowNs, .feed nowNs ∉ calls) ∧ .reset ∉ calls

theorem OnlyChecks.head {head : Call} {calls : List Call} (hchecks : OnlyChecks (head :: calls)) :
    ∃ nowNs, head = .check nowNs := by
  cases head with
  | feed nowNs => exact absurd List.mem_cons_self (hchecks.1 nowNs)
  | check nowNs => exact ⟨nowNs, rfl⟩
  | reset => exact absurd List.mem_cons_self hchecks.2

theorem OnlyChecks.tail {head : Call} {calls : List Call} (hchecks : OnlyChecks (head :: calls)) :
    OnlyChecks calls :=
  ⟨fun nowNs hmem => hchecks.1 nowNs (List.mem_cons_of_mem _ hmem),
    fun hmem => hchecks.2 (List.mem_cons_of_mem _ hmem)⟩

theorem OnlyChecks.nil : OnlyChecks [] := ⟨fun _ => List.not_mem_nil, List.not_mem_nil⟩

theorem OnlyChecks.check {calls : List Call} (hchecks : OnlyChecks calls) (nowNs : UInt64) :
    OnlyChecks (.check nowNs :: calls) :=
  ⟨fun other => by simpa using hchecks.1 other, by simpa using hchecks.2⟩

/-- Checks leave the time of the last feed, and the mark says whether one returned true. -/
theorem after_checks (watchdog : Watchdog) {since : List Call} (hchecks : OnlyChecks since) :
    (watchdog.after since).lastFeedNs = watchdog.lastFeedNs ∧
      ((watchdog.after since).fired = true ↔
        watchdog.fired = true ∨ true ∈ watchdog.results since) := by
  induction since generalizing watchdog with
  | nil => simp [results]
  | cons head since ih =>
      obtain ⟨nowNs, rfl⟩ := hchecks.head
      obtain ⟨hfed, hfired⟩ := ih (watchdog.call (.check nowNs)) hchecks.tail
      refine ⟨hfed.trans (watchdog.call_check_lastFeedNs nowNs), hfired.trans ?_⟩
      rw [call_check_fired, Bool.or_eq_true, results, List.mem_cons, or_assoc]
      exact or_congr_right (or_congr_left eq_comm)

/-- Every history ends with the checks after its last feed, or after its last reset or its
start. -/
theorem eq_feed_or_unfed (calls : List Call) :
    (∃ before fedNs since, calls = before ++ .feed fedNs :: since ∧ OnlyChecks since) ∨
      (∃ before since, calls = before ++ .reset :: since ∧ OnlyChecks since) ∨
      OnlyChecks calls := by
  induction calls with
  | nil => exact .inr (.inr .nil)
  | cons head calls ih =>
      rcases ih with ⟨before, fedNs, since, rfl, hchecks⟩ | ⟨before, since, rfl, hchecks⟩ | hchecks
      · exact .inl ⟨head :: before, fedNs, since, rfl, hchecks⟩
      · exact .inr (.inl ⟨head :: before, since, rfl, hchecks⟩)
      · cases head with
        | feed nowNs => exact .inl ⟨[], nowNs, calls, rfl, hchecks⟩
        | check nowNs => exact .inr (.inr (hchecks.check nowNs))
        | reset => exact .inr (.inl ⟨[], calls, rfl, hchecks⟩)

/-- After a feed and checks the two fields are the time of that feed and whether one of the
checks returned true. -/
theorem after_feed (watchdog : Watchdog) (before : List Call) (fedNs : UInt64)
    {since : List Call} (hchecks : OnlyChecks since) :
    (watchdog.after (before ++ .feed fedNs :: since)).lastFeedNs = fedNs ∧
      ((watchdog.after (before ++ .feed fedNs :: since)).fired = true ↔
        true ∈ ((watchdog.after before).feed fedNs).results since) := by
  obtain ⟨hfed, hfired⟩ := ((watchdog.after before).feed fedNs).after_checks hchecks
  rw [after_append, after_cons]
  exact ⟨hfed, hfired.trans (or_iff_right Bool.false_ne_true)⟩

/-- The field for the last feed is zero, or the latest feed that no reset followed is in it. -/
theorem lastFeedNs_cases {watchdog : Watchdog} (hunfed : watchdog.lastFeedNs = 0)
    (calls : List Call) :
    (watchdog.after calls).lastFeedNs = 0 ∨
      ∃ before since, calls = before ++ .feed (watchdog.after calls).lastFeedNs :: since ∧
        OnlyChecks since := by
  rcases eq_feed_or_unfed calls with ⟨before, fedNs, since, rfl, hchecks⟩ |
    ⟨before, since, rfl, hchecks⟩ | hchecks
  · rw [(watchdog.after_feed before fedNs hchecks).1]
    exact .inr ⟨before, since, rfl, hchecks⟩
  · rw [after_append, after_cons]
    exact .inl ((watchdog.after before).reset.after_checks hchecks).1
  · exact .inl ((watchdog.after_checks hchecks).1.trans hunfed)

/-- Without a feed at most one check returns true, and none once the silence was reported. -/
theorem count_results {watchdog : Watchdog} {calls : List Call}
    (hunfed : ∀ nowNs, .feed nowNs ∉ calls) :
    (watchdog.results calls).count true ≤
      if watchdog.lastFeedNs = 0 ∨ watchdog.fired = true then 0 else 1 := by
  induction calls generalizing watchdog with
  | nil => exact Nat.zero_le _
  | cons head calls ih =>
      have hrest := fun nowNs hmem => hunfed nowNs (List.mem_cons_of_mem head hmem)
      cases head with
      | feed nowNs => exact absurd List.mem_cons_self (hunfed nowNs)
      | reset =>
          have hnone := @ih watchdog.reset hrest
          rw [if_pos (.inl rfl)] at hnone
          exact hnone.trans (Nat.zero_le _)
      | check nowNs =>
          have hcount := @ih (watchdog.check nowNs).1 hrest
          rw [results]
          by_cases hdone : watchdog.lastFeedNs = 0 ∨ watchdog.fired = true
          · have hcheck : watchdog.check nowNs = (watchdog, false) :=
              hdone.elim (check_of_unfed · nowNs) (check_of_fired · nowNs)
            rw [hcheck] at hcount ⊢
            simpa using hcount
          · rw [if_neg hdone]
            cases hresult : (watchdog.check nowNs).2 with
            | false =>
                rw [List.count_cons_of_ne Bool.false_ne_true]
                exact hcount.trans (by split <;> omega)
            | true =>
                have hfired : (watchdog.check nowNs).1.fired = true := by
                  have hmark := watchdog.call_check_fired nowNs
                  rwa [hresult, Bool.or_true] at hmark
                rw [if_pos (.inr hfired)] at hcount
                rw [List.count_cons_self]
                omega

/-! ## The timer -/

theorem SteadyClock.le {before since : List Call} {fedNs nowNs : UInt64}
    (hclock : SteadyClock (before ++ .feed fedNs :: since ++ [.check nowNs])) :
    fedNs ≠ 0 ∧ fedNs ≤ nowNs := by
  obtain ⟨hpositive, hsteady⟩ := hclock
  simp only [readings, List.filterMap_append, List.filterMap_cons, Call.reading?,
    List.filterMap_nil] at hpositive hsteady
  refine ⟨(UInt64.pos_iff_ne_zero).mp (hpositive fedNs (by simp)), ?_⟩
  rw [List.pairwise_append] at hsteady
  exact hsteady.2.2 fedNs (by simp) nowNs List.mem_cons_self

/-- On a steady clock the time of the last feed is never past the reading of a check, a check
returns true if and only if there was a feed after the last reset, the silence since the
latest is longer than the timeout and no check since has returned true, and between two
feeds at most one check does. -/
theorem check_iff (timeoutUs : UInt64) {calls : List Call} {nowNs : UInt64}
    (hclock : SteadyClock (calls ++ [.check nowNs])) :
    (after { timeoutUs } calls).lastFeedNs ≤ nowNs ∧
      (((after { timeoutUs } calls).check nowNs).2 = true ↔
        ∃ before fedNs since, calls = before ++ .feed fedNs :: since ∧ OnlyChecks since ∧
          Overdue timeoutUs fedNs nowNs ∧
          true ∉ ((after { timeoutUs } before).feed fedNs).results since) ∧
      ∀ before since, calls = before ++ since → (∀ fedNs, .feed fedNs ∉ since) →
        ((after { timeoutUs } before).results since).count true ≤ 1 := by
  have hstart : ({ timeoutUs } : Watchdog).lastFeedNs = 0 := rfl
  have hle : (after { timeoutUs } calls).lastFeedNs ≤ nowNs := by
    rcases lastFeedNs_cases hstart calls with hzero | ⟨before, since, hcalls, -⟩
    · rw [hzero]
      exact UInt64.zero_le
    · rw [hcalls] at hclock
      exact hclock.le.2
  refine ⟨hle, ?_, fun before since _ hunfed => (count_results hunfed).trans (by split <;> omega)⟩
  rw [check_eq_true_iff hle, after_timeoutUs]
  constructor
  · rintro ⟨hfed, hoverdue, hfired⟩
    obtain ⟨before, since, hcalls, hchecks⟩ := (lastFeedNs_cases hstart calls).resolve_left hfed
    refine ⟨before, _, since, hcalls, hchecks, hoverdue, fun hreported => ?_⟩
    have hmark := (after_feed { timeoutUs } before _ hchecks).2.mpr hreported
    rw [← hcalls, hfired] at hmark
    exact Bool.false_ne_true hmark
  · rintro ⟨before, fedNs, since, rfl, hchecks, hoverdue, hquiet⟩
    obtain ⟨hfed, hfired⟩ := after_feed { timeoutUs } before fedNs hchecks
    rw [hfed]
    exact ⟨hclock.le.1, hoverdue, by simpa using mt hfired.mp hquiet⟩

/-- Fed at one second, checked in time and then too late. -/
theorem check_two_seconds :
    ((after {} [.feed 1000000000, .check 2000000000]).check 3000001000).2 = true :=
  (@check_iff 2000000 [.feed 1000000000, .check 2000000000] 3000001000
    ⟨by simp [readings, Call.reading?], by simp [readings, Call.reading?]⟩).2.1.mpr
    ⟨[], 1000000000, [.check 2000000000], rfl, OnlyChecks.nil.check _, by decide, by decide⟩

end Watchdog

end AutomotiveGateway
