import AutomotiveGateway.Can.SignalDecoder
import AutomotiveGateway.Foundation.Machine
import AutomotiveGateway.Foundation.Pacing

/-!
# The stress test

The tool floods the CAN bus at a rate of its own. It reads the clock in a busy loop and sends a
frame whenever the next one is due. When the scheduler holds it up it catches up with as many
frames as were due meanwhile.
-/

namespace AutomotiveGateway

open Can Pacing

/-- What becomes of a signed argument in an unsigned calculation. -/
def widened (x : Int32) : UInt64 := x.toInt64.toUInt64

/-- `can_ids` -/
def stressCanIds : Vector UInt32 3 := #v[291, 292, 293]

/-- The frame that is sent behind so many others. -/
def stressFrame (sent : UInt64) : CanFrame where
  canId := stressCanIds.get ⟨(sent % 3).toNat, Nat.mod_lt _ (by decide)⟩
  canDlc := 8
  data := .ofFn fun i => ((sent + UInt64.ofNat i) &&& 0xFF).toUInt8

/-- The variables of the loop. -/
structure StressTest where
  intervalNs : UInt64
  totalFrames : UInt64
  sent : UInt64 := 0
  nextSend : UInt64

namespace StressTest

/-- The arguments, and the clock in front of the loop. The division traps for a rate of zero. -/
def start (rateHz duration : Int32) (startTime : UInt64) : Option StressTest :=
  if widened rateHz = 0 then none
  else some
    { intervalNs := 1000000000 / widened rateHz
      totalFrames := widened rateHz * widened duration
      nextSend := startTime }

/-- One iteration, with the reading of the clock. -/
def poll (test : StressTest) (now : UInt64) : StressTest × List CanFrame :=
  if now < test.nextSend then (test, [])
  else
    ({ test with sent := test.sent + 1, nextSend := test.nextSend + test.intervalNs },
      [stressFrame test.sent])

end StressTest

/-- The loop of the tool, which ends with the last frame. -/
def stressTest : Machine StressTest UInt64 CanFrame where
  Enabled test _ := test.sent < test.totalFrames
  step test now := some (test.poll now)

instance (test : StressTest) (now : UInt64) : Decidable (stressTest.Enabled test now) :=
  inferInstanceAs (Decidable (test.sent < test.totalFrames))

/-- How many frames are due at a reading of the clock. -/
def StressTest.dueAt (intervalNs startTime now : UInt64) : Nat :=
  (now.toNat - startTime.toNat) / intervalNs.toNat + 1

theorem toNat_widened {x : Int32} (hpos : 0 ≤ x) : (widened x).toNat = x.toNatClampNeg := by
  have hwide : 0 ≤ x.toInt64 := by
    rw [Int64.le_iff_toInt_le, Int32.toInt_toInt64]
    exact Int32.le_iff_toInt_le.mp hpos
  rw [widened, Int64.toNat_toUInt64_of_le hwide, Int32.toNatClampNeg_toInt64]

namespace StressTest

/-- A poll of a test that keeps its schedule: it has sent what the polls have allowed. -/
structure OnSchedule (startTime : UInt64) (dues : List Nat) (test : StressTest) : Prop where
  positive : 0 < test.intervalNs.toNat
  interval : test.intervalNs.toNat ≤ 1000000000
  sent : test.sent.toNat = sentBehind 0 dues
  le_total : test.sent ≤ test.totalFrames
  next : test.nextSend.toNat = startTime.toNat + test.sent.toNat * test.intervalNs.toNat

variable {startTime now : UInt64} {dues : List Nat} {test : StressTest}

/-- The next frame is due exactly when the clock says so. -/
theorem OnSchedule.lt_dueAt_iff (h : OnSchedule startTime dues test) (hlater : startTime ≤ now) :
    test.sent.toNat < dueAt test.intervalNs startTime now ↔ ¬ now < test.nextSend := by
  have hstart := UInt64.le_iff_toNat_le.mp hlater
  rw [dueAt, Nat.lt_succ_iff, Nat.le_div_iff_mul_le h.positive, UInt64.lt_iff_toNat_lt, h.next]
  omega

theorem OnSchedule.poll (h : OnSchedule startTime dues test) (hlater : startTime ≤ now)
    (hclock : now.toNat + 1000000000 < 2 ^ 64) (henabled : test.sent < test.totalFrames) :
    OnSchedule startTime (dues ++ [dueAt test.intervalNs startTime now]) (test.poll now).1 := by
  have hdue := h.lt_dueAt_iff hlater
  have hbehind := sentBehind_concat 0 dues (dueAt test.intervalNs startTime now)
  rw [← h.sent, Pacing.poll] at hbehind
  -- the tool compares times, and the schedule counts frames
  by_cases hearly : now < test.nextSend
  · rw [StressTest.poll, if_pos hearly]
    rw [if_neg (fun hlt => hdue.mp hlt hearly)] at hbehind
    exact { h with sent := hbehind.symm }
  · rw [StressTest.poll, if_neg hearly]
    rw [if_pos (hdue.mpr hearly)] at hbehind
    have hlt := UInt64.lt_iff_toNat_lt.mp henabled
    have htotal := test.totalFrames.toNat_lt
    have hsent : (test.sent + 1).toNat = test.sent.toNat + 1 := by
      rw [UInt64.toNat_add]
      exact Nat.mod_eq_of_lt (by change _ + 1 < _; omega)
    have hnow : test.nextSend.toNat ≤ now.toNat := by
      rw [UInt64.lt_iff_toNat_lt] at hearly
      omega
    have hinterval := h.interval
    have hnext : (test.nextSend + test.intervalNs).toNat =
        test.nextSend.toNat + test.intervalNs.toNat := by
      rw [UInt64.toNat_add]
      exact Nat.mod_eq_of_lt (by omega)
    exact
      { positive := h.positive
        interval := h.interval
        sent := by rw [hbehind, hsent]
        le_total := by
          change test.sent + 1 ≤ test.totalFrames
          rw [UInt64.le_iff_toNat_le, hsent]
          exact hlt
        next := by rw [hnext, hsent, h.next, Nat.succ_mul, Nat.add_assoc] }

theorem dueAt_mono (intervalNs startTime : UInt64) {earlier later : UInt64}
    (hle : earlier ≤ later) :
    dueAt intervalNs startTime earlier ≤ dueAt intervalNs startTime later := by
  have hnat := UInt64.le_iff_toNat_le.mp hle
  exact Nat.add_le_add_right (Nat.div_le_div_right (Nat.sub_le_sub_right hnat _)) 1

theorem poll_arguments (test : StressTest) (now : UInt64) :
    (test.poll now).1.intervalNs = test.intervalNs ∧
      (test.poll now).1.totalFrames = test.totalFrames := by
  unfold poll
  split <;> exact ⟨rfl, rfl⟩

/-- A poll sends the frame with the next number, if any. -/
theorem poll_frames (test : StressTest) (now : UInt64) (htotal : test.sent < test.totalFrames) :
    (test.poll now).2 =
        (List.range' test.sent.toNat (test.poll now).2.length).map (stressFrame ∘ UInt64.ofNat) ∧
      (test.poll now).1.sent.toNat = test.sent.toNat + (test.poll now).2.length := by
  by_cases hearly : now < test.nextSend
  · rw [poll, if_pos hearly]
    exact ⟨rfl, rfl⟩
  · rw [poll, if_neg hearly]
    have hlt := UInt64.lt_iff_toNat_lt.mp htotal
    have hbound := test.totalFrames.toNat_lt
    refine ⟨?_, ?_⟩
    · simp
    · change (test.sent + 1).toNat = test.sent.toNat + 1
      rw [UInt64.toNat_add]
      exact Nat.mod_eq_of_lt (by change _ + 1 < _; omega)

/-- Whatever the clock says, a run keeps the schedule and sends the frames in order. -/
theorem OnSchedule.run {readings : List UInt64} {last : StressTest} {frames : List CanFrame}
    (hrun : stressTest.Run test readings last frames) (h : OnSchedule startTime dues test)
    (hlater : ∀ now ∈ readings, startTime ≤ now ∧ now.toNat + 1000000000 < 2 ^ 64) :
    OnSchedule startTime (dues ++ readings.map (dueAt test.intervalNs startTime)) last ∧
      last.totalFrames = test.totalFrames ∧
      frames = (List.range' test.sent.toNat frames.length).map (stressFrame ∘ UInt64.ofNat) ∧
      last.sent.toNat = test.sent.toNat + frames.length := by
  induction hrun generalizing dues with
  | nil =>
      rw [List.map_nil, List.append_nil]
      exact ⟨h, rfl, rfl, rfl⟩
  | @cons test now middle out readings last frames henabled hstep _ ih =>
      obtain ⟨⟨hstart, hclock⟩, hrest⟩ := List.forall_mem_cons.mp hlater
      have hpoll : test.poll now = (middle, out) := Option.some.inj hstep
      obtain ⟨hinterval, htotal⟩ := poll_arguments test now
      obtain ⟨hframes, hsent⟩ := poll_frames test now henabled
      have hmiddle := h.poll hstart hclock henabled
      rw [hpoll] at hinterval htotal hframes hsent hmiddle
      obtain ⟨hlast, hsame, hmore, hall⟩ := ih hmiddle hrest
      rw [hinterval, List.append_assoc] at hlast
      refine ⟨hlast, hsame.trans htotal, ?_, ?_⟩
      · rw [List.length_append, ← List.range'_append_1, List.map_append, ← hframes, ← hsent,
          ← hmore]
      · rw [hall, hsent, List.length_append, Nat.add_assoc]

/-- Less than an interval after another reading at most one more frame is due. -/
theorem dueAt_le_succ {intervalNs startTime earlier later : UInt64} (hpos : 0 < intervalNs.toNat)
    (hprompt : later.toNat < earlier.toNat + intervalNs.toNat) :
    dueAt intervalNs startTime later ≤ dueAt intervalNs startTime earlier + 1 := by
  refine Nat.add_le_add_right ?_ 1
  rw [dueAt, ← Nat.add_div_right _ hpos]
  exact Nat.div_le_div_right (by omega)

theorem isChain_dueAt {intervalNs startTime : UInt64} (hpos : 0 < intervalNs.toNat)
    {readings : List UInt64}
    (hprompt : (startTime :: readings).IsChain
      fun now next => next.toNat < now.toNat + intervalNs.toNat) :
    (0 :: readings.map (dueAt intervalNs startTime)).IsChain fun due next => next ≤ due + 1 := by
  cases readings with
  | nil => exact .singleton 0
  | cons first readings =>
      obtain ⟨hfirst, hlater⟩ := List.isChain_cons_cons.mp hprompt
      refine List.isChain_cons_cons.mpr ⟨?_, ?_⟩
      · rw [dueAt, Nat.div_eq_of_lt (by omega)]
      · exact (List.isChain_cons_map _).mpr (hlater.imp fun _ _ hlt => dueAt_le_succ hpos hlt)

/-- With a rate that leaves at least a nanosecond between two frames the loop is entered. -/
theorem exists_start {rateHz : Int32} (hrate : 0 < rateHz) (hfast : rateHz ≤ 1000000000)
    (duration : Int32) (startTime : UInt64) :
    ∃ test, start rateHz duration startTime = some test ∧
      test.intervalNs.toNat = 1000000000 / rateHz.toNatClampNeg ∧
      (0 ≤ duration → test.totalFrames.toNat =
        rateHz.toNatClampNeg * duration.toNatClampNeg) ∧
      OnSchedule startTime [] test := by
  have hnonneg : 0 ≤ rateHz := Int32.le_of_lt hrate
  have hwide := toNat_widened hnonneg
  have hcast := Int32.cast_toNatClampNeg rateHz hnonneg
  have hpos : 0 < rateHz.toNatClampNeg := by
    have hint : (0 : Int) < rateHz.toInt := Int32.lt_iff_toInt_lt.mp hrate
    omega
  have hbound : rateHz.toNatClampNeg ≤ 1000000000 := by
    have hint : rateHz.toInt ≤ 1000000000 := Int32.le_iff_toInt_le.mp hfast
    omega
  have hnonzero : widened rateHz ≠ 0 := by
    intro hzero
    rw [hzero] at hwide
    exact hpos.ne hwide
  have hinterval : (1000000000 / widened rateHz : UInt64).toNat =
      1000000000 / rateHz.toNatClampNeg := by
    rw [UInt64.toNat_div, hwide]
    rfl
  refine ⟨_, if_neg hnonzero, hinterval, fun hduration => ?_, ?_⟩
  · have hsmall := rateHz.toNatClampNeg_lt
    have hshort := duration.toNatClampNeg_lt
    rw [UInt64.toNat_mul, hwide, toNat_widened hduration]
    refine Nat.mod_eq_of_lt ((Nat.mul_lt_mul'' hsmall hshort).trans (by decide))
  · exact
      { positive := by
          rw [hinterval]
          exact Nat.div_pos hbound hpos
        interval := by
          rw [hinterval]
          exact Nat.div_le_self _ _
        sent := rfl
        le_total := UInt64.zero_le
        next := by simp }

end StressTest

open StressTest

/-- The stress test sends its frames in order, none before it is due and none twice. Whenever the
clock is read, it has sent the least of what the polls allow: a frame for each poll, and no more
than those due at an earlier poll and one for each poll behind that. So it makes up for any delay,
and it has sent just what is due if there is always less than an interval between two polls. -/
theorem stressTest_paced {rateHz : Int32} (hrate : 0 < rateHz) (hfast : rateHz ≤ 1000000000)
    (duration : Int32) (startTime : UInt64) :
    ∃ test, start rateHz duration startTime = some test ∧
      test.intervalNs.toNat = 1000000000 / rateHz.toNatClampNeg ∧
      (0 ≤ duration → test.totalFrames.toNat =
        rateHz.toNatClampNeg * duration.toNatClampNeg) ∧
      ∀ readings last frames, stressTest.Run test readings last frames →
        (startTime :: readings).Pairwise (· ≤ ·) →
        (∀ now ∈ readings, now.toNat + 1000000000 < 2 ^ 64) →
        frames = (List.range frames.length).map (stressFrame ∘ UInt64.ofNat) ∧
        (∀ now, stressTest.Enabled last now ↔ frames.length < test.totalFrames.toNat) ∧
        frames.length ≤ test.totalFrames.toNat ∧
        IsLeast {total | Allowed 0 (readings.map (dueAt test.intervalNs startTime)) total}
          frames.length ∧
        ((startTime :: readings).IsChain
            (fun now next => next.toNat < now.toNat + test.intervalNs.toNat) →
          frames.length = (readings.map (dueAt test.intervalNs startTime)).getLastD 0) := by
  obtain ⟨test, hstart, hinterval, htotal, hschedule⟩ := exists_start hrate hfast duration startTime
  refine ⟨test, hstart, hinterval, htotal, ?_⟩
  intro readings last frames hrun hsorted hclock
  obtain ⟨hstarted, hordered⟩ := List.pairwise_cons.mp hsorted
  obtain ⟨hlast, hsame, hframes, hsent⟩ := hschedule.run hrun fun now hmem =>
    ⟨hstarted now hmem, hclock now hmem⟩
  have hfresh : test.sent.toNat = 0 := hschedule.sent
  rw [hfresh, Nat.zero_add] at hsent
  rw [hfresh, ← List.range_eq_range'] at hframes
  have hcount : frames.length = sentBehind 0 (readings.map (dueAt test.intervalNs startTime)) := by
    rw [← hsent, hlast.sent, List.nil_append]
  -- the clock does not go back, so no frame that was due stops being due
  have hdues : (0 :: readings.map (dueAt test.intervalNs startTime)).Pairwise (· ≤ ·) := by
    refine List.pairwise_cons.mpr ⟨fun due _ => Nat.zero_le due, ?_⟩
    exact List.pairwise_map.mpr (hordered.imp fun hle => dueAt_mono _ _ hle)
  refine ⟨hframes, ?_, ?_, ?_, ?_⟩
  · intro now
    rw [← hsent, ← hsame]
    exact UInt64.lt_iff_toNat_lt
  · rw [← hsent, ← hsame]
    exact UInt64.le_iff_toNat_le.mp hlast.le_total
  · rw [hcount]
    exact isLeast_sentBehind hdues
  · intro hprompt
    rw [hcount]
    exact sentBehind_of_prompt hdues (isChain_dueAt hschedule.positive hprompt)

/-- Held up for three milliseconds, the tool sends the three frames that were due meanwhile. -/
theorem stressTest_paced_late :
    ∃ test last frames, start 1000 10 0 = some test ∧
      stressTest.Run test [0, 10, 3000000, 3000001, 3000002] last frames ∧
      frames = (List.range 4).map (stressFrame ∘ UInt64.ofNat) := by
  obtain ⟨test, hstart, -, -, hpaced⟩ :=
    @stressTest_paced 1000 (by decide) (by decide) 10 0
  have hargs : start 1000 10 0 =
      some { intervalNs := 1000000, totalFrames := 10000, nextSend := 0 } := rfl
  rw [hargs] at hstart
  obtain rfl := Option.some.inj hstart
  have hrun : stressTest.Run
      { intervalNs := 1000000, totalFrames := 10000, nextSend := 0 }
      [0, 10, 3000000, 3000001, 3000002] _ _ :=
    .cons (by decide) rfl (.cons (by decide) rfl (.cons (by decide) rfl
      (.cons (by decide) rfl (.cons (by decide) rfl (.nil _)))))
  refine ⟨_, _, _, hargs, hrun, ?_⟩
  exact (hpaced _ _ _ hrun (by decide) (by simp)).1

end AutomotiveGateway
