import AutomotiveGateway.Foundation.OrderStatistics
import Mathlib.Data.Rat.Floor

/-!
# Latency histograms

The store of samples is bounded and the count is not, so the report of a histogram is about
the first values that were recorded. Percentiles are computed with exact arithmetic in place
of `double`, and the mean over any type for `double`.
-/

namespace AutomotiveGateway.Bench

open OrderStatistics

instance linearOrderUInt64 : LinearOrder UInt64 where
  le_refl _ := UInt64.le_refl _
  le_trans _ _ _ := UInt64.le_trans
  le_antisymm _ _ := UInt64.le_antisymm
  le_total := UInt64.le_total
  lt_iff_le_not_ge _ _ := Std.LawfulOrderLT.lt_iff _ _
  toDecidableLE := inferInstance
  toDecidableEq := inferInstance
  toDecidableLT := inferInstance

/-- The samples, at most `maxSamples` of them, and the number of calls that recorded. -/
structure LatencyHistogram where
  samples : List UInt64
  maxSamples : Nat
  totalCount : UInt64
  bounded : samples.length ≤ maxSamples
deriving DecidableEq

/-- The index of the percentile among `size` sorted samples. -/
def percentileIndex (p : ℚ) (size : Nat) : Nat :=
  let idx := ⌊p / 100 * size⌋₊
  if idx ≥ size then size - 1 else idx

theorem percentileIndex_eq (p : ℚ) (size : Nat) :
    percentileIndex p size = min ⌊p * size / 100⌋₊ (size - 1) := by
  rw [percentileIndex, div_mul_eq_mul_div]
  split
  next hpast => exact (min_eq_right (by omega)).symm
  next hwithin => exact (min_eq_left (by omega)).symm

theorem percentileIndex_lt (p : ℚ) {size : Nat} (hpos : 0 < size) :
    percentileIndex p size < size := by
  rw [percentileIndex_eq]
  omega

/-- A larger percentile has no smaller index. -/
theorem percentileIndex_mono {p q : ℚ} (hle : p ≤ q) (size : Nat) :
    percentileIndex p size ≤ percentileIndex q size := by
  rw [percentileIndex_eq, percentileIndex_eq]
  have hfloor : ⌊p * size / 100⌋₊ ≤ ⌊q * size / 100⌋₊ := by
    apply Nat.floor_mono
    gcongr
  exact min_le_min_right _ hfloor

namespace LatencyHistogram

/-- The constructor. -/
def create (maxSamples : Nat := 10000) : LatencyHistogram where
  samples := []
  maxSamples
  totalCount := 0
  bounded := Nat.zero_le maxSamples

theorem bounded_push {samples : List UInt64} {maxSamples : Nat}
    (hroom : samples.length < maxSamples) (latencyUs : UInt64) :
    (samples ++ [latencyUs]).length ≤ maxSamples := by
  rw [List.length_append, List.length_singleton]
  exact hroom

def record (histogram : LatencyHistogram) (latencyUs : UInt64) : LatencyHistogram :=
  if hroom : histogram.samples.length < histogram.maxSamples then
    { histogram with
      samples := histogram.samples ++ [latencyUs]
      totalCount := histogram.totalCount + 1
      bounded := bounded_push hroom latencyUs }
  else { histogram with totalCount := histogram.totalCount + 1 }

theorem samples_record (histogram : LatencyHistogram) (latencyUs : UInt64) :
    (histogram.record latencyUs).samples =
      if histogram.samples.length < histogram.maxSamples then histogram.samples ++ [latencyUs]
      else histogram.samples := by
  unfold record
  split
  next => rfl
  next => rfl

theorem maxSamples_record (histogram : LatencyHistogram) (latencyUs : UInt64) :
    (histogram.record latencyUs).maxSamples = histogram.maxSamples := by
  unfold record
  split
  next => rfl
  next => rfl

theorem totalCount_record (histogram : LatencyHistogram) (latencyUs : UInt64) :
    (histogram.record latencyUs).totalCount = histogram.totalCount + 1 := by
  unfold record
  split
  next => rfl
  next => rfl

def min (histogram : LatencyHistogram) : UInt64 :=
  match histogram.samples with
  | [] => 0
  | first :: rest => minElement first rest

def max (histogram : LatencyHistogram) : UInt64 :=
  match histogram.samples with
  | [] => 0
  | first :: rest => maxElement first rest

/-- `divide` converts the sum to `double` and divides it by the number of samples. -/
def mean {D : Type} [Zero D] (divide : UInt64 → Nat → D) (histogram : LatencyHistogram) : D :=
  if histogram.samples.isEmpty then 0
  else divide (histogram.samples.foldl (· + ·) 0) histogram.samples.length

theorem length_sorted_pos {samples : List UInt64} (hne : samples ≠ []) :
    0 < (sorted samples).length := by
  rw [length_sorted]
  exact List.length_pos_of_ne_nil hne

def percentile (histogram : LatencyHistogram) (p : ℚ) : UInt64 :=
  if hempty : histogram.samples = [] then 0
  else (sorted histogram.samples).get
    ⟨percentileIndex p (sorted histogram.samples).length,
      percentileIndex_lt p (length_sorted_pos hempty)⟩

def p50 (histogram : LatencyHistogram) : UInt64 := histogram.percentile 50

def p95 (histogram : LatencyHistogram) : UInt64 := histogram.percentile 95

def p99 (histogram : LatencyHistogram) : UInt64 := histogram.percentile 99

def count (histogram : LatencyHistogram) : UInt64 := histogram.totalCount

def sampleCount (histogram : LatencyHistogram) : Nat := histogram.samples.length

def reset (histogram : LatencyHistogram) : LatencyHistogram where
  samples := []
  maxSamples := histogram.maxSamples
  totalCount := 0
  bounded := Nat.zero_le _

/-! ## Runs of calls -/

inductive Call
  | record (latencyUs : UInt64)
  | reset
deriving DecidableEq, Repr

def call (histogram : LatencyHistogram) : Call → LatencyHistogram
  | .record latencyUs => histogram.record latencyUs
  | .reset => histogram.reset

/-- The histogram after the calls. -/
def after (histogram : LatencyHistogram) (calls : List Call) : LatencyHistogram :=
  calls.foldl call histogram

/-- The values recorded since the last reset, one call later. -/
def Call.extend (values : List UInt64) : Call → List UInt64
  | .record latencyUs => values ++ [latencyUs]
  | .reset => []

/-- The values recorded since the last reset. -/
def recorded (calls : List Call) : List UInt64 := calls.foldl Call.extend []

/-- What the histogram keeps of the recorded values: the first ones and how many there are. -/
structure Summarizes (histogram : LatencyHistogram) (maxSamples : Nat) (values : List UInt64) :
    Prop where
  samples : histogram.samples = values.take maxSamples
  maxSamples : histogram.maxSamples = maxSamples
  totalCount : histogram.totalCount = UInt64.ofNat values.length

theorem take_concat (values : List UInt64) (value : UInt64) (maxSamples : Nat) :
    (values ++ [value]).take maxSamples =
      if (values.take maxSamples).length < maxSamples then values.take maxSamples ++ [value]
      else values.take maxSamples := by
  rw [List.length_take]
  split
  next hroom =>
    rw [List.take_of_length_le (by omega : values.length ≤ maxSamples), List.take_of_length_le]
    rw [List.length_append, List.length_singleton]
    omega
  next hfull => exact List.take_append_of_le_length (by omega)

theorem Summarizes.record {histogram : LatencyHistogram} {maxSamples : Nat}
    {values : List UInt64} (hsummary : histogram.Summarizes maxSamples values)
    (latencyUs : UInt64) :
    (histogram.record latencyUs).Summarizes maxSamples (values ++ [latencyUs]) where
  samples := by
    rw [samples_record, hsummary.samples, hsummary.maxSamples, take_concat]
  maxSamples := by rw [maxSamples_record, hsummary.maxSamples]
  totalCount := by
    rw [totalCount_record, hsummary.totalCount, List.length_append, List.length_singleton,
      UInt64.ofNat_add]
    rfl

theorem Summarizes.call {histogram : LatencyHistogram} {maxSamples : Nat}
    {values : List UInt64} (hsummary : histogram.Summarizes maxSamples values) (call : Call) :
    (histogram.call call).Summarizes maxSamples (call.extend values) := by
  cases call with
  | record latencyUs => exact hsummary.record latencyUs
  | reset => exact ⟨List.take_nil.symm, hsummary.maxSamples, rfl⟩

theorem Summarizes.after {histogram : LatencyHistogram} {maxSamples : Nat}
    {values : List UInt64} (hsummary : histogram.Summarizes maxSamples values)
    (calls : List Call) :
    (histogram.after calls).Summarizes maxSamples (calls.foldl Call.extend values) := by
  induction calls generalizing histogram values with
  | nil => exact hsummary
  | cons call calls ih => exact ih (hsummary.call call)

/-- At any point of a run the histogram is about the first values since the last reset. -/
theorem summarizes_recorded (maxSamples : Nat) (calls : List Call) :
    ((create maxSamples).after calls).Summarizes maxSamples (recorded calls) :=
  Summarizes.after ⟨List.take_nil.symm, rfl, rfl⟩ calls

/-! ## Bounds -/

theorem min_mem {histogram : LatencyHistogram} (hne : histogram.samples ≠ []) :
    histogram.min ∈ histogram.samples := by
  obtain ⟨first, rest, hsamples⟩ := List.exists_cons_of_ne_nil hne
  rw [min, hsamples]
  exact minElement_mem first rest

theorem max_mem {histogram : LatencyHistogram} (hne : histogram.samples ≠ []) :
    histogram.max ∈ histogram.samples := by
  obtain ⟨first, rest, hsamples⟩ := List.exists_cons_of_ne_nil hne
  rw [max, hsamples]
  exact maxElement_mem first rest

theorem min_le {histogram : LatencyHistogram} {value : UInt64}
    (hmem : value ∈ histogram.samples) : histogram.min ≤ value := by
  obtain ⟨first, rest, hsamples⟩ := List.exists_cons_of_ne_nil (List.ne_nil_of_mem hmem)
  rw [min, hsamples]
  exact minElement_le (hsamples ▸ hmem)

theorem le_max {histogram : LatencyHistogram} {value : UInt64}
    (hmem : value ∈ histogram.samples) : value ≤ histogram.max := by
  obtain ⟨first, rest, hsamples⟩ := List.exists_cons_of_ne_nil (List.ne_nil_of_mem hmem)
  rw [max, hsamples]
  exact le_maxElement (hsamples ▸ hmem)

theorem recorded_map_record (values : List UInt64) : recorded (values.map .record) = values := by
  have hfold (before : List UInt64) :
      (values.map Call.record).foldl Call.extend before = before ++ values := by
    induction values generalizing before with
    | nil => exact (List.append_nil before).symm
    | cons value values ih =>
        rw [List.map_cons, List.foldl_cons, ih, Call.extend, List.append_assoc,
          List.singleton_append]
  exact hfold []

/-- Of the values recorded since the last reset the first `maxSamples` lie between the minimum
and the maximum, and the count covers all of them as long as `size_t` does. -/
theorem min_le_and_le_max (maxSamples : Nat) (calls : List Call) :
    (∀ value ∈ (recorded calls).take maxSamples,
        ((create maxSamples).after calls).min ≤ value ∧
          value ≤ ((create maxSamples).after calls).max) ∧
      ((create maxSamples).after calls).count.toNat = (recorded calls).length % 2 ^ 64 ∧
      ((create maxSamples).after calls).sampleCount =
        Min.min maxSamples (recorded calls).length := by
  have hsummary := summarizes_recorded maxSamples calls
  refine ⟨fun value hmem => ?_, ?_, ?_⟩
  · rw [← hsummary.samples] at hmem
    exact ⟨min_le hmem, le_max hmem⟩
  · rw [count, hsummary.totalCount, UInt64.toNat_ofNat']
  · rw [sampleCount, hsummary.samples, List.length_take]

/-- As many values as the default capacity holds, and then a spike. -/
def spike : List Call := (List.replicate 10000 (1 : UInt64) ++ [1000000]).map .record

theorem max_lt_spike : ∃ value ∈ recorded spike, (create.after spike).max < value := by
  have hrecorded : recorded spike = List.replicate 10000 1 ++ [1000000] := recorded_map_record _
  have hsamples : (create.after spike).samples = List.replicate 10000 1 := by
    rw [(summarizes_recorded 10000 spike).samples, hrecorded,
      List.take_left' List.length_replicate]
  have hmax : (create.after spike).max = 1 := by
    have hmem : (create.after spike).max ∈ (create.after spike).samples :=
      max_mem (hsamples ▸ List.ne_nil_of_length_eq_add_one List.length_replicate)
    rw [hsamples] at hmem
    exact List.eq_of_mem_replicate hmem
  rw [hrecorded, hmax]
  exact ⟨1000000, List.mem_append_right _ List.mem_cons_self, by decide⟩

end LatencyHistogram

end AutomotiveGateway.Bench
