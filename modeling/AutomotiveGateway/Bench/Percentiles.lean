import AutomotiveGateway.Bench.LatencyHistogram

/-!
# Percentiles

A percentile is an order statistic of the samples, at an index that grows with the
percentage. The figures of a report depend on the samples only up to their order.
-/

namespace AutomotiveGateway.Bench

open OrderStatistics

/-- The figures in a row of the table. -/
structure LatencyReport (D : Type) where
  count : UInt64
  min : UInt64
  mean : D
  p50 : UInt64
  p95 : UInt64
  p99 : UInt64
  max : UInt64
deriving DecidableEq, Repr

namespace LatencyHistogram

variable {D : Type} [Zero D] (divide : UInt64 → Nat → D)

def report (histogram : LatencyHistogram) : LatencyReport D where
  count := histogram.count
  min := histogram.min
  mean := histogram.mean divide
  p50 := histogram.p50
  p95 := histogram.p95
  p99 := histogram.p99
  max := histogram.max

/-! ## One histogram -/

theorem percentile_eq {histogram : LatencyHistogram} (hne : histogram.samples ≠ []) (p : ℚ) :
    histogram.percentile p = orderStatistic histogram.samples
      ⟨percentileIndex p histogram.samples.length,
        percentileIndex_lt p (List.length_pos_of_ne_nil hne)⟩ := by
  rw [percentile, dif_neg hne]
  apply congrArg (sorted histogram.samples).get
  apply Fin.ext
  exact congrArg (percentileIndex p) (length_sorted histogram.samples)

theorem hasRank_percentile {histogram : LatencyHistogram} (hne : histogram.samples ≠ [])
    (p : ℚ) :
    HasRank histogram.samples
      (Min.min ⌊p * histogram.samples.length / 100⌋₊ (histogram.samples.length - 1))
      (histogram.percentile p) := by
  rw [percentile_eq hne, ← percentileIndex_eq]
  exact hasRank_orderStatistic _ _

theorem percentile_mem {histogram : LatencyHistogram} (hne : histogram.samples ≠ []) (p : ℚ) :
    histogram.percentile p ∈ histogram.samples := by
  rw [percentile_eq hne]
  exact orderStatistic_mem _ _

theorem percentile_mono {histogram : LatencyHistogram} (hne : histogram.samples ≠ []) {p q : ℚ}
    (hle : p ≤ q) : histogram.percentile p ≤ histogram.percentile q := by
  rw [percentile_eq hne, percentile_eq hne]
  apply orderStatistic_mono
  exact percentileIndex_mono hle _

/-! ## Two histograms with the same samples -/

variable {left right : LatencyHistogram}

theorem samples_eq_nil_iff (hperm : left.samples.Perm right.samples) :
    left.samples = [] ↔ right.samples = [] := by
  rw [← List.length_eq_zero_iff, hperm.length_eq, List.length_eq_zero_iff]

theorem min_eq_of_perm (hperm : left.samples.Perm right.samples) : left.min = right.min := by
  rcases eq_or_ne left.samples [] with hempty | hne
  · rw [min, min, hempty, (samples_eq_nil_iff hperm).mp hempty]
  · have hne' : right.samples ≠ [] := mt (samples_eq_nil_iff hperm).mpr hne
    exact le_antisymm (min_le (hperm.mem_iff.mpr (min_mem hne')))
      (min_le (hperm.mem_iff.mp (min_mem hne)))

theorem max_eq_of_perm (hperm : left.samples.Perm right.samples) : left.max = right.max := by
  rcases eq_or_ne left.samples [] with hempty | hne
  · rw [max, max, hempty, (samples_eq_nil_iff hperm).mp hempty]
  · have hne' : right.samples ≠ [] := mt (samples_eq_nil_iff hperm).mpr hne
    exact le_antisymm (le_max (hperm.mem_iff.mp (max_mem hne)))
      (le_max (hperm.mem_iff.mpr (max_mem hne')))

theorem mean_eq_of_perm (hperm : left.samples.Perm right.samples) :
    left.mean divide = right.mean divide := by
  have hcomm : RightCommutative ((· + ·) : UInt64 → UInt64 → UInt64) :=
    ⟨fun a b c => by rw [UInt64.add_assoc, UInt64.add_comm b, ← UInt64.add_assoc]⟩
  rw [mean, mean, hperm.foldl_eq, hperm.length_eq, hperm.isEmpty_eq]

theorem percentile_eq_of_perm (hperm : left.samples.Perm right.samples) (p : ℚ) :
    left.percentile p = right.percentile p := by
  rcases eq_or_ne left.samples [] with hempty | hne
  · rw [percentile, percentile, dif_pos hempty, dif_pos ((samples_eq_nil_iff hperm).mp hempty)]
  · rw [percentile_eq hne, percentile_eq (mt (samples_eq_nil_iff hperm).mpr hne),
      orderStatistic_perm hperm]
    apply congrArg (orderStatistic right.samples)
    apply Fin.ext
    exact congrArg (percentileIndex p) hperm.length_eq

theorem report_eq_of_perm (hperm : left.samples.Perm right.samples)
    (hcount : left.totalCount = right.totalCount) : left.report divide = right.report divide := by
  rw [report, report, count, count, hcount, min_eq_of_perm hperm, max_eq_of_perm hperm,
    mean_eq_of_perm divide hperm, p50, p50, percentile_eq_of_perm hperm, p95, p95,
    percentile_eq_of_perm hperm, p99, p99, percentile_eq_of_perm hperm]

omit [Zero D] in
/-- Values that fit the capacity are all stored. -/
theorem summarizes_fitting {maxSamples : Nat} {values : List UInt64}
    (hfit : values.length ≤ maxSamples) :
    ((create maxSamples).after (values.map .record)).samples = values ∧
      ((create maxSamples).after (values.map .record)).totalCount =
        UInt64.ofNat values.length := by
  have hsummary := summarizes_recorded maxSamples (values.map .record)
  rw [recorded_map_record] at hsummary
  exact ⟨hsummary.samples.trans (List.take_of_length_le hfit), hsummary.totalCount⟩

/-- The percentiles of stored samples have the rank their index tells, at an index within the
samples, and lie in the order of the percentages between the minimum and the maximum. Two
orders of recording values that fit the capacity give the same figures. -/
theorem percentile_consistent {histogram : LatencyHistogram} (hne : histogram.samples ≠ [])
    {p q : ℚ} (hle : p ≤ q) {maxSamples : Nat} {values permuted : List UInt64}
    (hfit : values.length ≤ maxSamples) (hperm : values.Perm permuted) :
    (percentileIndex p histogram.samples.length < histogram.samples.length ∧
      HasRank histogram.samples
        (Min.min ⌊p * histogram.samples.length / 100⌋₊ (histogram.samples.length - 1))
        (histogram.percentile p)) ∧
    (histogram.min ≤ histogram.percentile p ∧
      histogram.percentile p ≤ histogram.percentile q ∧
      histogram.percentile q ≤ histogram.max) ∧
    (histogram.min ≤ histogram.p50 ∧ histogram.p50 ≤ histogram.p95 ∧
      histogram.p95 ≤ histogram.p99 ∧ histogram.p99 ≤ histogram.max) ∧
    ((create maxSamples).after (values.map .record)).report divide =
      ((create maxSamples).after (permuted.map .record)).report divide ∧
    ∀ r, ((create maxSamples).after (values.map .record)).percentile r =
      ((create maxSamples).after (permuted.map .record)).percentile r := by
  obtain ⟨hvalues, hcount⟩ := summarizes_fitting hfit
  obtain ⟨hpermuted, hcount'⟩ := summarizes_fitting (hperm.length_eq ▸ hfit)
  have hsamples : ((create maxSamples).after (values.map .record)).samples.Perm
      ((create maxSamples).after (permuted.map .record)).samples := by
    rw [hvalues, hpermuted]
    exact hperm
  refine ⟨⟨percentileIndex_lt p (List.length_pos_of_ne_nil hne), hasRank_percentile hne p⟩,
    ⟨min_le (percentile_mem hne p), percentile_mono hne hle, le_max (percentile_mem hne q)⟩,
    ⟨min_le (percentile_mem hne 50), percentile_mono hne (by norm_num),
      percentile_mono hne (by norm_num), le_max (percentile_mem hne 99)⟩,
    report_eq_of_perm divide hsamples ?_, percentile_eq_of_perm hsamples⟩
  rw [hcount, hcount', hperm.length_eq]

/-- The histogram after three samples, and the same samples in two orders. -/
theorem percentile_consistent_three :
    ((create 4).after [.record 7, .record 3, .record 5]).percentile 50 ≤
        ((create 4).after [.record 7, .record 3, .record 5]).percentile 100 ∧
      ((create 4).after ([7, 3, 5].map .record)).report (fun sum size => sum.toNat / size) =
        ((create 4).after ([3, 5, 7].map .record)).report (fun sum size => sum.toNat / size) :=
  have hconsistent := percentile_consistent (fun sum size => sum.toNat / size)
    (by decide : ((create 4).after [.record 7, .record 3, .record 5]).samples ≠ [])
    (by norm_num : (50 : ℚ) ≤ 100) (by decide : [(7 : UInt64), 3, 5].length ≤ 4)
    (by decide : [(7 : UInt64), 3, 5].Perm [3, 5, 7])
  ⟨hconsistent.2.1.2.1, hconsistent.2.2.2.1⟩

end LatencyHistogram

end AutomotiveGateway.Bench
