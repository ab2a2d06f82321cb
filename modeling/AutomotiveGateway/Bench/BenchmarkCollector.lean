import AutomotiveGateway.Bench.Percentiles
import AutomotiveGateway.Gateway.Pipeline

/-!
# The latency report of the gateway

The collector keeps one histogram for each event. Its histograms do not depend on each
other, and every decoded frame of a run is counted once in each stage of the pipeline.
-/

namespace AutomotiveGateway.Bench

open Can LatencyHistogram

structure BenchmarkCollector where
  histograms : Finmap fun _ : StdString => LatencyHistogram := ∅
  totalMessages : UInt64 := 0

namespace BenchmarkCollector

/-- `operator[]` creates a missing histogram. -/
def record (collector : BenchmarkCollector) (event : StdString) (latencyUs : UInt64) :
    BenchmarkCollector where
  histograms := collector.histograms.insert event
    (((collector.histograms.lookup event).getD create).record latencyUs)
  totalMessages := collector.totalMessages + 1

/-- The histogram of an event; `nullptr` is `none`. -/
def get (collector : BenchmarkCollector) (event : StdString) : Option LatencyHistogram :=
  collector.histograms.lookup event

/-- The collector after the calls of `record`. -/
def after (collector : BenchmarkCollector) (calls : List (StdString × UInt64)) :
    BenchmarkCollector :=
  calls.foldl (fun collector call => collector.record call.1 call.2) collector

/-- The values that the calls record for an event. -/
def valuesOf (event : StdString) (calls : List (StdString × UInt64)) : List UInt64 :=
  (calls.filter fun call => call.1 = event).map Prod.snd

end BenchmarkCollector

/-! ## A run of the gateway -/

/-- The stages of the pipeline that are measured. -/
def stages : List StdString :=
  ["dbc_lookup".toList, "signal_decode".toList, "someip_publish".toList, "end_to_end".toList]

variable {D : Type}

/-- The call of `record` that an action is. -/
def recorded? : GatewayAction D → Option (StdString × UInt64)
  | .record event latencyUs => some (event, latencyUs)
  | _ => none

/-- The frame and message that an action decodes. -/
def decoded? : GatewayAction D → Option (CanFrame × MessageDef D)
  | .decode frame msg => some (frame, msg)
  | _ => none

/-- The latencies that actions record for a stage. -/
def latencies (stage : StdString) (actions : List (GatewayAction D)) : List UInt64 :=
  BenchmarkCollector.valuesOf stage (actions.filterMap recorded?)

/-- The frames that actions decode. -/
def decodes (actions : List (GatewayAction D)) : List (CanFrame × MessageDef D) :=
  actions.filterMap decoded?

theorem latencies_append (stage : StdString) (actions more : List (GatewayAction D)) :
    latencies stage (actions ++ more) = latencies stage actions ++ latencies stage more := by
  rw [latencies, BenchmarkCollector.valuesOf, List.filterMap_append, List.filter_append,
    List.map_append]
  rfl

theorem decodes_append (actions more : List (GatewayAction D)) :
    decodes (actions ++ more) = decodes actions ++ decodes more :=
  List.filterMap_append

/-- Actions that measure each stage as often as they decode, and nothing else. -/
structure MeasuresDecodes (actions : List (GatewayAction D)) : Prop where
  stage : ∀ stage ∈ stages, (latencies stage actions).length = (decodes actions).length
  total : (actions.filterMap recorded?).length = stages.length * (decodes actions).length

theorem MeasuresDecodes.nil : MeasuresDecodes ([] : List (GatewayAction D)) where
  stage := fun _ _ => rfl
  total := rfl

theorem MeasuresDecodes.append {actions more : List (GatewayAction D)}
    (hactions : MeasuresDecodes actions) (hmore : MeasuresDecodes more) :
    MeasuresDecodes (actions ++ more) where
  stage := by
    intro stage hstage
    rw [latencies_append, decodes_append, List.length_append, List.length_append,
      hactions.stage stage hstage, hmore.stage stage hstage]
  total := by
    rw [List.filterMap_append, decodes_append, List.length_append, List.length_append,
      hactions.total, hmore.total, Nat.mul_add]

/-- Actions that neither measure nor decode. -/
theorem measuresDecodes_of_none {actions : List (GatewayAction D)}
    (hnone : ∀ action ∈ actions, recorded? action = none ∧ decoded? action = none) :
    MeasuresDecodes actions := by
  have hrecorded : actions.filterMap recorded? = [] :=
    List.filterMap_eq_nil_iff.mpr fun action hmem => (hnone action hmem).1
  have hdecoded : actions.filterMap decoded? = [] :=
    List.filterMap_eq_nil_iff.mpr fun action hmem => (hnone action hmem).2
  refine ⟨fun stage _ => ?_, ?_⟩
  · rw [latencies, decodes, hrecorded, hdecoded]
    rfl
  · rw [decodes, hrecorded, hdecoded]
    rfl

theorem measuresDecodes_of_upkeep {actions : List (GatewayAction D)}
    (hupkeep : ∀ action ∈ actions, action.IsUpkeep) : MeasuresDecodes actions := by
  apply measuresDecodes_of_none
  intro action hmem
  have hkind := hupkeep action hmem
  cases action with
  | decode frame msg => exact hkind.elim
  | notify datagram dest => exact hkind.elim
  | record event latencyUs => exact hkind.elim
  | sd action => exact ⟨rfl, rfl⟩
  | alert => exact ⟨rfl, rfl⟩
  | printTable frameCount => exact ⟨rfl, rfl⟩

/-- The measurements of a callback that decodes: two stages around the decoder, and two behind
the publisher. -/
theorem measuresDecodes_measured {publishing : List (GatewayAction D)}
    (hpublishing : MeasuresDecodes publishing) (frame : CanFrame) (msg : MessageDef D)
    (lookupUs decodeUs publishUs wholeUs : UInt64) :
    MeasuresDecodes ([.record "dbc_lookup".toList lookupUs, .decode frame msg,
        .record "signal_decode".toList decodeUs] ++ publishing ++
      [.record "someip_publish".toList publishUs, .record "end_to_end".toList wholeUs]) := by
  have hbefore : (decodes [(.record "dbc_lookup".toList lookupUs : GatewayAction D),
      .decode frame msg, .record "signal_decode".toList decodeUs]).length = 1 := rfl
  have hafter : (decodes [(.record "someip_publish".toList publishUs : GatewayAction D),
      .record "end_to_end".toList wholeUs]).length = 0 := rfl
  refine ⟨fun stage hstage => ?_, ?_⟩
  · have hmeasured :
        (latencies stage [(.record "dbc_lookup".toList lookupUs : GatewayAction D),
            .decode frame msg, .record "signal_decode".toList decodeUs]).length +
          (latencies stage [(.record "someip_publish".toList publishUs : GatewayAction D),
            .record "end_to_end".toList wholeUs]).length = 1 := by
      simp only [stages, List.mem_cons, List.not_mem_nil, or_false] at hstage
      rcases hstage with rfl | rfl | rfl | rfl
      · rfl
      · rfl
      · rfl
      · rfl
    have hbetween := hpublishing.stage stage hstage
    rw [latencies_append, latencies_append, decodes_append, decodes_append, List.length_append,
      List.length_append, List.length_append, List.length_append, hbefore, hafter]
    omega
  · have hbetween := hpublishing.total
    rw [decodes_append, decodes_append, List.length_append, List.length_append, hbefore, hafter,
      List.filterMap_append, List.filterMap_append, List.length_append, List.length_append,
      hbetween, Nat.mul_add, Nat.mul_add]
    exact Nat.add_right_comm 2 _ 2

end AutomotiveGateway.Bench
