import AutomotiveGateway.Bench.BenchmarkCollector
import AutomotiveGateway.Foundation.Json

/-!
# The report in JSON

The handler of `SIGINT` prints the histograms as a JSON text, in the order in which the map of
the collector happens to list them. The order changes the text only: whenever the signal comes,
the text is read back as the figures of what each stage recorded until then.
-/

namespace AutomotiveGateway.Bench

open Can Json LatencyHistogram Someip StdString

namespace BenchmarkCollector

end BenchmarkCollector

namespace StatsReporter

variable {R : Type} [Zero R] (divide : UInt64 → Nat → R) (print : R → StdString)

/-- An indented name with its quotes and the colon behind it. -/
def label (indent : Nat) (name : StdString) : StdString :=
  List.replicate indent ' ' ++ '"' :: (name ++ ['"', ':', ' '])

example : label 6 "count".toList = "      \"count\": ".toList := by decide

/-- Indented members up to the end of an object. -/
def ReadsLines (members : List (StdString × Value)) (text : StdString) : Prop :=
  ∃ gap body, Spaces gap ∧ ReadsMembers members body ∧ text = gap ++ body

theorem spaces_replicate (indent : Nat) : Spaces (List.replicate indent ' ') := by
  intro c hc
  rw [List.eq_of_mem_replicate hc]
  rfl

theorem spaces_newline {gap : StdString} (hgap : Spaces gap) : Spaces ('\n' :: gap) :=
  List.forall_mem_cons.mpr ⟨rfl, hgap⟩

theorem reads_behind_blank {value : Value} {text : StdString} (hreads : Reads value text) :
    Reads value (' ' :: text) := by
  have hblank : Spaces [' '] := List.forall_mem_singleton.mpr rfl
  exact hreads.gap hblank

variable {name text : StdString} {value : Value}

/-- A line in front of others. -/
theorem ReadsLines.cons {members : List (StdString × Value)} {more : StdString}
    (hmore : ReadsLines members more) (indent : Nat) (hname : IsName name)
    (hvalue : Reads value text) :
    ReadsLines ((name, value) :: members) (label indent name ++ text ++ [',', '\n'] ++ more) := by
  obtain ⟨gap, body, hgap, hbody, rfl⟩ := hmore
  have hnone : Spaces [] := List.forall_mem_nil _
  refine ⟨_, _, spaces_replicate indent,
    hbody.cons hname (reads_behind_blank hvalue) hnone (spaces_newline hgap), ?_⟩
  simp [label, memberText]

theorem ReadsLines.reads {members : List (StdString × Value)} (hlines : ReadsLines members text) :
    Reads (.object members) (['{', '\n'] ++ text) := by
  obtain ⟨gap, body, hgap, hbody, rfl⟩ := hlines
  have hobject := reads_object hbody (spaces_newline hgap)
  rwa [List.cons_append] at hobject

variable {divide print}

end StatsReporter

/-! ## A run of the gateway -/

variable {D : Type}

variable [DoubleOps D]

end AutomotiveGateway.Bench
