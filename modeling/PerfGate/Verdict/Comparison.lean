import PerfGate.Baseline
import PerfGate.Measurement.Summary
import PerfGate.Verdict.Classification

/-!
# Comparisons with the baseline

The figures of one benchmark beside those of its baseline entry, with the relative change,
its class, and a line that says so.
-/

set_option autoImplicit false

namespace PerfGate

structure Comparison where
  name : String
  baselineMean : Float
  baselineDeviation : Float
  currentMean : Float
  currentDeviation : Float
  change : Float
  classification : Classification

namespace Comparison

def isRegression (c : Comparison) : Bool :=
  c.classification = .regression

def percent (x : Float) : String :=
  Decimal.fixed 1 x ++ "%"

def message (c : Comparison) : String :=
  match c.classification with
  | .regression => "REGRESSION: " ++ c.name ++ " is " ++ percent (c.change * 100.0) ++ " slower"
  | .warning => "WARNING: " ++ c.name ++ " is " ++ percent (c.change * 100.0) ++ " slower"
  | .improvement =>
    "IMPROVEMENT: " ++ c.name ++ " is " ++ percent (-c.change * 100.0) ++ " faster!"
  | .withinRange => "OK: " ++ c.name ++ " performance within acceptable range"

end Comparison

/-- Neither the entry nor the threshold is checked here. -/
def compareWith (entry : BaselineEntry) (current : Summary) (threshold : Float) : Comparison :=
  let change := relativeChange entry.mean current.mean
  { name := current.name
    baselineMean := entry.mean
    baselineDeviation := entry.deviation
    currentMean := current.mean
    currentDeviation := current.deviation
    change := change
    classification := classify change threshold }

end PerfGate
