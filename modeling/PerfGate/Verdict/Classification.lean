import PerfGate.Fault

/-!
# Classes of change

The relative change of a mean against its reference falls into one of four classes, tried in
a fixed order. What counts as a regression is set by a threshold; what counts as an
improvement is fixed.
-/

set_option autoImplicit false

namespace PerfGate

inductive Classification where
  | regression
  /-- Above the threshold without being a regression; no valid threshold leads here. -/
  | warning
  | improvement
  | withinRange
  deriving DecidableEq, Repr

def Classification.label : Classification → String
  | .regression => "REGRESSION"
  | .warning => "WARNING"
  | .improvement => "IMPROVEMENT"
  | .withinRange => "OK"

def improvementThreshold : Float := 0.05

def classify (change threshold : Float) : Classification :=
  if threshold < change.abs ∧ 0.0 < change then .regression
  else if threshold < change then .warning
  else if change < -improvementThreshold then .improvement
  else .withinRange

def relativeChange (reference current : Float) : Float :=
  (current - reference) / reference

def defaultThreshold : Float := 0.10

/-- A threshold has to be a number that is not negative. -/
def validThreshold (threshold : Float) : Except SettingFault Unit :=
  if threshold.isFinite ∧ ¬ threshold < 0.0 then .ok () else .error (.threshold threshold)

end PerfGate
