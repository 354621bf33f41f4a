import PerfGate.Commands.Check
import PerfGate.Report.Validation

/-!
# Running workloads

Measures workloads in the order of the arguments, with whatever runner executes them. One that
fails is told of and passed over; the report holds the others, and is not written if there are
none.
-/

set_option autoImplicit false

namespace PerfGate

open CommandLine (Workload)

namespace Workloads

def summarize (plan : TrialPlan) (runner : Runner Dialogue) (w : Workload) : Job Summary := do
  let samples ← plan.run runner w.path w.implementation
  ExceptT.mk (pure (Summary.ofSamples w.path samples))

def measure (plan : TrialPlan) (runner : Runner Dialogue) (w : Workload) :
    Dialogue (Except Fault Summary) := do
  say (.workload w.path w.implementation)
  let result ← (summarize plan runner w).run
  match result with
  | .ok summary => say (.measured summary.mean summary.median)
  | .error cause => say (.workloadFailed w.path cause)
  return result

def measureAll (plan : TrialPlan) (runner : Runner Dialogue) :
    List Workload → Dialogue (List Summary)
  | [] => pure []
  | w :: rest => do
    let result ← measure plan runner w
    let others ← measureAll plan runner rest
    return result.toOption.toList ++ others

def report (output : String) (summaries : List Summary) : Attempt Nat :=
  if summaries.isEmpty then throw .nothingCompleted
  else Job.within .fault do
    let generated ← Dialogue.request .now
    Document.save output (Report.validationReport summaries generated)
    say (.documentSaved output)
    return 0

def run (plan : TrialPlan) (runner : Runner Dialogue) (workloads : List Workload)
    (output : String) : Attempt Nat := do
  let summaries ← measureAll plan runner workloads
  report output summaries

end Workloads

def RunSettings.execute (s : RunSettings) : Attempt Nat := do
  let plan ← Job.within .fault (ExceptT.mk (pure (TrialPlan.of? s.iterations s.warmup)))
  Workloads.run plan s.client.runner s.workloads s.output

end PerfGate
