import PerfGate.Commands.Documents
import PerfGate.Commands.Failure
import PerfGate.Commands.Settings
import PerfGate.Measurement.Simulation
import PerfGate.ResultsFile

/-!
# The check

Measures benchmarks and compares each with the baseline. Everything that can be refused is
refused before the first measurement: the threshold, the number of iterations, the baseline,
and every entry that will be compared with. The results are written once, after the last
measurement.
-/

set_option autoImplicit false

namespace PerfGate

abbrev Attempt := ExceptT Failure Dialogue

def Job.within {α : Type} (context : Fault → Failure) (task : Job α) : Attempt α :=
  ExceptT.mk do
    return (← task.run).mapError context

namespace CheckSettings

def implementation : String := "pg_tviews"

def plan (s : CheckSettings) : Except Fault TrialPlan := do
  (validThreshold s.threshold).mapError .setting
  TrialPlan.of? s.iterations s.warmup

def loadBaseline (s : CheckSettings) : Job Baseline := ExceptT.mk do
  let loaded ← (Document.loadBaseline s.baseline).run
  match loaded with
  | .error (.baselineNotFound path) => say (.noBaseline path)
  | .error _ => pure ()
  | .ok b => say (.baseline b.version b.date b.hardware.cpu)
  return loaded

def entries (s : CheckSettings) (baseline : Baseline) : Except Fault (List BaselineEntry) :=
  s.benchmarks.mapM baseline.entry

def workloadPath (directory benchmark : String) : String :=
  Path.joined directory (benchmark ++ ".sql")

def measure (s : CheckSettings) (plan : TrialPlan) (benchmark : String) : Job Summary :=
  match s.workloads with
  | some directory => do
    say (.running benchmark plan.iterations)
    let samples ← plan.run s.client.runner (workloadPath directory benchmark) implementation
    ExceptT.mk (pure (Summary.ofDurations benchmark implementation (samples.map (·.duration))))
  | none => do
    say (.simulating benchmark plan.iterations)
    let samples ← Simulation.samples (Dialogue.request .word) benchmark plan.iterations
    ExceptT.mk (pure (Summary.ofSamples benchmark samples))

def measureAll (s : CheckSettings) (plan : TrialPlan) :
    List (String × BaselineEntry) → Attempt (List (Summary × Comparison))
  | [] => pure []
  | (benchmark, entry) :: rest => do
    let summary ← Job.within (.benchmark benchmark) (s.measure plan benchmark)
    let comparison := compareWith entry summary s.threshold
    say (.compared comparison)
    let others ← measureAll s plan rest
    return (summary, comparison) :: others

def saveResults (s : CheckSettings) (file : ResultsFile) : Job String := do
  Document.makeDirectory s.results
  let path := Path.joined s.results file.fileName
  Document.write path file.json
  return path

structure Start where
  plan : TrialPlan
  started : Instant
  entries : List BaselineEntry

def start (s : CheckSettings) : Job Start := do
  let plan ← ExceptT.mk (pure s.plan)
  let started ← Dialogue.request .now
  say .checkBegins
  let baseline ← s.loadBaseline
  let entries ← ExceptT.mk (pure (s.entries baseline))
  return ⟨plan, started, entries⟩

def finish (s : CheckSettings) (started : Instant) (measured : List (Summary × Comparison)) :
    Job Nat := do
  let assessment : Assessment := ⟨measured.map (·.2), s.threshold⟩
  let path ← s.saveResults (.new started (measured.map (·.1)))
  say (.resultsSaved path)
  say (.assessed assessment)
  return assessment.exitCode

def check (s : CheckSettings) : Attempt Nat := do
  let start ← Job.within .fault s.start
  let measured ← s.measureAll start.plan (s.benchmarks.zip start.entries)
  Job.within .fault (s.finish start.started measured)

end CheckSettings

end PerfGate
