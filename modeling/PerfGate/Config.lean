import PerfGate.Toml.Reader
import PerfGate.Verdict.Classification

/-!
# Configuration

Settings come from a TOML document with three sections. Every setting may be left out and has
a default; unknown keys are passed over. A section may also be written as a list of its
settings in their declared order. A configuration is accepted if its runs can start: at least
one iteration, and a threshold that is a number and not negative.
-/

set_option autoImplicit false

namespace PerfGate

structure RunnerConfig where
  iterations : Nat := 10
  warmup : Nat := 2
  /-- The client program that executes workload files. -/
  client : String := "psql"
  database : Option String := none
  deriving DecidableEq

structure CheckConfig where
  threshold : Float := defaultThreshold
  baseline : String := "baseline.json"
  benchmarks : List String := ["single_row_update", "cascade_10_entities", "bulk_1k_rows"]
  resultsDir : String := "."

structure ReportConfig where
  outputDir : String := "results"
  deriving DecidableEq

structure Config where
  runner : RunnerConfig := {}
  check : CheckConfig := {}
  report : ReportConfig := {}

namespace Config

/-! ## Settings -/

def count : Toml.Value → Option Nat
  | .integer n => if 0 ≤ n then some n.toNat else none
  | _ => none

def real : Toml.Value → Option Float
  | .real x => some x
  | .integer n => some (Float.ofInt n)
  | _ => none

def text : Toml.Value → Option String
  | .text s => some s
  | _ => none

def texts : Toml.Value → Option (List String)
  | .array items => items.mapM text
  | _ => none

/-! ## Sections -/

/-- A section by name: its settings by key, or in order. A date has no settings. -/
inductive Section where
  | named (entries : Toml.Entries)
  | listed (items : List Toml.Value)

def Section.of : Toml.Value → Option Section
  | .table _ entries => some (.named entries)
  | .array items => some (.listed items)
  | .tables elements => some (.listed elements)
  | .moment => some (.named [])
  | _ => none

def Section.value? (s : Section) (key : String) (index : Nat) : Option Toml.Value :=
  match s with
  | .named entries => entries.lookup key
  | .listed items => items[index]?

def Section.setting {α : Type} (s : Section) (key : String) (index : Nat)
    (decode : Toml.Value → Option α) (default : α) : Option α :=
  match s.value? key index with
  | none => some default
  | some v => decode v

def runnerConfig (s : Section) : Option RunnerConfig := do
  let defaults : RunnerConfig := {}
  return {
    iterations := ← s.setting "iterations" 0 count defaults.iterations
    warmup := ← s.setting "warmup" 1 count defaults.warmup
    client := ← s.setting "psql" 2 text defaults.client
    database := ← s.setting "database" 3 (fun v => (text v).map some) defaults.database }

def checkConfig (s : Section) : Option CheckConfig := do
  let defaults : CheckConfig := {}
  return {
    threshold := ← s.setting "threshold" 0 real defaults.threshold
    baseline := ← s.setting "baseline" 1 text defaults.baseline
    benchmarks := ← s.setting "benchmarks" 2 texts defaults.benchmarks
    resultsDir := ← s.setting "results_dir" 3 text defaults.resultsDir }

def reportConfig (s : Section) : Option ReportConfig := do
  let defaults : ReportConfig := {}
  return { outputDir := ← s.setting "output_dir" 0 text defaults.outputDir }

def sectionOf (root : Toml.Entries) (name : String) : Option Section :=
  match root.lookup name with
  | none => some (.named [])
  | some v => Section.of v

def ofEntries (root : Toml.Entries) : Option Config := do
  return {
    runner := ← runnerConfig (← sectionOf root "runner")
    check := ← checkConfig (← sectionOf root "regression")
    report := ← reportConfig (← sectionOf root "report") }

/-! ## Acceptance -/

def validate (c : Config) : Except SettingFault Unit :=
  if c.runner.iterations = 0 then .error .noConfiguredIterations
  else validThreshold c.check.threshold

def parse (text : String) : Except SettingFault Config :=
  match (Toml.parse text).bind ofEntries with
  | none => .error .malformed
  | some c => (c.validate).map fun _ => c

end Config

end PerfGate
