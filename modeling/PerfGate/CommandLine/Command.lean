import PerfGate.CommandLine.Grammar

/-!
# Commands

The three commands with their options, and how arguments become one of them. The options that
hold for every command may stand before or after its name; what stands after it counts.
-/

set_option autoImplicit false

namespace PerfGate.CommandLine

structure CheckOptions where
  baseline : Option String
  iterations : Option Nat
  threshold : Option Float
  sqlDir : Option String
  resultsDir : Option String
  benchmarks : List String

structure RunOptions where
  iterations : Option Nat
  warmup : Option Nat
  output : String
  workloads : List Workload

structure ReportOptions where
  results : String
  comparisons : Option String
  outputDir : Option String

inductive Command where
  | check (options : CheckOptions)
  | run (options : RunOptions)
  | report (options : ReportOptions)

structure Invocation where
  debug : Bool
  config : Option String
  command : Command

def programVersion : String := "tvbench 0.3.1"

def defaultOutput : String := "PERFORMANCE_VALIDATION.md"

/-! ## Grammars -/

def option (name placeholder : String) (kind : ValueKind) : String × Action :=
  (name, .value ⟨name, "--" ++ name ++ " <" ++ placeholder ++ ">", kind, false⟩)

def operands (placeholder : String) (kind : ValueKind) : Slot :=
  ⟨placeholder, "<" ++ placeholder ++ ">...", kind, true⟩

def commonOptions : List (String × Action) :=
  [("debug", .flag), option "config" "PATH" .path, ("help", .help)]

def rootGrammar : Grammar where
  options := ("version", .version) :: commonOptions
  letters := [('h', .help), ('V', .version)]
  operand := none
  subcommands := ["check", "run", "report", "help"]
  required := []

def checkGrammar : Grammar where
  options := [
    option "baseline" "PATH" .path, option "iterations" "N" .count, option "threshold" "F" .real,
    option "sql-dir" "DIR" .path, option "results-dir" "DIR" .path] ++ commonOptions
  letters := [('h', .help)]
  operand := some (operands "BENCHMARK" .name)
  subcommands := []
  required := []

def runGrammar : Grammar where
  options := [
    option "iterations" "N" .count, option "warmup" "N" .count, option "output" "PATH" .path]
    ++ commonOptions
  letters := [('h', .help)]
  operand := some (operands "WORKLOAD" .workload)
  subcommands := []
  required := ["WORKLOAD"]

def reportGrammar : Grammar where
  options := [
    option "results" "FILE" .path, option "comparisons" "FILE" .path,
    option "output-dir" "DIR" .path] ++ commonOptions
  letters := [('h', .help)]
  operand := none
  subcommands := []
  required := ["results"]

/-! ## Commands from arguments -/

namespace Given

def values? (given : Given) (id : String) : List Value :=
  (given.values.lookup id).getD []

def text? (given : Given) (id : String) : Option String :=
  (given.values? id).findSome? fun
    | .text s => some s
    | _ => .none

def count? (given : Given) (id : String) : Option Nat :=
  (given.values? id).findSome? fun
    | .count n => some n
    | _ => .none

def real? (given : Given) (id : String) : Option Float :=
  (given.values? id).findSome? fun
    | .real x => some x
    | _ => .none

def texts (given : Given) (id : String) : List String :=
  (given.values? id).filterMap fun
    | .text s => some s
    | _ => .none

def workloads (given : Given) (id : String) : List Workload :=
  (given.values? id).filterMap fun
    | .workload w => some w
    | _ => .none

end Given

def checkCommand (given : Given) : Command :=
  .check {
    baseline := given.text? "baseline"
    iterations := given.count? "iterations"
    threshold := given.real? "threshold"
    sqlDir := given.text? "sql-dir"
    resultsDir := given.text? "results-dir"
    benchmarks := given.texts "BENCHMARK" }

def runCommand (given : Given) : Command :=
  .run {
    iterations := given.count? "iterations"
    warmup := given.count? "warmup"
    output := (given.text? "output").getD defaultOutput
    workloads := given.workloads "WORKLOAD" }

def reportCommand (given : Given) : Command :=
  .report {
    results := (given.text? "results").getD ""
    comparisons := given.text? "comparisons"
    outputDir := given.text? "output-dir" }

def readCommand (g : Grammar) (args : List String) : Except UsageError Given := do
  let split ← g.scan false Given.none args
  g.complete (← split.given.settle)

/-- Help on a command that there is, or on the program. -/
def helpOn : List String → UsageError
  | [] => .help
  | [name] => if name ∈ rootGrammar.subcommands then .help else .unknownSubcommand
  | _ => .unknownSubcommand

def finish (outer : Given) (g : Grammar) (command : Given → Command) (args : List String) :
    Except UsageError Invocation := do
  let inner ← readCommand g args
  let outer ← outer.settle
  return {
    debug := outer.has "debug" || inner.has "debug"
    config := inner.text? "config" <|> outer.text? "config"
    command := command inner }

def noSubcommand (outer : Given) : UsageError :=
  match outer.settle with
  | .error e => e
  | .ok outer => if outer.values.isEmpty then .noArguments else .missingSubcommand

def parse (args : List String) : Except UsageError Invocation := do
  let split ← rootGrammar.scan false Given.none args
  match split.subcommand with
  | some ("check", rest) => finish split.given checkGrammar checkCommand rest
  | some ("run", rest) => finish split.given runGrammar runCommand rest
  | some ("report", rest) => finish split.given reportGrammar reportCommand rest
  | some (_, rest) => .error (helpOn rest)
  | none => .error (noSubcommand split.given)

end PerfGate.CommandLine
