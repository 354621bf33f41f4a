import PerfGate.CommandLine.Command
import PerfGate.Commands.Client
import PerfGate.Config

/-!
# Settings of a command

What a command runs with: for each setting the option if it is given, and else the
configuration. A list of benchmarks is given if it is not empty.
-/

set_option autoImplicit false

namespace PerfGate

open CommandLine (CheckOptions RunOptions ReportOptions Workload)

structure CheckSettings where
  baseline : String
  iterations : Nat
  warmup : Nat
  threshold : Float
  /-- Where workload files are; without them timings are simulated. -/
  workloads : Option String
  results : String
  benchmarks : List String
  client : Client

structure RunSettings where
  iterations : Nat
  warmup : Nat
  output : String
  workloads : List Workload
  client : Client

structure ReportSettings where
  results : String
  comparisons : Option String
  output : String

def Config.clientOf (c : Config) : Client :=
  ⟨c.runner.client, c.runner.database⟩

def CheckSettings.of (c : Config) (options : CheckOptions) : CheckSettings where
  baseline := options.baseline.getD c.check.baseline
  iterations := options.iterations.getD c.runner.iterations
  warmup := c.runner.warmup
  threshold := options.threshold.getD c.check.threshold
  workloads := options.sqlDir
  results := options.resultsDir.getD c.check.resultsDir
  benchmarks := if options.benchmarks.isEmpty then c.check.benchmarks else options.benchmarks
  client := c.clientOf

def RunSettings.of (c : Config) (options : RunOptions) : RunSettings where
  iterations := options.iterations.getD c.runner.iterations
  warmup := options.warmup.getD c.runner.warmup
  output := options.output
  workloads := options.workloads
  client := c.clientOf

def ReportSettings.of (c : Config) (options : ReportOptions) : ReportSettings where
  results := options.results
  comparisons := options.comparisons
  output := options.outputDir.getD c.report.outputDir

end PerfGate
