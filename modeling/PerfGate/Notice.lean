import PerfGate.Report.Table
import PerfGate.Verdict.Assessment

/-!
# Notices

What a command tells while it works, as data, and the text of each. A notice of more than one
line is told at once.
-/

set_option autoImplicit false

namespace PerfGate

inductive Notice where
  | checkBegins
  | noBaseline (path : String)
  | baseline (version date cpu : String)
  | running (benchmark : String) (iterations : Nat)
  | simulating (benchmark : String) (iterations : Nat)
  | compared (comparison : Comparison)
  | resultsSaved (path : String)
  | assessed (assessment : Assessment)
  | workload (path implementation : String)
  | measured (mean median : Float)
  | workloadFailed (path : String) (cause : Fault)
  | found (results comparisons : Nat)
  | documentSaved (path : String)
  | reportSaved (path : String)
  | report (text : String)

namespace Notice

def milliseconds (x : Float) : String :=
  Decimal.fixed 2 x ++ "ms"

def spread (mean deviation : Float) : String :=
  milliseconds mean ++ " ± " ++ milliseconds deviation

def lines : Notice → List String
  | checkBegins => ["=== pg_tviews Performance Regression Testing ===", ""]
  | noBaseline path => [
      "❌ " ++ (Fault.baselineNotFound path).message,
      "Run this command from the project root directory or pass --baseline"]
  | baseline version date cpu => [
      "Baseline version: " ++ version, "Baseline date: " ++ date, "Hardware: " ++ cpu, ""]
  | running benchmark iterations =>
    ["Running benchmark: " ++ benchmark ++ " (" ++ toString iterations ++ " iterations)..."]
  | simulating benchmark iterations =>
    ["Simulating benchmark: " ++ benchmark ++ " (" ++ toString iterations ++ " iterations)..."]
  | compared c => [
      "",
      c.message,
      "  Baseline: " ++ spread c.baselineMean c.baselineDeviation,
      "  Current:  " ++ spread c.currentMean c.currentDeviation]
  | resultsSaved path => ["", "📊 Results saved to: " ++ path]
  | assessed _ => [""]
  | workload path implementation => ["Running " ++ path ++ " (" ++ implementation ++ ")..."]
  | measured mean median =>
    ["  Mean: " ++ milliseconds mean ++ ", Median: " ++ milliseconds median]
  | workloadFailed path cause => ["  ✗ " ++ path ++ " failed: " ++ cause.message]
  | found results comparisons => [
      "Found " ++ toString results ++ " results and " ++ toString comparisons ++ " comparisons"]
  | documentSaved path => ["", "Report saved to: " ++ path]
  | reportSaved path => ["Report saved to: " ++ path]
  | report text => ["", Assessment.rule, text, Assessment.rule]

/-- The report of an assessment ends its own lines. -/
def text : Notice → String
  | assessed a => Report.textOfLines (assessed a).lines ++ a.report
  | notice => Report.textOfLines notice.lines

end Notice

end PerfGate
