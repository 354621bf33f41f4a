import PerfGate.Calendar
import PerfGate.Measurement.Summary
import PerfGate.Report.Table

/-!
# The validation report

One block of figures for each summary, in the order of the run.
-/

set_option autoImplicit false

namespace PerfGate.Report

def figure (name : String) (x : Float) : String :=
  "- **" ++ name ++ "**: " ++ Decimal.fixed 2 x ++ "ms"

def summaryBlock (s : Summary) : List String := [
  "### " ++ s.name ++ " (" ++ s.implementation ++ ")",
  "",
  figure "Mean" s.mean,
  figure "Median" s.median,
  figure "Std Dev" s.deviation,
  figure "Min" s.least,
  figure "Max" s.greatest,
  "- **Sample Size**: " ++ toString s.n,
  ""]

def validationHeader (generated : Instant) : List String := [
  "# pg_tviews Performance Validation Report",
  "",
  "Generated: " ++ generated.preciseText,
  "",
  "## Benchmark Results",
  ""]

def validationReport (summaries : List Summary) (generated : Instant) : String :=
  textOfLines (validationHeader generated ++ summaries.flatMap summaryBlock)

end PerfGate.Report
