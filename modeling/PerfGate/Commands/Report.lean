import PerfGate.Commands.Check
import PerfGate.Report.Refresh
import PerfGate.Results.Pairing

/-!
# Reporting

Builds the report on full and incremental refreshes from recorded rows. Nothing is written
unless the whole report can be built.
-/

set_option autoImplicit false

namespace PerfGate.ReportSettings

def loadResults (s : ReportSettings) : Attempt (List ResultRow) :=
  Job.within .results (Document.load s.results ResultRow.parseList)

def loadComparisons (s : ReportSettings) (results : List ResultRow) :
    Attempt (List ComparisonRow) :=
  match s.comparisons with
  | some path => Job.within .comparisons (Document.load path ComparisonRow.parseList)
  | none => pure (pairComparisons results)

def publish (s : ReportSettings) (results : List ResultRow) (comparisons : List ComparisonRow) :
    Job Nat := do
  say (.found results.length comparisons.length)
  let generated ← Dialogue.request .now
  let text ← ExceptT.mk (pure (Report.refreshReport results comparisons generated))
  let path := Path.joined s.output (Report.refreshReportName generated)
  Document.save path text
  say (.reportSaved path)
  say (.report text)
  return 0

def execute (s : ReportSettings) : Attempt Nat := do
  let results ← s.loadResults
  if results.isEmpty then throw (.fault .noResults)
  let comparisons ← s.loadComparisons results
  Job.within .fault (s.publish results comparisons)

end PerfGate.ReportSettings
