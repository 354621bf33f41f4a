import PerfGate.Calendar
import PerfGate.Report.Table
import PerfGate.Results.Findings
import PerfGate.Text.Thousands
import PerfGate.Text.TitleCase

/-!
# The report on incremental and full refreshes

A document of fixed sections over the aggregated results: the improvement figures, one table
of all comparisons, a table for each scenario and scale, a table for each test and operation
from small to large, the findings, and recommendations that never depend on the data. The
document is a list of lines; texts of the rows are put into the cells as they are.
-/

set_option autoImplicit false

namespace PerfGate.Report

def times (x : Float) : String :=
  Decimal.fixed 2 x ++ "×"

def bold (s : String) : String :=
  "**" ++ s ++ "**"

/-! ## Sections -/

def summaryLines : Option ImprovementSummary → List String
  | none => ["## Executive Summary", ""]
  | some s => [
      "## Executive Summary",
      "",
      "**Total Tests Run:** " ++ toString s.totalTests,
      "**Average Improvement:** " ++ times s.average ++ " faster",
      "**Best Improvement:** " ++ times s.best ++ " faster",
      "**Minimum Improvement:** " ++ times s.minimum ++ " faster",
      ""]

def operationCell (row : ComparisonRow) : String :=
  Text.erase row.operation "_incremental"

def comparisonCells (row : ComparisonRow) : List String := [
  row.scenario,
  row.testName,
  row.scale,
  operationCell row,
  Text.groupThousands row.rowsAffected,
  Decimal.fixed 2 row.baseline,
  Decimal.fixed 2 row.incremental,
  bold (times row.ratio),
  Decimal.fixed 2 row.saved]

def comparisonTable (rows : List ComparisonRow) : Table where
  headings := ["Scenario", "Test", "Scale", "Operation", "Rows", "Full Refresh (ms)",
    "Incremental (ms)", "Improvement", "Time Saved (ms)"]
  rows := rows.map comparisonCells

def comparisonLines (rows : List ComparisonRow) : List String :=
  ["## Performance Comparison: Incremental vs Full Refresh", ""]
    ++ (comparisonTable rows).lines

def notesLimit : Nat := 50

/-- At most fifty characters; what is cut off is replaced by dots. -/
def notesCell : Option String → String
  | none => ""
  | some notes =>
    if notesLimit < notes.toList.length then
      String.ofList (notes.toList.take notesLimit) ++ "..."
    else notes

def resultCells (row : ResultRow) : List String := [
  row.testName,
  row.operation,
  Text.groupThousands row.rowsAffected,
  Decimal.fixed 3 row.time,
  Decimal.fixed 3 row.timePerRow,
  notesCell row.notes]

def scenarioTable (rows : List ResultRow) : Table where
  headings := ["Test Name", "Operation", "Rows", "Time (ms)", "ms/row", "Notes"]
  rows := rows.map resultCells

def scenarioHeading (key : GroupKey) : String :=
  "### " ++ Text.titleCase key.first ++ " - " ++ Text.titleCase key.second ++ " Scale"

def scenarioLines (groups : Groups ResultRow) : List String :=
  ["## Detailed Results by Scenario", ""]
    ++ groups.flatMap fun (key, rows) =>
      scenarioHeading key :: "" :: (scenarioTable rows).lines

def scalingCells (row : ComparisonRow) : List String := [
  row.scale,
  Text.groupThousands row.rowsAffected,
  Decimal.fixed 2 row.baseline,
  Decimal.fixed 2 row.incremental,
  bold (times row.ratio)]

def scalingTable (rows : List ComparisonRow) : Table where
  headings := ["Data Scale", "Rows Affected", "Full Refresh (ms)", "Incremental (ms)",
    "Improvement"]
  rows := rows.map scalingCells

def titleOfName (name : String) : String :=
  Text.titleCase (name.map fun c => if c = '_' then ' ' else c)

def scalingHeading (key : GroupKey) : String :=
  "#### " ++ titleOfName key.first ++ " - " ++ titleOfName key.second

def scalingLines (groups : Groups ComparisonRow) : List String :=
  ["## Scaling Analysis", "", "### How Performance Scales with Data Size", ""]
    ++ groups.flatMap fun (key, rows) =>
      scalingHeading key :: "" :: (scalingTable rows).lines

def categoryLine (finding : CategoryFinding) : String :=
  "- **" ++ finding.category.label ++ ":** Average " ++ times finding.average ++ " improvement"

def scaleLine (finding : ScaleFinding) : String :=
  "- **" ++ Text.titleCase finding.scale.text ++ " Scale:** Average " ++ times finding.average
    ++ " improvement, " ++ Decimal.fixed 2 finding.saved ++ "ms total time saved"

def findingLines (categories : List CategoryFinding) (scales : List ScaleFinding) :
    List String :=
  ["## Key Findings", ""] ++ categories.map categoryLine ++ [""] ++ scales.map scaleLine ++ [""]

def recommendationLines : List String := [
  "## Recommendations",
  "",
  "Based on benchmark results:",
  "",
  "✅ **Use pg_tviews for:**",
  "- Single row updates (significant improvement even on small datasets)",
  "- Medium-size bulk operations (100-1000 rows)",
  "- Frequently updated views with cascade dependencies",
  "- Real-time applications requiring immediate consistency",
  "",
  "⚠️ **Consider alternatives when:**",
  "- Full table refreshes are infrequent (hourly/daily)",
  "- Batch updates affect >50% of rows",
  "- Write throughput >10K rows/second sustained"]

/-! ## The document -/

def titleLines (generated : Instant) : List String := [
  "# pg_tviews Comprehensive Benchmark Report",
  "",
  "**Generated:** " ++ generated.dateTimeText,
  "",
  "---",
  ""]

def lines (data : Aggregate) (generated : Instant) : List String :=
  titleLines generated
    ++ summaryLines data.summary
    ++ comparisonLines data.comparisons
    ++ scenarioLines data.scenarios
    ++ scalingLines data.scaling
    ++ findingLines data.categories data.scales
    ++ recommendationLines

def refreshReport (results : List ResultRow) (comparisons : List ComparisonRow)
    (generated : Instant) : Except Fault String :=
  (aggregate results comparisons).map fun data => textOfLines (lines data generated)

def refreshReportName (generated : Instant) : String :=
  "BENCHMARK_REPORT_" ++ generated.fileStamp ++ ".md"

end PerfGate.Report
