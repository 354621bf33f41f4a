import PerfGate.Measurement.Statistics
import PerfGate.Results.Category
import PerfGate.Results.Grouping

/-!
# Findings

Mean improvements over all comparisons, over each operation category and over each data
scale. Means add from left to right starting at zero. A category or scale without rows is
left out.
-/

set_option autoImplicit false

namespace PerfGate

structure ImprovementSummary where
  totalTests : Nat
  average : Float
  best : Float
  minimum : Float

structure CategoryFinding where
  category : OperationCategory
  count : Nat
  average : Float

structure ScaleFinding where
  scale : DataScale
  count : Nat
  average : Float
  saved : Float

def ratioSum (rows : List ComparisonRow) : Float :=
  rows.foldl (fun sum row => sum + row.ratio) 0.0

def averageRatio (rows : List ComparisonRow) : Option Float :=
  if rows.isEmpty then none else some (ratioSum rows / Float.ofNat rows.length)

def infinity : Float := Float.ofBits 0x7ff0000000000000

/-- The greatest ratio; of equal ratios the last, and what is not a number is passed over. -/
def bestRatio (rows : List ComparisonRow) : Float :=
  rows.foldl (fun best row => if best ≤ row.ratio then row.ratio else best) (-infinity)

def leastRatio (rows : List ComparisonRow) : Float :=
  rows.foldl (fun least row => if row.ratio ≤ least then row.ratio else least) infinity

def improvementSummary (totalTests : Nat) (rows : List ComparisonRow) :
    Option ImprovementSummary :=
  (averageRatio rows).map fun average =>
    ⟨totalTests, average, bestRatio rows, leastRatio rows⟩

def categoryFindings (rows : List ComparisonRow) : List CategoryFinding :=
  OperationCategory.all.filterMap fun category =>
    let matching := rows.filter fun row => category.contains row.operation
    (averageRatio matching).map fun average => ⟨category, matching.length, average⟩

def scaleFindings (rows : List ComparisonRow) : List ScaleFinding :=
  DataScale.all.filterMap fun scale =>
    let matching := rows.filter fun row => row.scale = scale.text
    (averageRatio matching).map fun average =>
      ⟨scale, matching.length, average, Statistics.sum (matching.map (·.saved))⟩

structure Aggregate where
  summary : Option ImprovementSummary
  comparisons : List ComparisonRow
  scenarios : Groups ResultRow
  scaling : Groups ComparisonRow
  categories : List CategoryFinding
  scales : List ScaleFinding

/-- Fails on a comparison of an unknown scale and on nothing else. -/
def aggregate (results : List ResultRow) (comparisons : List ComparisonRow) :
    Except Fault Aggregate :=
  (scalingGroups comparisons).map fun scaling =>
    { summary := improvementSummary results.length comparisons
      comparisons := comparisons
      scenarios := scenarioGroups results
      scaling := scaling
      categories := categoryFindings comparisons
      scales := scaleFindings comparisons }

end PerfGate
