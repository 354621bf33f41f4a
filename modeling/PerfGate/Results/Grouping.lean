import PerfGate.Results.Row
import PerfGate.Results.Scale

/-!
# Grouping

Rows are grouped by a key of two names. The groups come in ascending order of their keys,
the rows of a group in the order in which they were given. Comparisons grouped for the
scaling analysis are then ordered by their data scale, which every row has to have.
-/

set_option autoImplicit false

namespace PerfGate

structure GroupKey where
  first : String
  second : String
  deriving DecidableEq, Repr

def GroupKey.before (a b : GroupKey) : Bool :=
  decide (a.first < b.first) || (decide (a.first = b.first) && decide (a.second < b.second))

abbrev Groups (α : Type) := List (GroupKey × List α)

namespace Groups

def add {α : Type} (key : GroupKey) (row : α) : Groups α → Groups α
  | [] => [(key, [row])]
  | (k, rows) :: rest =>
    if key = k then (k, rows ++ [row]) :: rest
    else if key.before k then (key, [row]) :: (k, rows) :: rest
    else (k, rows) :: add key row rest

def of {α : Type} (key : α → GroupKey) (rows : List α) : Groups α :=
  rows.foldl (fun groups row => groups.add (key row) row) []

end Groups

def scenarioGroups (rows : List ResultRow) : Groups ResultRow :=
  Groups.of (fun row => ⟨row.scenario, row.scale⟩) rows

/-- Every row with its scale; the first row of an unknown scale is the fault. -/
def withScales : List ComparisonRow → Except Fault (List (DataScale × ComparisonRow))
  | [] => .ok []
  | row :: rest => do
    let scale ← DataScale.parse row.scale
    let ranked ← withScales rest
    return (scale, row) :: ranked

def byScale (rows : List (DataScale × ComparisonRow)) : List ComparisonRow :=
  (rows.mergeSort fun a b => a.1.rank ≤ b.1.rank).map (·.2)

/-- Comparisons by test and operation, each group from small to large. -/
def scalingGroups (rows : List ComparisonRow) : Except Fault (Groups ComparisonRow) := do
  let ranked ← withScales rows
  let groups := Groups.of (fun row => ⟨row.2.testName, row.2.operation⟩) ranked
  return groups.map fun (key, rows) => (key, byScale rows)

end PerfGate
