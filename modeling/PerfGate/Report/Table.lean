/-!
# Tables in Markdown

A table has a row of headings, a row of dashes as wide as the headings, and rows of cells.
Cells are written as they are.
-/

set_option autoImplicit false

namespace PerfGate.Report

structure Table where
  headings : List String
  rows : List (List String)

def tableRow (cells : List String) : String :=
  "| " ++ String.intercalate " | " cells ++ " |"

def dashes (heading : String) : String :=
  String.ofList (List.replicate (heading.length + 2) '-')

def dashRow (headings : List String) : String :=
  "|" ++ String.intercalate "|" (headings.map dashes) ++ "|"

def Table.lines (t : Table) : List String :=
  tableRow t.headings :: dashRow t.headings :: (t.rows.map tableRow ++ [""])

/-- Every line ends with a line break. -/
def textOfLines (lines : List String) : String :=
  String.join (lines.map (· ++ "\n"))

end PerfGate.Report
