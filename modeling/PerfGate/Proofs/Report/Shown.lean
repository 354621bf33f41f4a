import PerfGate.Proofs.Report.Outline

/-!
# What the lines of a report show

A line of a table carries the texts of its cells in their order, each between blanks and with bars
around it. So each result has one line with its own texts, under the heading of its scenario and
scale, and each comparison has two: one in the table of all comparisons and one under the heading
of its test and operation.
-/

set_option autoImplicit false

namespace PerfGate.Outline

open Lines Groups Report

/-! ## Lines of tables -/

def barred (cells : List String) : String :=
  "|" ++ String.join (cells.map fun cell => " " ++ cell ++ " |")

def ruled (columns : List String) : String :=
  "|" ++ String.join (columns.map fun column =>
    String.ofList (List.replicate (column.length + 2) '-') ++ "|")

/-- What stands between two parts closes the first and opens the second. -/
theorem intercalate_closed (opening closing : String) {parts : List String} (hne : parts ≠ []) :
    opening ++ String.intercalate (closing ++ opening) parts ++ closing =
      String.join (parts.map fun part => opening ++ part ++ closing) := by
  induction parts with
  | nil => exact absurd rfl hne
  | cons part rest ih =>
    rw [List.map_cons, String.join_cons]
    rcases eq_or_ne rest [] with rfl | hrest
    · simp
    · rw [← ih hrest, String.intercalate_cons_of_ne_nil hrest]
      simp only [String.append_assoc]

section
variable {cells columns : List String}

theorem tableRow_eq_barred (hne : cells ≠ []) : tableRow cells = barred cells := by
  rw [barred, ← intercalate_closed " " " |" hne, tableRow, ← String.append_assoc,
    ← String.append_assoc]
  rfl

theorem dashRow_eq_ruled (hne : columns ≠ []) : dashRow columns = ruled columns := by
  have hdashes : columns.map dashes ≠ [] := by simpa using hne
  have hclosed := intercalate_closed "" "|" hdashes
  rw [String.empty_append, String.append_empty, List.map_map] at hclosed
  rw [ruled, dashRow, String.append_assoc, hclosed]
  simp [Function.comp_def, dashes]

end

/-! ## Texts of cells -/

/-- What is shown of notes: all of them, or their first fifty characters and dots. -/
inductive Noted : Option String → String → Prop where
  | absent : Noted none ""
  | whole {notes : String} (h : notes.length ≤ 50) : Noted (some notes) notes
  | cut {kept rest : String} (h : kept.length = 50) (hrest : rest ≠ "") :
      Noted (some (kept ++ rest)) (kept ++ "...")

theorem noted (notes : Option String) : Noted notes (notesCell notes) := by
  cases notes with
  | none => exact .absent
  | some notes =>
    by_cases hlong : notesLimit < notes.toList.length
    · have hkept : (String.ofList (notes.toList.take notesLimit)).length = 50 := by
        rw [String.length_ofList, List.length_take, Nat.min_eq_left hlong.le, notesLimit]
      have hrest : String.ofList (notes.toList.drop notesLimit) ≠ "" := by
        intro h
        have hempty : notes.toList.drop notesLimit = [] := by simpa using h
        exact absurd (List.drop_eq_nil_iff.mp hempty) (Nat.not_le.mpr hlong)
      have hwhole : notes = String.ofList (notes.toList.take notesLimit) ++
          String.ofList (notes.toList.drop notesLimit) := by
        rw [← String.ofList_append, List.take_append_drop, String.ofList_toList]
      rw [notesCell, if_pos hlong]
      nth_rewrite 1 [hwhole]
      exact .cut hkept hrest
    · rw [notesCell, if_neg hlong]
      exact .whole (Nat.not_lt.mp hlong)

def ResultTexts (row : ResultRow) (cells : List String) : Prop :=
  ∃ notes, Noted row.notes notes ∧
    cells = [row.testName, row.operation, Text.groupThousands row.rowsAffected,
      Decimal.fixed 3 row.time, Decimal.fixed 3 row.timePerRow, notes]

def ratioText (ratio : Float) : String := "**" ++ Decimal.fixed 2 ratio ++ "×**"

def ComparisonTexts (row : ComparisonRow) (cells : List String) : Prop :=
  cells = [row.scenario, row.testName, row.scale, Text.erase row.operation "_incremental",
    Text.groupThousands row.rowsAffected, Decimal.fixed 2 row.baseline,
    Decimal.fixed 2 row.incremental, ratioText row.ratio, Decimal.fixed 2 row.saved]

def ScalingTexts (row : ComparisonRow) (cells : List String) : Prop :=
  cells = [row.scale, Text.groupThousands row.rowsAffected, Decimal.fixed 2 row.baseline,
    Decimal.fixed 2 row.incremental, ratioText row.ratio]

theorem bold_times (ratio : Float) : bold (times ratio) = ratioText ratio := by
  rw [bold, times, ratioText, String.append_assoc, String.append_assoc, String.append_assoc]
  rfl

theorem resultCells_texts (row : ResultRow) : ResultTexts row (resultCells row) :=
  ⟨_, noted row.notes, rfl⟩

theorem comparisonCells_texts (row : ComparisonRow) :
    ComparisonTexts row (comparisonCells row) := by
  rw [ComparisonTexts, comparisonCells, bold_times, operationCell]

theorem scalingCells_texts (row : ComparisonRow) : ScalingTexts row (scalingCells row) := by
  rw [ScalingTexts, scalingCells, bold_times]

/-! ## Tables -/

/-- Under the heading there is one table with these columns, and each row has one line of it, which
carries the texts of the row. -/
structure Block.Tabulates {α : Type} (Texts : α → List String → Prop) (b : Block)
    (heading : String) (columns : List String) (rows : List α) : Prop where
  heading : b.heading = heading
  table : ∃ cells, List.Forall₂ Texts rows cells ∧
    b.tableLines = barred columns :: ruled columns :: cells.map barred

theorem Block.Shows.tabulates {α : Type} {Texts : α → List String → Prop} {b : Block}
    {heading : String} {columns : List String} {rows : List α} {cells : α → List String}
    (h : b.Shows heading columns (rows.map fun row => tableRow (cells row)))
    (htexts : ∀ row, Texts row (cells row)) (hcolumns : columns ≠ [])
    (hcells : ∀ row, cells row ≠ []) : b.Tabulates Texts heading columns rows := by
  refine ⟨h.heading, rows.map cells, ?_, ?_⟩
  · exact List.forall₂_map_right_iff.mpr (List.forall₂_same.mpr fun row _ => htexts row)
  · rw [h.table, tableRow_eq_barred hcolumns, dashRow_eq_ruled hcolumns, List.map_map]
    simp only [Function.comp_def, tableRow_eq_barred (hcells _)]

structure Sheet.Shown (results : List ResultRow) (comparisons : List ComparisonRow)
    (s : Sheet) : Prop where
  figures : Figures results comparisons s.figures
  comparison : s.comparison.Tabulates ComparisonTexts
    "## Performance Comparison: Incremental vs Full Refresh"
    ["Scenario", "Test", "Scale", "Operation", "Rows", "Full Refresh (ms)", "Incremental (ms)",
      "Improvement", "Time Saved (ms)"] comparisons
  scenarios : ∃ groups, Partition resultKey results groups ∧
    List.Forall₂ (fun (b : Block) (group : GroupKey × List ResultRow) =>
      b.Tabulates ResultTexts
        ("### " ++ Text.titleCase group.1.first ++ " - " ++ Text.titleCase group.1.second ++
          " Scale")
        ["Test Name", "Operation", "Rows", "Time (ms)", "ms/row", "Notes"] group.2)
      s.scenarios groups
  scaling : ∃ groups, Scaling.Complete comparisons groups ∧
    List.Forall₂ (fun (b : Block) (group : GroupKey × List ComparisonRow) =>
      b.Tabulates ScalingTexts
        ("#### " ++ titleOfName group.1.first ++ " - " ++ titleOfName group.1.second)
        ["Data Scale", "Rows Affected", "Full Refresh (ms)", "Incremental (ms)", "Improvement"]
        group.2)
      s.scaling groups

section
variable {results : List ResultRow} {comparisons : List ComparisonRow} {s : Sheet}

theorem Sheet.Complete.shown (h : s.Complete results comparisons) :
    s.Shown results comparisons where
  figures := h.figures
  comparison := h.comparison.tabulates comparisonCells_texts (by simp)
    fun row => by simp [comparisonCells]
  scenarios := by
    obtain ⟨groups, hgroups, hblocks⟩ := h.scenarios
    exact ⟨groups, hgroups, hblocks.imp fun _ _ hb => hb.tabulates resultCells_texts (by simp)
      fun row => by simp [resultCells]⟩
  scaling := by
    obtain ⟨groups, hgroups, hblocks⟩ := h.scaling
    exact ⟨groups, hgroups, hblocks.imp fun _ _ hb => hb.tabulates scalingCells_texts (by simp)
      fun row => by simp [scalingCells]⟩

/-- A report whose texts have no line breaks is read back as its sheet: every comparison has its
line in the table of all comparisons and another one in the table of its test and operation, and
every result has its line in the table of its scenario and scale. -/
theorem report_shows_rows {generated : Instant} {text : String}
    (hresults : ∀ row ∈ results, UnbrokenResult row)
    (hcomparisons : ∀ row ∈ comparisons, UnbrokenComparison row)
    (hbuilt : refreshReport results comparisons generated = .ok text) :
    ∃ sheet : Sheet, outline (linesOf text) = sheet.blocks ∧
      text = textOfLines (sheet.blocks.flatMap Block.lines) ∧
      sheet.Shown results comparisons ∧
      ((outline (linesOf text)).flatMap Block.dataLines).length =
        results.length + 2 * comparisons.length := by
  obtain ⟨-, groups, hgroups, rfl⟩ := refreshReport_eq_ok hbuilt
  have hunbroken := sheet_unbroken hgroups hresults hcomparisons generated
  have hlines : ∀ line ∈ (sheetOf (gathered results comparisons groups) generated).blocks.flatMap
      Block.lines, OneLine line := fun line hline => by
    obtain ⟨b, hb, hmem⟩ := List.mem_flatMap.mp hline
    exact hunbroken b hb line hmem
  have houtline : outline (linesOf (textOfLines
      (Report.lines (gathered results comparisons groups) generated))) =
        (sheetOf (gathered results comparisons groups) generated).blocks := by
    rw [lines_eq, linesOf_textOfLines hlines, outline_blocks (sheet_sound _ _)]
  refine ⟨_, houtline, by rw [lines_eq], (sheet_complete results hgroups generated).shown, ?_⟩
  rw [houtline]
  exact dataLines_length hgroups generated

end

def exampleResult : ResultRow where
  scenario := "# shop | sales"
  testName := "| order | update |"
  scale := "small"
  operation := "single_row_incremental"
  rowsAffected := 3
  cascadeDepth := none
  time := 2.5
  notes := some "## Recommendations"

def exampleComparison (scale : String) : ComparisonRow :=
  ⟨"## shop", "order_update", scale, "a|b_incremental", 3, 5.0, 2.5, 2.0, 2.5⟩

/-- Two results and two comparisons of one test make six lines of data. -/
theorem report_shows_rows_marked :
    ∃ (text : String) (sheet : Sheet),
      refreshReport [exampleResult, exampleResult]
        [exampleComparison "large", exampleComparison "small"] ⟨0, 0⟩ = .ok text ∧
      outline (linesOf text) = sheet.blocks ∧
      sheet.comparison.dataLines =
        ["| ## shop | order_update | large | a|b | 3 | 5.00 | 2.50 | **2.00×** | 2.50 |",
          "| ## shop | order_update | small | a|b | 3 | 5.00 | 2.50 | **2.00×** | 2.50 |"] ∧
      ((outline (linesOf text)).flatMap Block.dataLines).length = 6 := by
  obtain ⟨text, hbuilt⟩ : ∃ text, refreshReport [exampleResult, exampleResult]
      [exampleComparison "large", exampleComparison "small"] ⟨0, 0⟩ = .ok text := ⟨_, rfl⟩
  have hresults : ∀ row ∈ [exampleResult, exampleResult], UnbrokenResult row := by
    simp only [UnbrokenResult]
    decide
  have hcomparisons : ∀ row ∈ [exampleComparison "large", exampleComparison "small"],
      UnbrokenComparison row := by
    simp only [UnbrokenComparison]
    decide
  obtain ⟨sheet, houtline, -, hshown, hlength⟩ := report_shows_rows hresults hcomparisons hbuilt
  obtain ⟨cells, htexts, htable⟩ := hshown.comparison.table
  cases htexts with
  | cons hlarge htexts =>
    cases htexts with
    | cons hsmall htexts =>
      cases htexts with
      | nil =>
        refine ⟨text, sheet, hbuilt, houtline, ?_, hlength⟩
        rw [Block.dataLines, htable, hlarge, hsmall]
        decide +kernel

end PerfGate.Outline
