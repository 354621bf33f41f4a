import PerfGate.Proofs.Report.Outline

/-!
# Rows and cells of tables

Texts are put into the cells of a table as they are. A bar in a text divides its cell, and a line
break in a text breaks the row: a row has as many cells more than its table has columns as there are
bars in its texts, and takes up as many lines more than one as there are breaks. Only the rows of
the scaling analysis show no text that is free.
-/

set_option autoImplicit false

namespace PerfGate.Cells

open Report Outline

/-! ## Marks in texts -/

def marks (isMark : Char → Char → Bool) : Char → List Char → Nat
  | _, [] => 0
  | before, c :: rest => (if isMark before c then 1 else 0) + marks isMark c rest

/-- A line ends with a line feed, with a carriage return, or with both. -/
def endsLine (before c : Char) : Bool := c = '\r' ∨ c = '\n' ∧ before ≠ '\r'

/-- A bar divides cells, except right after a backslash. -/
def divides (before c : Char) : Bool := c = '|' ∧ before ≠ '\\'

/-- The marks in a text that comes after a blank, as every text in a row does. -/
def marksIn (isMark : Char → Char → Bool) (s : String) : Nat := marks isMark ' ' s.toList

def lineEnds : String → Nat := marksIn endsLine

def bars : String → Nat := marksIn divides

def lineCount (line : String) : Nat := lineEnds line + 1

def cellCount (line : String) : Nat := bars line - 1

section
variable {isMark : Char → Char → Bool} {before : Char} {s t : List Char}

theorem marks_append_blank (hblank : ∀ b, isMark b ' ' = false) :
    marks isMark before (s ++ ' ' :: t) = marks isMark before s + marks isMark ' ' t := by
  induction s generalizing before with
  | nil => simp [marks, hblank]
  | cons c rest ih => rw [List.cons_append, marks, marks, ih, Nat.add_assoc]

theorem marks_eq_zero (h : ∀ c ∈ s, ∀ b, isMark b c = false) : marks isMark before s = 0 := by
  induction s generalizing before with
  | nil => rfl
  | cons c rest ih =>
    obtain ⟨hc, hrest⟩ := List.forall_mem_cons.mp h
    rw [marks, hc, ih hrest]
    rfl

/-- A text without a mark has none of the characters that can be one: the first of them would be. -/
theorem lineEnds_eq_zero_iff {s : String} :
    lineEnds s = 0 ↔ ∀ c ∈ s.toList, c ≠ '\n' ∧ c ≠ '\r' := by
  have hmarks (before : Char) (hbefore : before ≠ '\r') (cs : List Char) :
      marks endsLine before cs = 0 → ∀ c ∈ cs, c ≠ '\n' ∧ c ≠ '\r' := by
    induction cs generalizing before with
    | nil => simp
    | cons c rest ih =>
      intro h
      rw [marks, Nat.add_eq_zero_iff] at h
      have hc : c ≠ '\n' ∧ c ≠ '\r' := by
        simpa [endsLine, hbefore, and_comm] using h.1
      exact List.forall_mem_cons.mpr ⟨hc, ih c hc.2 h.2⟩
  constructor
  · exact hmarks ' ' (by decide) s.toList
  · intro h
    refine marks_eq_zero fun c hc b => ?_
    simp [endsLine, h c hc]

end

/-! ## Rows -/

def setOff (cell : String) : List Char := ' ' :: (cell.toList ++ [' ', '|'])

section
variable {isMark : Char → Char → Bool} {cells : List String}

theorem toList_tableRow (hne : cells ≠ []) :
    (tableRow cells).toList = '|' :: cells.flatMap setOff := by
  have hcells : ' ' :: ((String.intercalate " | " cells).toList ++ [' ', '|']) =
      cells.flatMap setOff := by
    induction cells with
    | nil => exact absurd rfl hne
    | cons cell rest ih =>
      rcases eq_or_ne rest [] with rfl | hrest
      · simp [setOff]
      · rw [List.flatMap_cons, ← ih hrest, String.intercalate_cons_of_ne_nil hrest]
        simp [setOff, String.toList_append]
  rw [← hcells, tableRow]
  simp [String.toList_append]

theorem marks_setOff (hblank : ∀ b, isMark b ' ' = false) (cell : String) (rest : List Char) :
    marks isMark '|' (setOff cell ++ rest) =
      marksIn isMark cell + (if isMark ' ' '|' then 1 else 0) + marks isMark '|' rest := by
  rw [setOff, List.cons_append, marks, hblank, List.append_assoc, List.cons_append,
    marks_append_blank hblank, List.cons_append, marks, List.nil_append, marksIn]
  simp [Nat.add_assoc]

theorem marks_flatMap (hblank : ∀ b, isMark b ' ' = false) (cells : List String) :
    marks isMark '|' (cells.flatMap setOff) =
      (cells.map (marksIn isMark)).sum + cells.length * (if isMark ' ' '|' then 1 else 0) := by
  induction cells with
  | nil => simp [marks]
  | cons cell rest ih =>
    rw [List.flatMap_cons, marks_setOff hblank, ih, List.map_cons, List.sum_cons,
      List.length_cons, Nat.succ_mul]
    omega

/-- The marks of a row are those of its cells, and its bars if they are marks. -/
theorem marksIn_tableRow (hblank : ∀ b, isMark b ' ' = false) (hne : cells ≠ []) :
    marksIn isMark (tableRow cells) =
      (cells.map (marksIn isMark)).sum +
        (cells.length + 1) * (if isMark ' ' '|' then 1 else 0) := by
  rw [marksIn, toList_tableRow hne, marks, marks_flatMap hblank, Nat.succ_mul]
  omega

theorem lineCount_tableRow (hne : cells ≠ []) :
    lineCount (tableRow cells) = (cells.map lineEnds).sum + 1 := by
  rw [lineCount, lineEnds, marksIn_tableRow (by simp [endsLine]) hne]
  rfl

theorem cellCount_tableRow (hne : cells ≠ []) :
    cellCount (tableRow cells) = cells.length + (cells.map bars).sum := by
  rw [cellCount, bars, marksIn_tableRow (by simp [divides]) hne,
    show divides ' ' '|' = true from rfl, if_pos rfl]
  omega

end

/-! ## Rows and their texts -/

structure Counted (columns : Nat) (texts : List String) (line : String) : Prop where
  lines : lineCount line = 1 + (texts.map lineEnds).sum
  cells : cellCount line = columns + (texts.map bars).sum
  oneLine_iff : lineCount line = 1 ↔ ∀ s ∈ texts, ∀ c ∈ s.toList, c ≠ '\n' ∧ c ≠ '\r'
  cells_iff : cellCount line = columns ↔ ∀ s ∈ texts, bars s = 0

def Unmarked (s : String) : Prop := ∀ c ∈ s.toList, c ≠ '\n' ∧ c ≠ '\r' ∧ c ≠ '|'

section
variable {s t : String}

theorem Unmarked.lineEnds (h : Unmarked s) : lineEnds s = 0 :=
  lineEnds_eq_zero_iff.mpr fun c hc => ⟨(h c hc).1, (h c hc).2.1⟩

theorem Unmarked.bars (h : Unmarked s) : bars s = 0 :=
  marks_eq_zero fun c hc b => by simp [divides, (h c hc).2.2]

theorem Unmarked.append (hs : Unmarked s) (ht : Unmarked t) : Unmarked (s ++ t) := by
  intro c hc
  rw [String.toList_append] at hc
  exact (List.mem_append.mp hc).elim (hs c) (ht c)

theorem Unmarked.erase (h : Unmarked s) (pattern : String) : Unmarked (Text.erase s pattern) :=
  fun c hc => h c (Erasure.mem_of_mem_erase hc)

theorem unmarked_notesCell {notes : Option String} (h : ∀ s ∈ notes.toList, Unmarked s) :
    Unmarked (notesCell notes) := by
  intro c hc
  rcases mem_notesCell hc with rfl | ⟨s, hs, hc⟩
  · decide
  · exact h s hs c hc

theorem unmarked_of_figures (h : ∀ c ∈ s.toList, Figures.isFigure c = true) : Unmarked s := by
  intro c hc
  have hfigure := h c hc
  refine ⟨?_, ?_, ?_⟩ <;> rintro rfl <;> exact absurd hfigure (by decide)

theorem unmarked_fixed (places : Nat) (x : Float) : Unmarked (Decimal.fixed places x) :=
  unmarked_of_figures fun _ => Figures.of_mem_fixed

theorem unmarked_groupThousands (n : Int) : Unmarked (Text.groupThousands n) :=
  unmarked_of_figures fun _ => Figures.of_mem_groupThousands

theorem unmarked_bold_times (x : Float) : Unmarked (bold (times x)) := by
  have hsign : Unmarked "×" := by
    simp [Unmarked]
  have hstars : Unmarked "**" := by
    simp [Unmarked]
  exact (hstars.append ((unmarked_fixed 2 x).append hsign)).append hstars

theorem unmarked_scale {row : ComparisonRow} (h : Scaling.Known row) : Unmarked row.scale := by
  rcases h with h | h | h <;> rw [h] <;> simp [Unmarked]

end

/-! ## The three tables -/

/-- The cells of a row that are not among its texts have no marks and count for nothing. -/
theorem counted_tableRow (cells : List String) {texts : List String} (hne : cells ≠ [])
    (h : ∀ count : String → Nat, (∀ s, Unmarked s → count s = 0) →
      (cells.map count).sum = (texts.map count).sum) :
    Counted cells.length texts (tableRow cells) := by
  have hlines : lineCount (tableRow cells) = 1 + (texts.map lineEnds).sum := by
    rw [lineCount_tableRow hne, h lineEnds fun _ => Unmarked.lineEnds, Nat.add_comm]
  have hcells : cellCount (tableRow cells) = cells.length + (texts.map bars).sum := by
    rw [cellCount_tableRow hne, h bars fun _ => Unmarked.bars]
  refine ⟨hlines, hcells, ?_, ?_⟩
  · rw [hlines, Nat.add_eq_left, List.sum_eq_zero_iff, List.forall_mem_map]
    simp only [lineEnds_eq_zero_iff]
  · rw [hcells, Nat.add_eq_left, List.sum_eq_zero_iff, List.forall_mem_map]

theorem comparisonLine_counted {row : ComparisonRow} (h : Scaling.Known row) :
    Counted 9 [row.scenario, row.testName, operationCell row] (comparisonLine row) := by
  refine counted_tableRow (comparisonCells row) (by simp [comparisonCells]) ?_
  intro count hcount
  simp [comparisonCells, hcount _ (unmarked_scale h), hcount _ (unmarked_groupThousands _),
    hcount _ (unmarked_fixed _ _), hcount _ (unmarked_bold_times _)]

theorem resultLine_counted (row : ResultRow) :
    Counted 6 [row.testName, row.operation, notesCell row.notes] (resultLine row) := by
  refine counted_tableRow (resultCells row) (by simp [resultCells]) ?_
  intro count hcount
  simp [resultCells, hcount _ (unmarked_groupThousands _), hcount _ (unmarked_fixed _ _)]

/-- The scaling analysis shows a scale, which is known, and numbers. -/
theorem scalingLine_counted {row : ComparisonRow} (h : Scaling.Known row) :
    Counted 5 [] (scalingLine row) := by
  refine counted_tableRow (scalingCells row) (by simp [scalingCells]) ?_
  intro count hcount
  simp [scalingCells, hcount _ (unmarked_scale h), hcount _ (unmarked_groupThousands _),
    hcount _ (unmarked_fixed _ _), hcount _ (unmarked_bold_times _)]

/-- A row whose texts have no marks is one line of as many cells as there are columns. -/
theorem Counted.whole {columns : Nat} {texts : List String} {line : String}
    (h : Counted columns texts line) (htexts : ∀ s ∈ texts, Unmarked s) :
    lineCount line = 1 ∧ cellCount line = columns := by
  refine ⟨h.oneLine_iff.mpr fun s hs => ?_, h.cells_iff.mpr fun s hs => (htexts s hs).bars⟩
  exact lineEnds_eq_zero_iff.mp (htexts s hs).lineEnds

section
variable {results : List ResultRow} {comparisons : List ComparisonRow}

/-- Every row of a report is one of its three tables, with its lines and cells counted by its texts,
and whole if these have no marks. A row of the scaling analysis is whole always. -/
theorem rows_count_texts {generated : Instant} {text : String}
    (hbuilt : refreshReport results comparisons generated = .ok text) :
    (∃ sheet : Sheet, text = textOfLines (sheet.blocks.flatMap Block.lines) ∧
      sheet.Complete results comparisons) ∧
    ([comparisonTable comparisons, scenarioTable results, scalingTable comparisons].map fun table =>
      (lineCount (tableRow table.headings), cellCount (tableRow table.headings))) =
        [(1, 9), (1, 6), (1, 5)] ∧
    (∀ row ∈ comparisons,
      Counted 9 [row.scenario, row.testName, operationCell row] (comparisonLine row) ∧
      ((∀ s ∈ [row.scenario, row.testName, row.operation], Unmarked s) →
        lineCount (comparisonLine row) = 1 ∧ cellCount (comparisonLine row) = 9)) ∧
    (∀ row ∈ results,
      Counted 6 [row.testName, row.operation, notesCell row.notes] (resultLine row) ∧
      ((∀ s ∈ [row.testName, row.operation] ++ row.notes.toList, Unmarked s) →
        lineCount (resultLine row) = 1 ∧ cellCount (resultLine row) = 6)) ∧
    ∀ row ∈ comparisons, lineCount (scalingLine row) = 1 ∧ cellCount (scalingLine row) = 5 := by
  obtain ⟨hknown, groups, hgroups, rfl⟩ := refreshReport_eq_ok hbuilt
  have hheadings : ([comparisonTable [], scenarioTable [], scalingTable []].map fun table =>
      (lineCount (tableRow table.headings), cellCount (tableRow table.headings))) =
        [(1, 9), (1, 6), (1, 5)] := by
    decide +kernel
  refine ⟨⟨_, by rw [lines_eq], sheet_complete results hgroups generated⟩, hheadings, ?_, ?_, ?_⟩
  · intro row hrow
    have hcounted := comparisonLine_counted (hknown row hrow)
    refine ⟨hcounted, fun htexts => hcounted.whole ?_⟩
    simp only [List.forall_mem_cons] at htexts ⊢
    obtain ⟨hscenario, htest, hoperation, -⟩ := htexts
    exact ⟨hscenario, htest, hoperation.erase _, List.forall_mem_nil _⟩
  · intro row hrow
    have hcounted := resultLine_counted row
    refine ⟨hcounted, fun htexts => hcounted.whole ?_⟩
    simp only [List.forall_mem_append, List.forall_mem_cons] at htexts ⊢
    obtain ⟨⟨htest, hoperation, -⟩, hnotes⟩ := htexts
    exact ⟨htest, hoperation, unmarked_notesCell hnotes, List.forall_mem_nil _⟩
  · intro row hrow
    exact (scalingLine_counted (hknown row hrow)).whole (List.forall_mem_nil _)

end

/-! ## Marks in notes -/

def exampleResult (notes : String) : ResultRow where
  scenario := "shop"
  testName := "order"
  scale := "small"
  operation := "single_row_incremental"
  rowsAffected := 1
  cascadeDepth := none
  time := 2.5
  notes := some notes

def exampleComparison : ComparisonRow :=
  ⟨"a|b", "c\nd", "small", "single_row_incremental", 1, 5.0, 2.5, 2.0, 2.5⟩

/-- One more cell and one more line in the table of comparisons, and neither in the analysis. -/
theorem rows_count_texts_marked :
    ∃ text, refreshReport [] [exampleComparison] ⟨0, 0⟩ = .ok text ∧
      lineCount (comparisonLine exampleComparison) = 2 ∧
      cellCount (comparisonLine exampleComparison) = 10 ∧
      lineCount (scalingLine exampleComparison) = 1 ∧
      cellCount (scalingLine exampleComparison) = 5 := by
  obtain ⟨text, hbuilt⟩ : ∃ text, refreshReport [] [exampleComparison] ⟨0, 0⟩ = .ok text := ⟨_, rfl⟩
  obtain ⟨-, -, hcomparisons, -, hscaling⟩ := rows_count_texts hbuilt
  obtain ⟨hcounted, -⟩ := hcomparisons exampleComparison List.mem_cons_self
  have hlines := hcounted.lines
  have hcells := hcounted.cells
  obtain ⟨hline, hfive⟩ := hscaling exampleComparison List.mem_cons_self
  exact ⟨text, hbuilt, hlines.trans (by decide), hcells.trans (by decide), hline, hfive⟩

theorem resultLine_mem {results : List ResultRow} {row : ResultRow} (h : row ∈ results)
    (data : Aggregate) (hdata : data.scenarios = scenarioGroups results) (generated : Instant) :
    resultLine row ∈ Report.lines data generated := by
  have hpartition := Groups.of_partition resultKey results
  obtain ⟨group, hgroup, hrow⟩ := List.mem_flatMap.mp (hpartition.perm.mem_iff.mpr h)
  have hline : resultLine row ∈ scenarioLines data.scenarios := by
    rw [scenarioLines, hdata]
    refine List.mem_append_right _ (List.mem_flatMap.mpr ⟨group, hgroup, ?_⟩)
    simp only [scenarioTable, Table.lines, List.mem_cons, List.mem_append, List.map_map]
    exact .inr (.inr (.inr (.inr (.inl (List.mem_map_of_mem hrow)))))
  simp only [Report.lines, List.mem_append]
  exact .inl (.inl (.inl (.inr hline)))

/-- Notes with a bar make a row of seven cells in a table of six columns, and notes with a line
break a row of two lines. The report is built nevertheless and contains both rows. -/
theorem notes_divide_rows :
    (∃ lines, refreshReport [exampleResult "a|b", exampleResult "a\nb"] [] ⟨0, 0⟩ =
        .ok (textOfLines lines) ∧
      resultLine (exampleResult "a|b") ∈ lines ∧ resultLine (exampleResult "a\nb") ∈ lines) ∧
    cellCount (resultLine (exampleResult "a|b")) = 7 ∧
    lineCount (resultLine (exampleResult "a\nb")) = 2 := by
  refine ⟨⟨_, rfl, resultLine_mem (by simp) _ rfl _, resultLine_mem (by simp) _ rfl _⟩, ?_, ?_⟩
  · exact (resultLine_counted _).cells.trans (by decide)
  · exact (resultLine_counted _).lines.trans (by decide)

end PerfGate.Cells
