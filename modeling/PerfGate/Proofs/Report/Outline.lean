import PerfGate.Proofs.Results.Scaling
import PerfGate.Proofs.Text.Lines

/-!
# What a report shows

A report is read back as an outline: headings, and under each the lines up to the next one. A
table is the run of lines that start with a bar, and below its headings and its dashes are its
rows. Whatever the texts in the cells are, as long as no line breaks are among them, each result
has one row and each comparison has two: one in the table of all comparisons and one in the table
of its test and operation.
-/

set_option autoImplicit false

namespace PerfGate.Outline

open Lines Groups Report

/-! ## Outlines -/

def startsWith (c : Char) (line : String) : Bool := line.toList.head? = some c

structure Block where
  heading : String
  body : List String

def Block.lines (b : Block) : List String := b.heading :: b.body

/-- The headings of a document, each with the lines up to the next one. -/
def outline : List String → List Block
  | [] => []
  | line :: rest =>
    if startsWith '#' line then ⟨line, rest.takeWhile (!startsWith '#' ·)⟩ :: outline rest
    else outline rest

def Block.tableLines (b : Block) : List String := b.body.filter (startsWith '|')

/-- The lines of a table below its titles and its dashes. -/
def Block.dataLines (b : Block) : List String := b.tableLines.drop 2

structure Block.Shows (b : Block) (heading : String) (columns rows : List String) : Prop where
  heading : b.heading = heading
  table : b.tableLines = tableRow columns :: dashRow columns :: rows

/-- Neither a heading nor a line of a table. -/
def Plain (line : String) : Prop := startsWith '#' line = false ∧ startsWith '|' line = false

instance (line : String) : Decidable (Plain line) :=
  inferInstanceAs (Decidable (startsWith '#' line = false ∧ startsWith '|' line = false))

structure Block.Sound (b : Block) : Prop where
  heading : startsWith '#' b.heading = true
  body : ∀ line ∈ b.body, startsWith '#' line = false

theorem outline_append {body rest : List String} (h : ∀ line ∈ body, startsWith '#' line = false) :
    outline (body ++ rest) = outline rest := by
  induction body with
  | nil => rfl
  | cons line body ih =>
    rw [List.cons_append, outline, if_neg (by simp [h line List.mem_cons_self])]
    exact ih fun l hl => h l (List.mem_cons_of_mem line hl)

theorem takeWhile_blocks {b : Block} {blocks : List Block} (hb : b.Sound)
    (h : ∀ b' ∈ blocks, b'.Sound) :
    (b.body ++ blocks.flatMap Block.lines).takeWhile (!startsWith '#' ·) = b.body := by
  have hbody : ∀ line ∈ b.body, (!startsWith '#' line) = true := fun line hline => by
    simp [hb.body line hline]
  rw [List.takeWhile_append_of_pos hbody]
  cases blocks with
  | nil => simp
  | cons next rest =>
    have hnext := (h next List.mem_cons_self).heading
    simp [Block.lines, hnext]

/-- What is written as blocks is read back as those blocks. -/
theorem outline_blocks {blocks : List Block} (h : ∀ b ∈ blocks, b.Sound) :
    outline (blocks.flatMap Block.lines) = blocks := by
  induction blocks with
  | nil => rfl
  | cons b rest ih =>
    have hb := h b List.mem_cons_self
    have hrest := fun b' hb' => h b' (List.mem_cons_of_mem b hb')
    rw [List.flatMap_cons, Block.lines, List.cons_append, outline, if_pos hb.heading,
      takeWhile_blocks hb hrest, outline_append hb.body, ih hrest]

/-! ## Tables -/

def tabular (heading : String) (columns : List String) (rows : List (List String)) : Block :=
  ⟨heading, "" :: (Table.mk columns rows).lines⟩

section
variable {heading : String} {columns : List String} {rows : List (List String)}

theorem startsWith_append (c : Char) {s : String} (t : String) (hs : s ≠ "") :
    startsWith c (s ++ t) = startsWith c s := by
  have hne : s.toList ≠ [] := fun h => hs (String.toList_inj.mp h)
  simp [startsWith, String.toList_append, List.head?_append_of_ne_nil _ hne]

theorem Plain.append {s : String} (t : String) (hs : s ≠ "") (h : Plain s) : Plain (s ++ t) :=
  ⟨(startsWith_append '#' t hs).trans h.1, (startsWith_append '|' t hs).trans h.2⟩

theorem tableRow_starts (c : Char) (cells : List String) :
    startsWith c (tableRow cells) = decide (c = '|') := by
  rw [tableRow, startsWith_append c _ (by simp), startsWith_append c _ (by decide)]
  simp [startsWith, eq_comm]

theorem dashRow_starts (c : Char) (columns : List String) :
    startsWith c (dashRow columns) = decide (c = '|') := by
  rw [dashRow, startsWith_append c _ (by simp), startsWith_append c _ (by decide)]
  simp [startsWith, eq_comm]

theorem tabular_sound (h : startsWith '#' heading = true) :
    (tabular heading columns rows).Sound := by
  refine ⟨h, ?_⟩
  simp only [tabular, Table.lines, List.forall_mem_cons, List.forall_mem_append, List.mem_map]
  refine ⟨by decide, by simp [tableRow_starts], by simp [dashRow_starts], ?_, by decide, ?_⟩
  · rintro line ⟨cells, -, rfl⟩
    simp [tableRow_starts]
  · simp

theorem tabular_shows (heading : String) (columns : List String) (rows : List (List String)) :
    (tabular heading columns rows).Shows heading columns (rows.map tableRow) := by
  refine ⟨rfl, ?_⟩
  have hempty : startsWith '|' "" = false := by decide
  have hrows : (rows.map tableRow).filter (startsWith '|') = rows.map tableRow :=
    List.filter_eq_self.mpr fun line hline => by
      obtain ⟨cells, -, rfl⟩ := List.mem_map.mp hline
      simp [tableRow_starts]
  simp [Block.tableLines, tabular, Table.lines, hempty, tableRow_starts, dashRow_starts, hrows]

theorem Block.Shows.dataLines {b : Block} {lines : List String}
    (h : b.Shows heading columns lines) : b.dataLines = lines := by
  rw [Block.dataLines, h.table]
  rfl

end

/-! ## The sheet of a report -/

structure Sheet where
  title : Block
  figures : Block
  comparison : Block
  scenarios : List Block
  scaling : List Block
  findings : Block

def scenarioTitle : Block := ⟨"## Detailed Results by Scenario", [""]⟩

def scalingTitle : Block := ⟨"## Scaling Analysis", [""]⟩

def scalingSubtitle : Block := ⟨"### How Performance Scales with Data Size", [""]⟩

def recommendations : Block := ⟨"## Recommendations", recommendationLines.tail⟩

def Sheet.blocks (s : Sheet) : List Block :=
  [s.title, s.figures, s.comparison, scenarioTitle] ++ s.scenarios
    ++ [scalingTitle, scalingSubtitle] ++ s.scaling ++ [s.findings, recommendations]

/-- What holds of each part holds of all blocks. -/
theorem Sheet.forall_blocks {P : Block → Prop} {s : Sheet} (title : P s.title)
    (figures : P s.figures) (comparison : P s.comparison) (scenarios : ∀ b ∈ s.scenarios, P b)
    (scaling : ∀ b ∈ s.scaling, P b) (findings : P s.findings)
    (fixed : ∀ b ∈ [scenarioTitle, scalingTitle, scalingSubtitle, recommendations], P b) :
    ∀ b ∈ s.blocks, P b := by
  simp only [List.forall_mem_cons] at fixed
  obtain ⟨hscenario, hscaling, hsubtitle, hrecommendations, -⟩ := fixed
  simp only [Sheet.blocks, List.forall_mem_append, List.forall_mem_cons]
  exact ⟨⟨⟨⟨⟨title, figures, comparison, hscenario, List.forall_mem_nil _⟩, scenarios⟩,
    hscaling, hsubtitle, List.forall_mem_nil _⟩, scaling⟩, findings, hrecommendations,
    List.forall_mem_nil _⟩

def resultLine (row : ResultRow) : String := tableRow (resultCells row)

def comparisonLine (row : ComparisonRow) : String := tableRow (comparisonCells row)

def scalingLine (row : ComparisonRow) : String := tableRow (scalingCells row)

def resultKey (row : ResultRow) : GroupKey := ⟨row.scenario, row.scale⟩

/-- The figures of all comparisons: none without comparisons, else four of them. -/
structure Figures (results : List ResultRow) (comparisons : List ComparisonRow) (b : Block) :
    Prop where
  heading : b.heading = "## Executive Summary"
  absent : comparisons = [] → b.body = [""]
  present : comparisons ≠ [] → ∃ average best minimum : Float,
    b.body = ["", "**Total Tests Run:** " ++ toString results.length,
      "**Average Improvement:** " ++ times average ++ " faster",
      "**Best Improvement:** " ++ times best ++ " faster",
      "**Minimum Improvement:** " ++ times minimum ++ " faster", ""]

structure Sheet.Complete (results : List ResultRow) (comparisons : List ComparisonRow)
    (s : Sheet) : Prop where
  figures : Figures results comparisons s.figures
  comparison : s.comparison.Shows "## Performance Comparison: Incremental vs Full Refresh"
    ["Scenario", "Test", "Scale", "Operation", "Rows", "Full Refresh (ms)", "Incremental (ms)",
      "Improvement", "Time Saved (ms)"] (comparisons.map comparisonLine)
  scenarios : ∃ groups, Partition resultKey results groups ∧
    List.Forall₂ (fun (b : Block) group => b.Shows (scenarioHeading group.1)
      ["Test Name", "Operation", "Rows", "Time (ms)", "ms/row", "Notes"]
      (group.2.map resultLine)) s.scenarios groups
  scaling : ∃ groups, Scaling.Complete comparisons groups ∧
    List.Forall₂ (fun (b : Block) group => b.Shows (scalingHeading group.1)
      ["Data Scale", "Rows Affected", "Full Refresh (ms)", "Incremental (ms)", "Improvement"]
      (group.2.map scalingLine)) s.scaling groups

/-! ## How a report is made up -/

def scenarioBlock (group : GroupKey × List ResultRow) : Block :=
  tabular (scenarioHeading group.1) (scenarioTable []).headings (group.2.map resultCells)

def scalingBlock (group : GroupKey × List ComparisonRow) : Block :=
  tabular (scalingHeading group.1) (scalingTable []).headings (group.2.map scalingCells)

def sheetOf (data : Aggregate) (generated : Instant) : Sheet where
  title := ⟨"# pg_tviews Comprehensive Benchmark Report", (titleLines generated).tail⟩
  figures := ⟨"## Executive Summary", (summaryLines data.summary).tail⟩
  comparison := tabular "## Performance Comparison: Incremental vs Full Refresh"
    (comparisonTable []).headings (data.comparisons.map comparisonCells)
  scenarios := data.scenarios.map scenarioBlock
  scaling := data.scaling.map scalingBlock
  findings := ⟨"## Key Findings", (findingLines data.categories data.scales).tail⟩

theorem lines_eq (data : Aggregate) (generated : Instant) :
    Report.lines data generated = (sheetOf data generated).blocks.flatMap Block.lines := by
  have hsummary (s : Option ImprovementSummary) :
      summaryLines s = "## Executive Summary" :: (summaryLines s).tail := by
    cases s <;> rfl
  rw [Report.lines, hsummary]
  simp [sheetOf, Sheet.blocks, List.flatMap_map, titleLines, comparisonLines, scenarioLines,
    scalingLines, findingLines, Block.lines, tabular, comparisonTable, scenarioTable, scalingTable,
    scenarioBlock, scalingBlock, scenarioTitle, scalingTitle, scalingSubtitle, recommendations,
    recommendationLines]

/-! ## Texts without line breaks -/

def UnbrokenResult (row : ResultRow) : Prop :=
  ∀ s ∈ [row.scenario, row.testName, row.scale, row.operation] ++ row.notes.toList, OneLine s

def UnbrokenComparison (row : ComparisonRow) : Prop :=
  ∀ s ∈ [row.scenario, row.testName, row.scale, row.operation], OneLine s

theorem oneLine_tableRow {cells : List String} (h : ∀ cell ∈ cells, OneLine cell) :
    OneLine (tableRow cells) := by
  rw [tableRow, oneLine_append, oneLine_append]
  exact ⟨⟨by decide, oneLine_intercalate (by decide) h⟩, by decide⟩

theorem oneLine_dashRow (columns : List String) : OneLine (dashRow columns) := by
  rw [dashRow, oneLine_append, oneLine_append]
  refine ⟨⟨by decide, oneLine_intercalate (by decide) ?_⟩, by decide⟩
  simp [dashes]

theorem oneLine_times (x : Float) : OneLine (times x) :=
  oneLine_append.mpr ⟨oneLine_fixed 2 x, by decide⟩

theorem oneLine_bold {s : String} (h : OneLine s) : OneLine (bold s) := by
  rw [bold, oneLine_append, oneLine_append]
  exact ⟨⟨by decide, h⟩, by decide⟩

/-- What is shown of notes comes from them, or is a dot for what is cut off. -/
theorem mem_notesCell {notes : Option String} {c : Char} (h : c ∈ (notesCell notes).toList) :
    c = '.' ∨ ∃ s ∈ notes.toList, c ∈ s.toList := by
  cases notes with
  | none => simp [notesCell] at h
  | some s =>
    rw [notesCell] at h
    split at h
    · rw [String.toList_append, String.toList_ofList] at h
      rcases List.mem_append.mp h with h | h
      · exact .inr ⟨s, by simp, List.mem_of_mem_take h⟩
      · exact .inl (by simpa using h)
    · exact .inr ⟨s, by simp, h⟩

theorem oneLine_notesCell {notes : Option String} (h : ∀ s ∈ notes.toList, OneLine s) :
    OneLine (notesCell notes) := by
  intro hmem
  rcases mem_notesCell hmem with hdot | ⟨s, hs, hc⟩
  · exact absurd hdot (by decide)
  · exact h s hs hc

theorem oneLine_titleOfName {s : String} (h : OneLine s) : OneLine (titleOfName s) := by
  refine oneLine_titleCase ?_
  rw [OneLine, String.toList_map]
  intro hmem
  obtain ⟨c, hc, heq⟩ := List.mem_map.mp hmem
  split at heq
  · exact absurd heq (by decide)
  · exact h (heq ▸ hc)

theorem oneLine_resultCells {row : ResultRow} (h : UnbrokenResult row) :
    ∀ cell ∈ resultCells row, OneLine cell := by
  simp only [UnbrokenResult, List.forall_mem_append, List.forall_mem_cons] at h
  obtain ⟨⟨hscenario, htest, hscale, hoperation, -⟩, hnotes⟩ := h
  simp only [resultCells, List.forall_mem_cons]
  exact ⟨htest, hoperation, oneLine_groupThousands _, oneLine_fixed _ _, oneLine_fixed _ _,
    oneLine_notesCell hnotes, List.forall_mem_nil _⟩

theorem oneLine_comparisonCells {row : ComparisonRow} (h : UnbrokenComparison row) :
    ∀ cell ∈ comparisonCells row, OneLine cell := by
  simp only [UnbrokenComparison, List.forall_mem_cons] at h
  obtain ⟨hscenario, htest, hscale, hoperation, -⟩ := h
  simp only [comparisonCells, List.forall_mem_cons]
  exact ⟨hscenario, htest, hscale, oneLine_erase _ hoperation, oneLine_groupThousands _,
    oneLine_fixed _ _, oneLine_fixed _ _, oneLine_bold (oneLine_times _), oneLine_fixed _ _,
    List.forall_mem_nil _⟩

theorem oneLine_scalingCells {row : ComparisonRow} (h : UnbrokenComparison row) :
    ∀ cell ∈ scalingCells row, OneLine cell := by
  simp only [scalingCells, List.forall_mem_cons]
  exact ⟨h row.scale (by simp), oneLine_groupThousands _, oneLine_fixed _ _, oneLine_fixed _ _,
    oneLine_bold (oneLine_times _), List.forall_mem_nil _⟩

def Block.Unbroken (b : Block) : Prop := ∀ line ∈ b.lines, OneLine line

theorem tabular_unbroken {heading : String} {columns : List String} {rows : List (List String)}
    (hheading : OneLine heading) (hcolumns : ∀ column ∈ columns, OneLine column)
    (hrows : ∀ cells ∈ rows, ∀ cell ∈ cells, OneLine cell) :
    (tabular heading columns rows).Unbroken := by
  simp only [Block.Unbroken, Block.lines, tabular, Table.lines, List.forall_mem_cons,
    List.forall_mem_append, List.forall_mem_map]
  exact ⟨hheading, by decide, oneLine_tableRow hcolumns, oneLine_dashRow columns,
    fun cells hcells => oneLine_tableRow (hrows cells hcells), by decide, List.forall_mem_nil _⟩

section
variable {results : List ResultRow} {comparisons : List ComparisonRow}

theorem scenarioBlock_unbroken {group : GroupKey × List ResultRow}
    (hgroups : Partition resultKey results (scenarioGroups results))
    (h : ∀ row ∈ results, UnbrokenResult row) (hgroup : group ∈ scenarioGroups results) :
    (scenarioBlock group).Unbroken := by
  obtain ⟨row, hrow, hkey⟩ := (hgroups.mem_keys group.1).mp (mem_keys_of_mem hgroup)
  have hrowtexts := h row hrow
  refine tabular_unbroken ?_ (by decide) ?_
  · rw [scenarioHeading, ← hkey]
    simp only [oneLine_append]
    exact ⟨⟨⟨⟨by decide, oneLine_titleCase (hrowtexts _ (by simp [resultKey]))⟩, by decide⟩,
      oneLine_titleCase (hrowtexts _ (by simp [resultKey]))⟩, by decide⟩
  · rw [hgroups.members group hgroup, List.forall_mem_map]
    exact fun other hother => oneLine_resultCells (h other (List.mem_of_mem_filter hother))

theorem scalingBlock_unbroken {groups : Groups ComparisonRow}
    {group : GroupKey × List ComparisonRow} (hgroups : Scaling.Complete comparisons groups)
    (h : ∀ row ∈ comparisons, UnbrokenComparison row) (hgroup : group ∈ groups) :
    (scalingBlock group).Unbroken := by
  obtain ⟨row, hrow, hkey⟩ := (hgroups.keys group.1).mp (mem_keys_of_mem hgroup)
  have hrowtexts := h row hrow
  refine tabular_unbroken ?_ (by decide) ?_
  · rw [scalingHeading, ← hkey]
    simp only [oneLine_append]
    exact ⟨⟨⟨by decide, oneLine_titleOfName (hrowtexts _ (by simp [Scaling.rowKey]))⟩, by decide⟩,
      oneLine_titleOfName (hrowtexts _ (by simp [Scaling.rowKey]))⟩
  · rw [List.forall_mem_map]
    intro other hother
    have hmem : other ∈ comparisons :=
      hgroups.perm.subset (List.mem_flatMap.mpr ⟨group, hgroup, hother⟩)
    exact oneLine_scalingCells (h other hmem)

end

theorem title_unbroken (generated : Instant) : ∀ line ∈ titleLines generated, OneLine line := by
  simp only [titleLines, List.forall_mem_cons]
  exact ⟨by decide, by decide, oneLine_append.mpr ⟨by decide, oneLine_dateTimeText _⟩, by decide,
    by decide, by decide, List.forall_mem_nil _⟩

theorem summary_unbroken (s : Option ImprovementSummary) :
    ∀ line ∈ summaryLines s, OneLine line := by
  cases s with
  | none => decide
  | some s =>
    have hfaster : OneLine " faster" := by decide
    simp only [summaryLines, List.forall_mem_cons, oneLine_append]
    exact ⟨by decide, by decide, ⟨by decide, oneLine_toString _⟩,
      ⟨⟨by decide, oneLine_times _⟩, hfaster⟩, ⟨⟨by decide, oneLine_times _⟩, hfaster⟩,
      ⟨⟨by decide, oneLine_times _⟩, hfaster⟩, by decide, List.forall_mem_nil _⟩

theorem finding_unbroken (categories : List CategoryFinding) (scales : List ScaleFinding) :
    ∀ line ∈ findingLines categories scales, OneLine line := by
  have hcategory (finding : CategoryFinding) : OneLine (categoryLine finding) := by
    simp only [categoryLine, oneLine_append]
    exact ⟨⟨⟨⟨by decide, by cases finding.category <;> decide⟩, by decide⟩, oneLine_times _⟩,
      by decide⟩
  have hscale (finding : ScaleFinding) : OneLine (scaleLine finding) := by
    simp only [scaleLine, oneLine_append]
    exact ⟨⟨⟨⟨⟨⟨by decide, oneLine_titleCase (by cases finding.scale <;> decide)⟩, by decide⟩,
      oneLine_times _⟩, by decide⟩, oneLine_fixed _ _⟩, by decide⟩
  simp only [findingLines, List.forall_mem_append, List.forall_mem_map]
  exact ⟨⟨⟨⟨by decide, fun finding _ => hcategory finding⟩, by decide⟩,
    fun finding _ => hscale finding⟩, by decide⟩

/-! ## Every row once -/

section
variable {results : List ResultRow} {comparisons : List ComparisonRow}
  {groups : Groups ComparisonRow}

def gathered (results : List ResultRow) (comparisons : List ComparisonRow)
    (groups : Groups ComparisonRow) : Aggregate where
  summary := improvementSummary results.length comparisons
  comparisons := comparisons
  scenarios := scenarioGroups results
  scaling := groups
  categories := categoryFindings comparisons
  scales := scaleFindings comparisons

theorem refreshReport_eq_ok {generated : Instant} {text : String}
    (h : refreshReport results comparisons generated = .ok text) :
    (∀ row ∈ comparisons, Scaling.Known row) ∧ ∃ groups, Scaling.Complete comparisons groups ∧
      text = textOfLines (Report.lines (gathered results comparisons groups) generated) := by
  rw [refreshReport, aggregate] at h
  rcases Scaling.scalingGroups_cases comparisons with
    ⟨fault, -, herror⟩ | ⟨groups, hknown, hcomplete, hok⟩
  · rw [herror] at h
    cases h
  · rw [hok] at h
    exact ⟨hknown, groups, hcomplete, (Except.ok.inj h).symm⟩

theorem figures_of (results : List ResultRow) (comparisons : List ComparisonRow) :
    Figures results comparisons
      ⟨"## Executive Summary",
        (summaryLines (improvementSummary results.length comparisons)).tail⟩ where
  heading := rfl
  absent h := by
    rw [h]
    rfl
  present h := by
    cases comparisons with
    | nil => exact absurd rfl h
    | cons row rest => exact ⟨_, _, _, rfl⟩

theorem forall₂_map_right {α β : Type} {R : β → α → Prop} {f : α → β} (xs : List α)
    (h : ∀ x, R (f x) x) : List.Forall₂ R (xs.map f) xs := by
  induction xs with
  | nil => exact .nil
  | cons x xs ih => exact .cons (h x) ih

theorem scenarioBlock_shows (group : GroupKey × List ResultRow) :
    (scenarioBlock group).Shows (scenarioHeading group.1)
      ["Test Name", "Operation", "Rows", "Time (ms)", "ms/row", "Notes"]
      (group.2.map resultLine) := by
  have h := tabular_shows (scenarioHeading group.1) (scenarioTable []).headings
    (group.2.map resultCells)
  rwa [List.map_map] at h

theorem scalingBlock_shows (group : GroupKey × List ComparisonRow) :
    (scalingBlock group).Shows (scalingHeading group.1)
      ["Data Scale", "Rows Affected", "Full Refresh (ms)", "Incremental (ms)", "Improvement"]
      (group.2.map scalingLine) := by
  have h := tabular_shows (scalingHeading group.1) (scalingTable []).headings
    (group.2.map scalingCells)
  rwa [List.map_map] at h

theorem sheet_complete (results : List ResultRow) (hgroups : Scaling.Complete comparisons groups)
    (generated : Instant) :
    (sheetOf (gathered results comparisons groups) generated).Complete results comparisons where
  figures := figures_of results comparisons
  comparison := by
    have h := tabular_shows "## Performance Comparison: Incremental vs Full Refresh"
      (comparisonTable []).headings (comparisons.map comparisonCells)
    rwa [List.map_map] at h
  scenarios := ⟨_, of_partition resultKey results, forall₂_map_right _ scenarioBlock_shows⟩
  scaling := ⟨groups, hgroups, forall₂_map_right groups scalingBlock_shows⟩

theorem title_plain (generated : Instant) : ∀ line ∈ (titleLines generated).tail, Plain line := by
  simp only [titleLines, List.tail_cons, List.forall_mem_cons]
  exact ⟨by decide, Plain.append _ (by decide) (by decide), by decide, by decide, by decide,
    List.forall_mem_nil _⟩

theorem summary_plain (s : Option ImprovementSummary) :
    ∀ line ∈ (summaryLines s).tail, Plain line := by
  cases s with
  | none => decide
  | some s =>
    simp only [summaryLines, List.tail_cons, List.forall_mem_cons, String.append_assoc]
    refine ⟨by decide, ?_, ?_, ?_, ?_, by decide, List.forall_mem_nil _⟩ <;>
      exact Plain.append _ (by decide) (by decide)

theorem finding_plain (categories : List CategoryFinding) (scales : List ScaleFinding) :
    ∀ line ∈ (findingLines categories scales).tail, Plain line := by
  have hfinding (t : String) : Plain ("- **" ++ t) := Plain.append t (by decide) (by decide)
  have hempty : Plain "" := by decide
  simp [findingLines, categoryLine, scaleLine, String.append_assoc, hfinding, hempty,
    or_imp, forall_and]

theorem sheet_sound (data : Aggregate) (generated : Instant) :
    ∀ b ∈ (sheetOf data generated).blocks, b.Sound := by
  have hheadings : ∀ heading ∈ ["# pg_tviews Comprehensive Benchmark Report",
      "## Executive Summary", "## Key Findings"], startsWith '#' heading = true := by
    decide
  refine Sheet.forall_blocks
    ⟨hheadings _ (by simp [sheetOf]), fun line hline => (title_plain generated line hline).1⟩
    ⟨hheadings _ (by simp [sheetOf]), fun line hline => (summary_plain _ line hline).1⟩
    (tabular_sound (by decide)) ?_ ?_
    ⟨hheadings _ (by simp [sheetOf]), fun line hline => (finding_plain _ _ line hline).1⟩ ?_
  · refine List.forall_mem_map.mpr fun group _ => tabular_sound ?_
    simp only [scenarioHeading, String.append_assoc]
    exact (startsWith_append '#' _ (by decide)).trans (by decide)
  · refine List.forall_mem_map.mpr fun group _ => tabular_sound ?_
    simp only [scalingHeading, String.append_assoc]
    exact (startsWith_append '#' _ (by decide)).trans (by decide)
  · have hfixed : ∀ b ∈ [scenarioTitle, scalingTitle, scalingSubtitle, recommendations],
        startsWith '#' b.heading = true ∧ ∀ line ∈ b.body, startsWith '#' line = false := by
      decide +kernel
    exact fun b hb => ⟨(hfixed b hb).1, (hfixed b hb).2⟩

theorem sheet_unbroken (hgroups : Scaling.Complete comparisons groups)
    (hresults : ∀ row ∈ results, UnbrokenResult row)
    (hcomparisons : ∀ row ∈ comparisons, UnbrokenComparison row) (generated : Instant) :
    ∀ b ∈ (sheetOf (gathered results comparisons groups) generated).blocks, b.Unbroken := by
  have hfixed : ∀ b ∈ [scenarioTitle, scalingTitle, scalingSubtitle, recommendations],
      ∀ line ∈ b.lines, OneLine line := by
    decide +kernel
  refine Sheet.forall_blocks (title_unbroken generated) ?_ (tabular_unbroken (by decide)
    (by decide) ?_) ?_ ?_ (finding_unbroken _ _) hfixed
  · have hsummary := summary_unbroken (improvementSummary results.length comparisons)
    cases hcases : improvementSummary results.length comparisons with
    | none =>
      rw [hcases] at hsummary
      simpa [Block.Unbroken, sheetOf, gathered, hcases, Block.lines, summaryLines] using hsummary
    | some s =>
      rw [hcases] at hsummary
      simpa [Block.Unbroken, sheetOf, gathered, hcases, Block.lines, summaryLines] using hsummary
  · exact List.forall_mem_map.mpr fun row hrow => oneLine_comparisonCells (hcomparisons row hrow)
  · exact List.forall_mem_map.mpr fun group hgroup =>
      scenarioBlock_unbroken (of_partition resultKey results) hresults hgroup
  · exact List.forall_mem_map.mpr fun group hgroup =>
      scalingBlock_unbroken hgroups hcomparisons hgroup

theorem dataLines_of_plain {b : Block} (h : ∀ line ∈ b.body, Plain line) : b.dataLines = [] := by
  rw [Block.dataLines, Block.tableLines,
    List.filter_eq_nil_iff.mpr fun line hline => by simp [(h line hline).2], List.drop_nil]

theorem dataLines_of_groups {α : Type} {blocks : List Block} {groups : Groups α}
    {heading : GroupKey → String} {columns : List String} {line : α → String}
    (h : List.Forall₂ (fun (b : Block) group =>
      b.Shows (heading group.1) columns (group.2.map line)) blocks groups) :
    blocks.flatMap Block.dataLines = (groups.flatMap (·.2)).map line := by
  induction h with
  | nil => rfl
  | cons hb _ ih =>
    rw [List.flatMap_cons, List.flatMap_cons, List.map_append, hb.dataLines, ih]

theorem dataLines_length (hgroups : Scaling.Complete comparisons groups) (generated : Instant) :
    ((sheetOf (gathered results comparisons groups) generated).blocks.flatMap
      Block.dataLines).length = results.length + 2 * comparisons.length := by
  have hcomplete := sheet_complete results hgroups generated
  obtain ⟨byScenario, hscenarios, hresults⟩ := hcomplete.scenarios
  obtain ⟨byTest, htests, hscaling⟩ := hcomplete.scaling
  have htitle := dataLines_of_plain (b := (sheetOf (gathered results comparisons groups)
    generated).title) (title_plain generated)
  have hfigures := dataLines_of_plain (b := (sheetOf (gathered results comparisons groups)
    generated).figures) (summary_plain _)
  have hfindings := dataLines_of_plain (b := (sheetOf (gathered results comparisons groups)
    generated).findings) (finding_plain _ _)
  have hfixed : scenarioTitle.dataLines = [] ∧ scalingTitle.dataLines = [] ∧
      scalingSubtitle.dataLines = [] ∧ recommendations.dataLines = [] := by
    decide +kernel
  rw [Sheet.blocks]
  simp only [List.flatMap_append, List.flatMap_cons, List.flatMap_nil, List.length_append,
    htitle, hfigures, hfindings, hfixed, hcomplete.comparison.dataLines,
    dataLines_of_groups hresults, dataLines_of_groups hscaling, List.length_map,
    hscenarios.perm.length_eq, htests.perm.length_eq, List.length_nil]
  omega

end

end PerfGate.Outline
