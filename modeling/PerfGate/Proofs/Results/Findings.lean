import PerfGate.Proofs.Results.Scaling
import PerfGate.Proofs.Text.Occurrence

/-!
# The findings agree with the rows

Findings are made for the scales and categories that occur among the rows and for no others, in
their fixed order. Scales divide the rows, so their counts add up to all rows and agree with the
scaling groups. Categories overlap: the mark of a thousand rows begins with that of a hundred.
-/

set_option autoImplicit false

namespace PerfGate.Findings

open Groups Occurrence Scaling

section
variable {rows : List ComparisonRow}

/-! ## Averages -/

/-- The numbers added from left to right, starting at zero, over how many they are. -/
def leftMean (xs : List Float) : Float :=
  xs.foldl (· + ·) 0.0 / Float.ofNat xs.length

theorem averageRatio_eq (rows : List ComparisonRow) :
    averageRatio rows = if rows = [] then none else some (leftMean (rows.map (·.ratio))) := by
  cases rows with
  | nil => rfl
  | cons row rest => simp [averageRatio, leftMean, ratioSum, List.foldl_map]

theorem improvementSummary_eq (totalTests : Nat) (rows : List ComparisonRow) :
    improvementSummary totalTests rows = if rows = [] then none else
      some ⟨totalTests, leftMean (rows.map (·.ratio)), bestRatio rows, leastRatio rows⟩ := by
  rw [improvementSummary, averageRatio_eq]
  split <;> rfl

/-- Kinds of rows that have an average are those that occur. -/
theorem filterMap_average {κ ν : Type} (kinds : List κ) (matching : κ → List ComparisonRow)
    (finding : κ → Float → ν) :
    (kinds.filterMap fun kind => (averageRatio (matching kind)).map (finding kind)) =
      (kinds.filter (matching · ≠ [])).map fun kind =>
        finding kind (leftMean ((matching kind).map (·.ratio))) := by
  induction kinds with
  | nil => rfl
  | cons kind rest ih =>
    rw [List.filterMap_cons, averageRatio_eq, ih]
    by_cases h : matching kind = []
    · simp [h]
    · simp [h]

/-! ## Categories -/

/-- A row belongs to a category if its operation has the mark of the category anywhere. -/
def Within (row : ComparisonRow) : OperationCategory → Prop
  | .singleRow => Occurs "single_row" row.operation
  | .bulk100 => Occurs "bulk_100" row.operation
  | .bulk1000 => Occurs "bulk_1000" row.operation

theorem within_iff {row : ComparisonRow} {category : OperationCategory} :
    category.contains row.operation = true ↔ Within row category := by
  cases category <;> exact contains_iff

instance (row : ComparisonRow) (category : OperationCategory) : Decidable (Within row category) :=
  decidable_of_iff _ within_iff

theorem Within.of_thousand {row : ComparisonRow} (h : Within row .bulk1000) :
    Within row .bulk100 := by
  have hmark : Occurs ("bulk_100" ++ "0") row.operation := h
  exact hmark.of_append

def inCategory (rows : List ComparisonRow) (category : OperationCategory) : List ComparisonRow :=
  rows.filter (Within · category)

theorem inCategory_ne_nil {category : OperationCategory} :
    inCategory rows category ≠ [] ↔ ∃ row ∈ rows, Within row category := by
  simp [inCategory]

def categoryFinding (rows : List ComparisonRow) (category : OperationCategory) : CategoryFinding :=
  ⟨category, (inCategory rows category).length,
    leftMean ((inCategory rows category).map (·.ratio))⟩

theorem categoryFindings_eq (rows : List ComparisonRow) :
    categoryFindings rows = (OperationCategory.all.filter (inCategory rows · ≠ [])).map
      (categoryFinding rows) := by
  have hmatching (category : OperationCategory) :
      rows.filter (fun row => category.contains row.operation) = inCategory rows category := by
    apply List.filter_congr
    intro row _
    rw [Bool.eq_iff_iff, within_iff, decide_eq_true_iff]
  simp only [categoryFindings, hmatching]
  exact filterMap_average _ _ _

theorem mem_categoryFindings {finding : CategoryFinding} :
    finding ∈ categoryFindings rows ↔
      ∃ category, inCategory rows category ≠ [] ∧ categoryFinding rows category = finding := by
  have hall (category : OperationCategory) : category ∈ OperationCategory.all := by
    cases category <;> decide
  simp [categoryFindings_eq, hall]

/-- Every row on a thousand rows is one on a hundred rows. -/
theorem thousand_sublist (rows : List ComparisonRow) :
    (inCategory rows .bulk1000).Sublist (inCategory rows .bulk100) := by
  apply List.monotone_filter_right
  intro row h
  simp only [decide_eq_true_iff] at h ⊢
  exact h.of_thousand

theorem categoryFindings_insert {before after : List ComparisonRow} {row : ComparisonRow}
    (h : ∀ category, ¬ Within row category) :
    categoryFindings (before ++ row :: after) = categoryFindings (before ++ after) := by
  have hmatching (category : OperationCategory) :
      inCategory (before ++ row :: after) category = inCategory (before ++ after) category := by
    simp [inCategory, h category]
  have hfinding : categoryFinding (before ++ row :: after) = categoryFinding (before ++ after) := by
    funext category
    simp only [categoryFinding, hmatching]
  simp only [categoryFindings_eq, hmatching, hfinding]

/-! ## Scales -/

def ofScale (rows : List ComparisonRow) (scale : DataScale) : List ComparisonRow :=
  rows.filter (·.scale = scale.text)

theorem ofScale_ne_nil {scale : DataScale} :
    ofScale rows scale ≠ [] ↔ ∃ row ∈ rows, row.scale = scale.text := by
  simp [ofScale]

def scaleFinding (rows : List ComparisonRow) (scale : DataScale) : ScaleFinding :=
  ⟨scale, (ofScale rows scale).length, leftMean ((ofScale rows scale).map (·.ratio)),
    Statistics.sum ((ofScale rows scale).map (·.saved))⟩

theorem scaleFindings_eq (rows : List ComparisonRow) :
    scaleFindings rows = (DataScale.all.filter (ofScale rows · ≠ [])).map (scaleFinding rows) := by
  rw [scaleFindings]
  exact filterMap_average _ (ofScale rows) _

/-- Scales that do not occur have no rows to count. -/
theorem counts_sum (rows : List ComparisonRow) :
    ((scaleFindings rows).map (·.count)).sum =
      (DataScale.all.map fun scale => (ofScale rows scale).length).sum := by
  rw [scaleFindings_eq]
  induction DataScale.all with
  | nil => rfl
  | cons scale rest ih =>
    by_cases h : ofScale rows scale = []
    · simpa [h] using ih
    · simpa [h, scaleFinding] using ih

/-- Rows of known scales are divided among the scales. -/
theorem lengths_sum (h : ∀ row ∈ rows, Known row) :
    (DataScale.all.map fun scale => (ofScale rows scale).length).sum = rows.length := by
  induction rows with
  | nil => rfl
  | cons row rest ih =>
    obtain ⟨hrow, hrest⟩ := List.forall_mem_cons.mp h
    have hsum := ih hrest
    obtain ⟨scale, hscale⟩ := known_iff.mp hrow
    cases scale <;>
      simp [DataScale.all, ofScale, DataScale.text, List.filter_cons, hscale] at hsum ⊢ <;> omega

/-- The rows of a scale, counted over groups that hold every row once. -/
theorem grouped_length {groups : Groups ComparisonRow} (h : (groups.flatMap (·.2)).Perm rows)
    (scale : DataScale) :
    (groups.map fun group => (ofScale group.2 scale).length).sum = (ofScale rows scale).length := by
  have hlength := (h.filter (·.scale = scale.text)).length_eq
  rw [List.filter_flatMap, List.length_flatMap] at hlength
  exact hlength

theorem categories_eq (rows : List ComparisonRow) :
    (categoryFindings rows).map (·.category) =
      OperationCategory.all.filter fun category => ∃ row ∈ rows, Within row category := by
  rw [categoryFindings_eq, List.map_map]
  simp only [inCategory_ne_nil]
  exact List.map_id _

theorem scales_eq (rows : List ComparisonRow) :
    (scaleFindings rows).map (·.scale) =
      DataScale.all.filter fun scale => ∃ row ∈ rows, row.scale = scale.text := by
  rw [scaleFindings_eq, List.map_map]
  simp only [ofScale_ne_nil]
  exact List.map_id _

theorem thousand_counted {finding : CategoryFinding} (h : finding ∈ categoryFindings rows)
    (hthousand : finding.category = .bulk1000) :
    ∃ other ∈ categoryFindings rows, other.category = .bulk100 ∧ finding.count ≤ other.count := by
  obtain ⟨category, hne, rfl⟩ := mem_categoryFindings.mp h
  obtain rfl : category = .bulk1000 := hthousand
  have hsub := thousand_sublist rows
  have hne' : inCategory rows .bulk100 ≠ [] := by
    intro hnil
    rw [hnil, List.sublist_nil] at hsub
    exact hne hsub
  exact ⟨_, mem_categoryFindings.mpr ⟨.bulk100, hne', rfl⟩, rfl, hsub.length_le⟩

/-- What an aggregate holds besides the groups. -/
theorem aggregate_eq_ok {results : List ResultRow} {data : Aggregate}
    (h : aggregate results rows = .ok data) :
    scalingGroups rows = .ok data.scaling ∧ data.scales = scaleFindings rows ∧
      data.categories = categoryFindings rows := by
  rw [aggregate] at h
  cases hgroups : scalingGroups rows with
  | error fault =>
    rw [hgroups] at h
    cases h
  | ok groups =>
    rw [hgroups] at h
    obtain rfl := Except.ok.inj h
    exact ⟨rfl, rfl, rfl⟩

end

/-- The findings count the rows: by scale each row once and as the scaling groups hold them, by
category each row as often as it has a mark. -/
theorem findings_count_rows (results : List ResultRow) (rows : List ComparisonRow) :
    (∀ data, aggregate results rows = .ok data →
      data.categories = categoryFindings rows ∧
      data.scales.map (·.scale) = [DataScale.small, .medium, .large].filter
        (fun scale => ∃ row ∈ rows, row.scale = scale.text) ∧
      (data.scales.map (·.count)).sum = rows.length ∧
      ∀ finding ∈ data.scales,
        finding.count =
          (data.scaling.map fun group => (ofScale group.2 finding.scale).length).sum ∧
        finding.average = leftMean ((ofScale rows finding.scale).map (·.ratio))) ∧
    (categoryFindings rows).map (·.category) =
      [OperationCategory.singleRow, .bulk100, .bulk1000].filter
        (fun category => ∃ row ∈ rows, Within row category) ∧
    (∀ finding ∈ categoryFindings rows,
      finding.count = (inCategory rows finding.category).length ∧
      finding.average = leftMean ((inCategory rows finding.category).map (·.ratio))) ∧
    (∀ finding ∈ categoryFindings rows, finding.category = .bulk1000 →
      ∃ other ∈ categoryFindings rows,
        other.category = .bulk100 ∧ finding.count ≤ other.count) ∧
    ∀ before row after, rows = before ++ after → (∀ category, ¬ Within row category) →
      categoryFindings (before ++ row :: after) = categoryFindings rows := by
  refine ⟨fun data hdata => ?_, categories_eq rows, fun finding hfinding => ?_,
    fun finding => thousand_counted, ?_⟩
  · obtain ⟨hgroups, hscales, hcategories⟩ := aggregate_eq_ok hdata
    rcases scalingGroups_cases rows with ⟨fault, _, herror⟩ | ⟨groups, hknown, hcomplete, hok⟩
    · exact nomatch herror.symm.trans hgroups
    obtain rfl := Except.ok.inj (hok.symm.trans hgroups)
    rw [hscales]
    refine ⟨hcategories, scales_eq rows, (counts_sum rows).trans (lengths_sum hknown), ?_⟩
    intro finding hfinding
    rw [scaleFindings_eq] at hfinding
    obtain ⟨scale, _, rfl⟩ := List.mem_map.mp hfinding
    exact ⟨(grouped_length hcomplete.perm scale).symm, rfl⟩
  · obtain ⟨category, _, rfl⟩ := mem_categoryFindings.mp hfinding
    exact ⟨rfl, rfl⟩
  · rintro before row after rfl hnone
    exact categoryFindings_insert hnone

def exampleRow (operation scale : String) (ratio : Float) : ComparisonRow :=
  ⟨"s", "t", scale, operation, 1, 2.0, 1.0, ratio, 1.0⟩

def exampleRows : List ComparisonRow :=
  [exampleRow "bulk_1000" "small" 2.0, exampleRow "bulk_100" "large" 4.0,
    exampleRow "other" "small" 8.0]

/-- Scales count the three rows once each; a category counts the row with two marks twice. -/
theorem findings_count_rows_overlap :
    ∃ data, aggregate [] exampleRows = .ok data ∧
      data.scales.map (·.scale) = [.small, .large] ∧ (data.scales.map (·.count)).sum = 3 ∧
      data.categories.map (·.category) = [.bulk100, .bulk1000] ∧
      ∀ finding ∈ data.categories,
        finding.count = (inCategory exampleRows finding.category).length := by
  obtain ⟨haggregate, hcategories, hcounts, _⟩ := findings_count_rows [] exampleRows
  have hok : (aggregate [] exampleRows).toBool = true := by
    decide +kernel
  cases h : aggregate [] exampleRows with
  | error fault =>
    rw [h] at hok
    exact nomatch hok
  | ok data =>
    obtain ⟨heq, hscales, hsum, _⟩ := haggregate data h
    rw [← heq] at hcategories hcounts
    refine ⟨data, rfl, hscales.trans ?_, hsum, hcategories.trans ?_, fun finding hfinding => ?_⟩
    · decide +kernel
    · decide +kernel
    · exact (hcounts finding hfinding).1

end PerfGate.Findings
