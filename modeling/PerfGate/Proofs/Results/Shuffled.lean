import PerfGate.Proofs.Results.Averages

/-!
# Comparisons in another order

An aggregate is made from comparisons in some order, but little of it depends on that order: the
places of comparisons of one scale within their group, and the last bits of sums. The groups, the
findings that are made, their counts and the extremes are the same for every order.
-/

set_option autoImplicit false

namespace PerfGate.Shuffled

open Findings Groups Number Scaling

/-! ## Equal up to the order -/

structure SameGroup (group other : GroupKey × List ComparisonRow) : Prop where
  key : other.1 = group.1
  perm : other.2.Perm group.2
  scales : other.2.map (·.scale) = group.2.map (·.scale)

structure SameExtremes (figures others : ImprovementSummary) : Prop where
  totalTests : others.totalTests = figures.totalTests
  best : (others.best == figures.best) = true
  minimum : (others.minimum == figures.minimum) = true

/-- Aggregates that differ in the order of comparisons and in averages only. -/
structure SameUpToOrder (data other : Aggregate) : Prop where
  keys : keys other.scaling = keys data.scaling
  groups : List.Forall₂ SameGroup data.scaling other.scaling
  categories : other.categories.map (fun finding => (finding.category, finding.count)) =
    data.categories.map fun finding => (finding.category, finding.count)
  scales : other.scales.map (fun finding => (finding.scale, finding.count)) =
    data.scales.map fun finding => (finding.scale, finding.count)
  summary : Option.Rel SameExtremes data.summary other.summary

section
variable {rows others : List ComparisonRow}

/-! ## Scaling groups -/

def members (rows : List ComparisonRow) (key : GroupKey) : List ComparisonRow :=
  part rows key "small" ++ part rows key "medium" ++ part rows key "large"

theorem part_perm (hperm : others.Perm rows) (key : GroupKey) (scale : String) :
    (part others key scale).Perm (part rows key scale) :=
  hperm.filter _

/-- All comparisons of a part have its scale. -/
theorem part_scales (rows : List ComparisonRow) (key : GroupKey) (scale : String) :
    (part rows key scale).map (·.scale) = List.replicate (part rows key scale).length scale := by
  rw [List.eq_replicate_iff, List.length_map]
  refine ⟨rfl, List.forall_mem_map.mpr fun row hrow => ?_⟩
  exact (of_decide_eq_true (List.mem_filter.mp hrow).2).2

theorem members_perm (hperm : others.Perm rows) (key : GroupKey) :
    (members others key).Perm (members rows key) :=
  ((part_perm hperm key _).append (part_perm hperm key _)).append (part_perm hperm key _)

theorem members_scales (hperm : others.Perm rows) (key : GroupKey) :
    (members others key).map (·.scale) = (members rows key).map (·.scale) := by
  simp only [members, List.map_append, part_scales, (part_perm hperm key _).length_eq]

theorem keys_of_perm (hperm : others.Perm rows) {groups found : Groups ComparisonRow}
    (hgroups : Complete rows groups) (hfound : Complete others found) :
    keys found = keys groups := by
  refine hfound.ascending.keys_eq hgroups.ascending fun k => ?_
  rw [hfound.keys, hgroups.keys]
  simp only [hperm.mem_iff]

theorem groups_of_perm (hperm : others.Perm rows) {groups found : Groups ComparisonRow}
    (hgroups : Complete rows groups) (hfound : Complete others found) :
    List.Forall₂ SameGroup groups found := by
  rw [eq_map_keys (members rows) hgroups.members, eq_map_keys (members others) hfound.members,
    keys_of_perm hperm hgroups hfound, List.forall₂_map_left_iff, List.forall₂_map_right_iff,
    List.forall₂_same]
  intro key _
  exact ⟨rfl, members_perm hperm key, members_scales hperm key⟩

/-! ## Findings -/

theorem inCategory_perm (hperm : others.Perm rows) (category : OperationCategory) :
    (inCategory others category).Perm (inCategory rows category) :=
  hperm.filter _

theorem ofScale_perm (hperm : others.Perm rows) (scale : DataScale) :
    (ofScale others scale).Perm (ofScale rows scale) :=
  hperm.filter _

/-- Findings over the kinds of rows that occur, if the rows of a kind are the same up to order. -/
theorem counts_of_perm {κ : Type} (kinds : List κ) {matching matching' : κ → List ComparisonRow}
    (h : ∀ kind, (matching' kind).Perm (matching kind)) :
    ((kinds.filter (matching' · ≠ [])).map fun kind => (kind, (matching' kind).length)) =
      (kinds.filter (matching · ≠ [])).map fun kind => (kind, (matching kind).length) := by
  have hnil (kind : κ) : matching' kind = [] ↔ matching kind = [] := by
    rw [← List.length_eq_zero_iff, (h kind).length_eq, List.length_eq_zero_iff]
  simp only [ne_eq, hnil, (h _).length_eq]

theorem categories_of_perm (hperm : others.Perm rows) :
    (categoryFindings others).map (fun finding => (finding.category, finding.count)) =
      (categoryFindings rows).map fun finding => (finding.category, finding.count) := by
  rw [categoryFindings_eq, categoryFindings_eq, List.map_map, List.map_map]
  exact counts_of_perm _ (inCategory_perm hperm)

theorem scales_of_perm (hperm : others.Perm rows) :
    (scaleFindings others).map (fun finding => (finding.scale, finding.count)) =
      (scaleFindings rows).map fun finding => (finding.scale, finding.count) := by
  rw [scaleFindings_eq, scaleFindings_eq, List.map_map, List.map_map]
  exact counts_of_perm _ (ofScale_perm hperm)

/-! ## Extremes -/

/-- Numbers that nothing beats are equal as numbers, if each is among what the other is not beaten
by. -/
theorem extreme_of_perm {v : Float → ℚ} (hv : ∀ {x y : Float}, v x = v y → value x = value y)
    {xs ys : List Float} (hperm : ys.Perm xs) (hfinite : ∀ x ∈ xs, x.isFinite = true)
    {m m' : Float} (hm : m ∈ xs ∧ ∀ x ∈ xs, v x ≤ v m) (hm' : m' ∈ ys ∧ ∀ y ∈ ys, v y ≤ v m') :
    (m' == m) = true := by
  have hmem : m' ∈ xs := hperm.mem_iff.mp hm'.1
  rw [beq_iff_value (isNaN_of_isFinite (hfinite _ hmem)) (isNaN_of_isFinite (hfinite _ hm.1))]
  exact hv (le_antisymm (hm.2 m' hmem) (hm'.2 m (hperm.mem_iff.mpr hm.1)))

theorem extremes_of_perm (hne : rows ≠ []) (hne' : others ≠ [])
    (hfinite : ∀ row ∈ rows, row.ratio.isFinite = true) (hperm : others.Perm rows) :
    (bestRatio others == bestRatio rows) = true ∧
      (leastRatio others == leastRatio rows) = true := by
  have hfinite' : ∀ row ∈ others, row.ratio.isFinite = true :=
    fun row hrow => hfinite row (hperm.mem_iff.mp hrow)
  have hratios : (others.map (·.ratio)).Perm (rows.map (·.ratio)) := hperm.map _
  have hnumbers := Averages.ratios_finite hfinite
  constructor
  · exact extreme_of_perm id hratios hnumbers (Averages.bestRatio_extreme hne hfinite)
      (Averages.bestRatio_extreme hne' hfinite')
  · obtain ⟨hmem, hall⟩ := Averages.leastRatio_extreme hne hfinite
    obtain ⟨hmem', hall'⟩ := Averages.leastRatio_extreme hne' hfinite'
    exact extreme_of_perm (v := fun x => -value x) neg_inj.mp hratios hnumbers
      ⟨hmem, fun x hx => neg_le_neg (hall x hx)⟩ ⟨hmem', fun x hx => neg_le_neg (hall' x hx)⟩

theorem summary_of_perm (totalTests : Nat) (hfinite : ∀ row ∈ rows, row.ratio.isFinite = true)
    (hperm : others.Perm rows) :
    Option.Rel SameExtremes (improvementSummary totalTests rows)
      (improvementSummary totalTests others) := by
  have hnil : others = [] ↔ rows = [] := by
    rw [← List.length_eq_zero_iff, hperm.length_eq, List.length_eq_zero_iff]
  rw [improvementSummary_eq, improvementSummary_eq]
  by_cases hne : rows = []
  · rw [if_pos hne, if_pos (hnil.mpr hne)]
    exact .none
  · have hne' := mt hnil.mp hne
    obtain ⟨hbest, hleast⟩ := extremes_of_perm hne hne' hfinite hperm
    rw [if_neg hne, if_neg hne']
    exact .some ⟨rfl, hbest, hleast⟩

/-! ## The aggregate -/

theorem scalingGroups_of_known (hknown : ∀ row ∈ rows, Known row) :
    ∃ groups, Complete rows groups ∧ scalingGroups rows = .ok groups := by
  rcases scalingGroups_cases rows with
    ⟨fault, ⟨before, row, after, rfl, -, hunknown, -⟩, -⟩ | ⟨groups, -, hcomplete, hok⟩
  · exact absurd (hknown row (by simp)) hunknown
  · exact ⟨groups, hcomplete, hok⟩

/-- Comparisons in another order are aggregated into the same groups, findings of the same kinds
and counts, and the same extremes. -/
theorem aggregate_of_perm (results : List ResultRow) (hperm : others.Perm rows)
    (hknown : ∀ row ∈ rows, Known row) (hfinite : ∀ row ∈ rows, row.ratio.isFinite = true) :
    ∃ data other, aggregate results rows = .ok data ∧ aggregate results others = .ok other ∧
      SameUpToOrder data other := by
  have hknown' : ∀ row ∈ others, Known row := fun row hrow => hknown row (hperm.mem_iff.mp hrow)
  obtain ⟨groups, hgroups, hok⟩ := scalingGroups_of_known hknown
  obtain ⟨found, hfound, hok'⟩ := scalingGroups_of_known hknown'
  rw [aggregate, aggregate, hok, hok']
  exact ⟨_, _, rfl, rfl, {
    keys := keys_of_perm hperm hgroups hfound
    groups := groups_of_perm hperm hgroups hfound
    categories := categories_of_perm hperm
    scales := scales_of_perm hperm
    summary := summary_of_perm results.length hfinite hperm }⟩

end

/-- Two zeros of different signs: which of them is the best depends on the order, but they are
equal as numbers. -/
theorem aggregate_of_reverse :
    let rows := [exampleRow "bulk_1000" "large" 0.0, exampleRow "bulk_1000" "small" (-0.0)]
    (rows.reverse.Perm rows ∧ (∀ row ∈ rows, Known row) ∧
      (∀ row ∈ rows, row.ratio.isFinite = true) ∧
      (bestRatio rows.reverse).toBits ≠ (bestRatio rows).toBits) ∧
    ∃ data other, aggregate [] rows = .ok data ∧ aggregate [] rows.reverse = .ok other ∧
      SameUpToOrder data other := by
  intro rows
  have hperm : rows.reverse.Perm rows := rows.reverse_perm
  have hknown : ∀ row ∈ rows, Known row := by
    simp [rows, Known, exampleRow]
  have hfinite : ∀ row ∈ rows, row.ratio.isFinite = true := by decide
  exact ⟨⟨hperm, hknown, hfinite, by decide⟩, aggregate_of_perm [] hperm hknown hfinite⟩

end PerfGate.Shuffled
