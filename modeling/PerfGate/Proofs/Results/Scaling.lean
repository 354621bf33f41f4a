import PerfGate.Proofs.Attempts
import PerfGate.Proofs.Results.Groups
import PerfGate.Proofs.Sorting
import PerfGate.Report.Refresh

/-!
# The scaling analysis

The analysis fails on the first comparison whose scale is not one of the three and on nothing
else. Otherwise every comparison is in the group of its test and operation, once, and a group
goes from small to large with the comparisons of each scale in their order. The report fails
with the analysis.
-/

set_option autoImplicit false

namespace PerfGate.Scaling

open Attempts Groups

/-! ## Known scales -/

def Known (row : ComparisonRow) : Prop :=
  row.scale = "small" ∨ row.scale = "medium" ∨ row.scale = "large"

def FirstUnknown (rows : List ComparisonRow) (fault : Fault) : Prop :=
  ∃ before row after, rows = before ++ row :: after ∧ (∀ r ∈ before, Known r) ∧ ¬ Known row ∧
    fault = .unknownScale row.scale

theorem parse_eq_ok_iff {s : String} {scale : DataScale} :
    DataScale.parse s = .ok scale ↔ s = scale.text := by
  constructor
  · intro h
    rw [DataScale.parse] at h
    split at h
    next found hfound =>
      obtain rfl := Except.ok.inj h
      have htext := List.find?_some (p := fun scale : DataScale => scale.text = s) hfound
      exact (of_decide_eq_true htext).symm
    next => exact nomatch h
  · rintro rfl
    cases scale <;> rfl

theorem parse_eq_error {s : String} {fault : Fault} (h : DataScale.parse s = .error fault) :
    fault = .unknownScale s := by
  rw [DataScale.parse] at h
  split at h
  next => exact nomatch h
  next => exact (Except.error.inj h).symm

theorem text_injective {a b : DataScale} (h : a.text = b.text) : a = b := by
  have ha := parse_eq_ok_iff.mpr (rfl : a.text = a.text)
  rw [h, parse_eq_ok_iff.mpr rfl] at ha
  exact (Except.ok.inj ha).symm

theorem known_iff {row : ComparisonRow} :
    Known row ↔ ∃ scale : DataScale, row.scale = scale.text := by
  constructor
  · rintro (h | h | h)
    · exact ⟨.small, h⟩
    · exact ⟨.medium, h⟩
    · exact ⟨.large, h⟩
  · rintro ⟨scale, h⟩
    cases scale with
    | small => exact .inl h
    | medium => exact .inr (.inl h)
    | large => exact .inr (.inr h)

/-! ## Rows with their scales -/

def withScale (row : ComparisonRow) : Except Fault (DataScale × ComparisonRow) :=
  (DataScale.parse row.scale).map (·, row)

section
variable {row : ComparisonRow} {rows : List ComparisonRow} {fault : Fault}
  {ranked : List (DataScale × ComparisonRow)}

theorem withScale_eq_ok_iff {pair : DataScale × ComparisonRow} :
    withScale row = .ok pair ↔ row.scale = pair.1.text ∧ row = pair.2 := by
  rw [← parse_eq_ok_iff, withScale]
  cases DataScale.parse row.scale with
  | error cause => simp [Except.map]
  | ok scale => simp [Except.map, Prod.ext_iff]

theorem known_iff_withScale : Known row ↔ ∃ pair, withScale row = .ok pair := by
  simp [known_iff, withScale_eq_ok_iff]

theorem withScale_eq_error_iff :
    withScale row = .error fault ↔ ¬ Known row ∧ fault = .unknownScale row.scale := by
  rw [known_iff_withScale, withScale]
  cases hparse : DataScale.parse row.scale with
  | error cause =>
    obtain rfl := parse_eq_error hparse
    simp [Except.map, eq_comm]
  | ok scale => simp [Except.map]

theorem withScales_eq_mapM (rows : List ComparisonRow) : withScales rows = rows.mapM withScale := by
  induction rows with
  | nil => rfl
  | cons row rest ih =>
    rw [withScales, List.mapM_cons, ← ih, withScale]
    cases DataScale.parse row.scale <;> rfl

theorem withScales_eq_error_iff : withScales rows = .error fault ↔ FirstUnknown rows fault := by
  rw [withScales_eq_mapM, mapM_eq_error_iff, FirstUnknown]
  simp only [← known_iff_withScale, withScale_eq_error_iff]

structure Ranked (rows : List ComparisonRow) (ranked : List (DataScale × ComparisonRow)) :
    Prop where
  rows : ranked.map (·.2) = rows
  scales : ∀ pair ∈ ranked, pair.2.scale = pair.1.text

theorem ranked_of_withScales (h : withScales rows = .ok ranked) : Ranked rows ranked := by
  rw [withScales_eq_mapM, mapM_eq_ok_iff] at h
  induction h with
  | nil => exact ⟨rfl, List.forall_mem_nil _⟩
  | @cons row pair rows ranked hpair _ ih =>
    obtain ⟨hscale, rfl⟩ := withScale_eq_ok_iff.mp hpair
    exact ⟨congrArg _ ih.rows, List.forall_mem_cons.mpr ⟨hscale, ih.scales⟩⟩

theorem Ranked.known (h : Ranked rows ranked) : ∀ row ∈ rows, Known row := by
  intro row hrow
  rw [← h.rows] at hrow
  obtain ⟨pair, hpair, rfl⟩ := List.mem_map.mp hrow
  exact known_iff.mpr ⟨pair.1, h.scales pair hpair⟩

/-! ## From small to large -/

/-- What ascends in scale is made up of the elements of each scale. -/
theorem eq_filter_append (h : ranked.Pairwise fun a b => a.1.rank ≤ b.1.rank) :
    ranked = ranked.filter (·.1 = .small) ++ ranked.filter (·.1 = .medium) ++
      ranked.filter (·.1 = .large) := by
  induction ranked with
  | nil => rfl
  | cons pair rest ih =>
    obtain ⟨hpair, hrest⟩ := List.pairwise_cons.mp h
    have hih := ih hrest
    have hnone : ∀ scale : DataScale, scale.rank < pair.1.rank → rest.filter (·.1 = scale) = [] :=
      fun scale hlt => List.filter_eq_nil_iff.mpr fun other hother hscale =>
        absurd (hpair other hother) (by rw [of_decide_eq_true hscale]; omega)
    obtain ⟨scale, row⟩ := pair
    cases scale with
    | small => simpa using hih
    | medium =>
      have hsmall := hnone .small (by simp [DataScale.rank])
      rw [hsmall, List.nil_append] at hih
      simpa [hsmall] using hih
    | large =>
      have hsmall := hnone .small (by simp [DataScale.rank])
      have hmedium := hnone .medium (by simp [DataScale.rank])
      rw [hsmall, hmedium, List.nil_append] at hih
      simpa [hsmall, hmedium] using hih

def byRank (a b : DataScale × ComparisonRow) : Bool := a.1.rank ≤ b.1.rank

theorem byRank_trans (a b c : DataScale × ComparisonRow) (hab : byRank a b = true)
    (hbc : byRank b c = true) : byRank a c = true := by
  simp only [byRank, decide_eq_true_eq] at *
  omega

theorem byRank_total (a b : DataScale × ComparisonRow) : (byRank a b || byRank b a) = true := by
  simp only [byRank, Bool.or_eq_true, decide_eq_true_eq]
  omega

theorem byScale_eq (ranked : List (DataScale × ComparisonRow)) :
    byScale ranked = (ranked.filter (·.1 = .small)).map (·.2) ++
      (ranked.filter (·.1 = .medium)).map (·.2) ++ (ranked.filter (·.1 = .large)).map (·.2) := by
  have hsorted := List.pairwise_mergeSort byRank_trans byRank_total ranked
  have hstable : ∀ scale : DataScale,
      (ranked.mergeSort byRank).filter (·.1 = scale) = ranked.filter (·.1 = scale) :=
    fun scale => Sorting.filter_mergeSort byRank_trans byRank_total
      (fun a b ha hb => by simp_all [byRank]) ranked
  have heq := eq_filter_append (hsorted.imp of_decide_eq_true)
  rw [hstable, hstable, hstable] at heq
  rw [← List.map_append, ← List.map_append, ← heq]
  rfl

/-! ## The groups of comparisons -/

def rowKey (row : ComparisonRow) : GroupKey := ⟨row.testName, row.operation⟩

def part (rows : List ComparisonRow) (key : GroupKey) (scale : String) : List ComparisonRow :=
  rows.filter fun row => rowKey row = key ∧ row.scale = scale

structure Complete (rows : List ComparisonRow) (groups : Groups ComparisonRow) : Prop where
  keys : ∀ key, key ∈ keys groups ↔ ∃ row ∈ rows, rowKey row = key
  ascending : Ascending groups
  nonempty : ∀ group ∈ groups, group.2 ≠ []
  members : ∀ group ∈ groups, group.2 =
    part rows group.1 "small" ++ part rows group.1 "medium" ++ part rows group.1 "large"
  perm : (groups.flatMap (·.2)).Perm rows

theorem Ranked.part_eq (h : Ranked rows ranked) (key : GroupKey) (scale : DataScale) :
    ((ranked.filter (rowKey ·.2 = key)).filter (·.1 = scale)).map (·.2) =
      part rows key scale.text := by
  rw [part, ← h.rows, List.filter_map, List.filter_filter]
  congr 1
  refine List.filter_congr fun pair hpair => ?_
  have hscale : pair.1 = scale ↔ pair.2.scale = scale.text := by
    rw [h.scales pair hpair]
    exact ⟨congrArg _, text_injective⟩
  simp [hscale, and_comm]

theorem Ranked.complete (h : Ranked rows ranked) :
    Complete rows
      ((Groups.of (rowKey ·.2) ranked).map fun group => (group.1, byScale group.2)) := by
  have hpartition := of_partition (fun pair : DataScale × ComparisonRow => rowKey pair.2) ranked
  generalize Groups.of (rowKey ·.2) ranked = groups at hpartition
  have hkeys : Groups.keys (groups.map fun group => (group.1, byScale group.2)) =
      Groups.keys groups := by
    rw [Groups.keys, List.map_map]
    rfl
  have hmembers : ∀ group ∈ groups, byScale group.2 =
      part rows group.1 "small" ++ part rows group.1 "medium" ++ part rows group.1 "large" := by
    intro group hgroup
    rw [byScale_eq, hpartition.members group hgroup, h.part_eq, h.part_eq, h.part_eq]
    rfl
  have hperm : ∀ group ∈ groups, (byScale group.2).Perm (group.2.map (·.2)) := fun group _ =>
    (List.mergeSort_perm group.2 _).map _
  exact {
    keys := fun key => by
      rw [hkeys, hpartition.mem_keys, ← h.rows]
      simp only [List.mem_map, exists_exists_and_eq_and]
    ascending := by
      rw [Ascending, hkeys]
      exact hpartition.ascending
    nonempty := fun group hgroup => by
      obtain ⟨before, hbefore, rfl⟩ := List.mem_map.mp hgroup
      intro hempty
      have hnil := (hperm before hbefore).symm.trans (List.perm_nil.mpr hempty)
      exact hpartition.ne_nil hbefore (List.map_eq_nil_iff.mp (List.perm_nil.mp hnil))
    members := fun group hgroup => by
      obtain ⟨before, hbefore, rfl⟩ := List.mem_map.mp hgroup
      exact hmembers before hbefore
    perm := by
      rw [List.flatMap_map, ← h.rows]
      refine (List.Perm.flatMap_left groups hperm).trans ?_
      rw [← List.map_flatMap]
      exact hpartition.perm.map _ }

theorem scalingGroups_cases (rows : List ComparisonRow) :
    (∃ fault, FirstUnknown rows fault ∧ scalingGroups rows = .error fault) ∨
      ∃ groups, (∀ row ∈ rows, Known row) ∧ Complete rows groups ∧
        scalingGroups rows = .ok groups := by
  rw [scalingGroups]
  cases hranked : withScales rows with
  | error fault => exact .inl ⟨fault, withScales_eq_error_iff.mp hranked, rfl⟩
  | ok ranked =>
    have h := ranked_of_withScales hranked
    exact .inr ⟨_, h.known, h.complete, rfl⟩

/-- The analysis fails on the first unknown scale, and with it the aggregation and the report,
whatever the results are; otherwise its groups are complete. -/
theorem scaling_complete (rows : List ComparisonRow) :
    (∃ fault, FirstUnknown rows fault ∧ scalingGroups rows = .error fault ∧
      ∀ results, aggregate results rows = .error fault ∧
        ∀ generated, Report.refreshReport results rows generated = .error fault) ∨
    ∃ groups, (∀ row ∈ rows, Known row) ∧ Complete rows groups ∧ scalingGroups rows = .ok groups ∧
      ∀ results, ∃ data, data.scaling = groups ∧ aggregate results rows = .ok data ∧
        ∀ generated, ∃ text, Report.refreshReport results rows generated = .ok text := by
  rcases scalingGroups_cases rows with ⟨fault, hunknown, herror⟩ | ⟨groups, hknown, hcomplete, hok⟩
  · have haggregate (results : List ResultRow) : aggregate results rows = .error fault := by
      rw [aggregate, herror]
      rfl
    refine .inl ⟨fault, hunknown, herror, fun results => ⟨haggregate results, fun generated => ?_⟩⟩
    rw [Report.refreshReport, haggregate]
    rfl
  · refine .inr ⟨groups, hknown, hcomplete, hok, fun results => ?_⟩
    obtain ⟨data, hdata, haggregate⟩ : ∃ data : Aggregate, data.scaling = groups ∧
        aggregate results rows = .ok data := by
      rw [aggregate, hok]
      exact ⟨_, rfl, rfl⟩
    refine ⟨data, hdata, haggregate, fun generated => ?_⟩
    rw [Report.refreshReport, haggregate]
    exact ⟨_, rfl⟩

end

end PerfGate.Scaling
