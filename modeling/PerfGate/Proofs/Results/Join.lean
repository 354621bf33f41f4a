import PerfGate.Proofs.Number.TotalOrder
import PerfGate.Proofs.Sorting
import PerfGate.Proofs.Text.Ending

/-!
# Pairing is a nested search

The plain join looks for each row through all rows. An index that keeps the last row of a key
finds the same partner, and the order of the comparisons is a stable sort of the join by the
total order of their ratios.
-/

set_option autoImplicit false

namespace PerfGate.Join

open Pairing Number

/-! ## The plain join -/

def Partners (row full : ResultRow) : Prop :=
  full.scenario = row.scenario ∧ full.testName = row.testName ∧ full.scale = row.scale ∧
    ∃ stem, row.operation = stem ++ "_incremental" ∧ full.operation = stem ++ "_full_refresh"

theorem stem_iff (row full : ResultRow) :
    (∃ stem ∈ Text.stem? row.operation incrementalSuffix,
      full.operation = stem ++ fullRefreshSuffix) ↔
    ∃ stem, row.operation = stem ++ "_incremental" ∧ full.operation = stem ++ "_full_refresh" := by
  refine exists_congr fun stem => and_congr_left fun _ => ?_
  exact Option.mem_def.trans Ending.stem?_eq_some_iff

instance (row full : ResultRow) : Decidable (Partners row full) :=
  @instDecidableAnd _ _ _ (@instDecidableAnd _ _ _ (@instDecidableAnd _ _ _
    (decidable_of_iff _ (stem_iff row full))))

/-- One row set beside its last partner among all rows. -/
def joinRow (rows : List ResultRow) (row : ResultRow) : Option ComparisonRow :=
  if 0.0 < row.time then
    ((rows.filter (Partners row ·)).getLast?).map fun full =>
      { scenario := row.scenario
        testName := row.testName
        scale := row.scale
        operation := row.operation
        rowsAffected := row.rowsAffected
        baseline := full.time
        incremental := row.time
        ratio := full.time / row.time
        saved := full.time - row.time }
  else none

def plainJoin (rows : List ResultRow) : List ComparisonRow :=
  rows.filterMap (joinRow rows)

/-- The place of a comparison in the total order of ratios. The ratio of two infinite times is
undefined and has a negative word, so it comes last. -/
def rank (c : ComparisonRow) : Int :=
  totalKey (if c.ratio.isNaN then 0xfff8000000000000 else c.ratio.toBits)

def descending (a b : ComparisonRow) : Bool := rank b ≤ rank a

/-! ## The index -/

theorem index_append (rows : List ResultRow) (row : ResultRow) :
    index (rows ++ [row]) = if Text.endsWith row.operation fullRefreshSuffix = true then
      (index rows).insert (keyOf row) row else index rows := by
  simp only [index, List.foldl_append, List.foldl_cons, List.foldl_nil]

/-- The index holds the last full refresh with a key. -/
theorem index_getElem? (rows : List ResultRow) (key : Key) :
    (index rows)[key]? = (rows.filter fun full =>
      Text.endsWith full.operation fullRefreshSuffix ∧ keyOf full = key).getLast? := by
  induction rows using List.reverseRecOn with
  | nil => simp [index]
  | append_singleton rows row ih =>
    rw [index_append, List.filter_append]
    by_cases hends : Text.endsWith row.operation fullRefreshSuffix = true
    · rw [if_pos hends, Std.HashMap.getElem?_insert]
      by_cases hkey : keyOf row = key
      · simp [hends, hkey]
      · simp [hkey, ih]
    · rw [if_neg hends, ih]
      simp [hends]

theorem partner_eq (rows : List ResultRow) (row : ResultRow) :
    (partnerKey? row).bind (fun key => (index rows)[key]?) =
      (rows.filter (Partners row ·)).getLast? := by
  cases hstem : Text.stem? row.operation incrementalSuffix with
  | none =>
    have hnone : rows.filter (Partners row ·) = [] := by
      refine List.filter_eq_nil_iff.mpr fun full _ => ?_
      rw [decide_eq_true_iff]
      rintro ⟨_, _, _, h⟩
      obtain ⟨stem, hmem, _⟩ := (stem_iff row full).mpr h
      rw [hstem] at hmem
      exact nomatch hmem
    rw [partnerKey?, hstem, hnone]
    rfl
  | some stem =>
    have hrow := Ending.stem?_eq_some_iff.mp hstem
    rw [partnerKey?, hstem, Option.map_some, Option.bind_some, index_getElem?]
    refine congrArg List.getLast? (List.filter_congr fun full _ => decide_eq_decide.mpr ?_)
    constructor
    · rintro ⟨_, hkey⟩
      obtain ⟨hscenario, htest, hscale, hoperation⟩ := Key.mk.inj hkey
      exact ⟨hscenario, htest, hscale, stem, hrow, hoperation⟩
    · rintro ⟨hscenario, htest, hscale, stem', hrow', hoperation⟩
      have hsame : some stem' = some stem :=
        (Ending.stem?_eq_some_iff.mpr hrow').symm.trans hstem
      rw [Option.some.inj hsame] at hoperation
      refine ⟨Ending.endsWith_iff.mpr ⟨stem, hoperation⟩, ?_⟩
      rw [keyOf, hscenario, htest, hscale, hoperation]
      rfl

/-! ## The join -/

variable {rows : List ResultRow}

theorem join?_eq (rows : List ResultRow) (row : ResultRow) :
    join? (index rows) row = ((rows.filter (Partners row ·)).getLast?).bind fun full =>
      if row.time ≤ 0.0 then none
      else some ⟨orderKey (ratioWord full row), compared full row⟩ := by
  rw [← partner_eq, Option.bind_assoc]
  rfl

theorem exists_of_mem_joined {ranked : Ranked} (h : ranked ∈ joined rows) :
    ∃ row ∈ rows, ∃ full ∈ rows, Partners row full ∧ ¬ row.time ≤ 0.0 ∧
      ranked = ⟨orderKey (ratioWord full row), compared full row⟩ := by
  obtain ⟨row, hrow, hjoin⟩ := List.mem_filterMap.mp h
  rw [join?_eq] at hjoin
  obtain ⟨full, hfull, hsome⟩ := Option.bind_eq_some_iff.mp hjoin
  obtain ⟨hmem, hpartner⟩ := List.mem_filter.mp (List.mem_of_getLast? hfull)
  split at hsome
  next => exact nomatch hsome
  next htime =>
    exact ⟨row, hrow, full, hmem, of_decide_eq_true hpartner, htime, (Option.some.inj hsome).symm⟩

/-- A comparison sets two results beside each other that go together. -/
theorem exists_of_mem {c : ComparisonRow} (h : c ∈ pairComparisons rows) :
    ∃ row ∈ rows, ∃ full ∈ rows, Partners row full ∧ ¬ row.time ≤ 0.0 ∧ c = compared full row := by
  obtain ⟨ranked, hranked, rfl⟩ := List.mem_map.mp h
  obtain ⟨row, hrow, full, hfull, hpartner, htime, rfl⟩ :=
    exists_of_mem_joined (List.mem_mergeSort.mp hranked)
  exact ⟨row, hrow, full, hfull, hpartner, htime, rfl⟩

theorem join?_row {row : ResultRow} (h : row.time.isNaN = false) :
    (join? (index rows) row).map (·.row) = joinRow rows row := by
  have hzero : (0.0 : Float).isNaN = false := by decide
  rw [join?_eq, joinRow]
  by_cases hpositive : 0.0 < row.time
  · rw [if_pos hpositive]
    have hle : ¬ row.time ≤ 0.0 := (not_le_iff_lt h hzero).mpr hpositive
    simp only [if_neg hle]
    cases (rows.filter (Partners row ·)).getLast? <;> rfl
  · rw [if_neg hpositive]
    have hle : row.time ≤ 0.0 := not_not.mp (mt (not_le_iff_lt h hzero).mp hpositive)
    simp only [if_pos hle]
    cases (rows.filter (Partners row ·)).getLast? <;> rfl

theorem joined_rows (h : ∀ row ∈ rows, row.time.isNaN = false) :
    (joined rows).map (·.row) = plainJoin rows := by
  rw [joined, plainJoin, List.map_filterMap]
  exact List.filterMap_congr fun row hrow => join?_row (h row hrow)

theorem joined_rank (h : ∀ row ∈ rows, row.time.isNaN = false) :
    ∀ ranked ∈ joined rows, ranked.rank = rank ranked.row := by
  intro ranked hranked
  obtain ⟨row, hrow, full, hfull, -, -, rfl⟩ := exists_of_mem_joined hranked
  rw [rank, ← orderKey_eq_totalKey, ratioWord, h row hrow, h full hfull]
  rfl

theorem pairComparisons_eq (h : ∀ row ∈ rows, row.time.isNaN = false) :
    pairComparisons rows = (plainJoin rows).mergeSort descending := by
  rw [pairComparisons, ← joined_rows h]
  refine List.map_mergeSort fun a ha b hb => ?_
  rw [joined_rank h a ha, joined_rank h b hb, descending]

/-! ## The order -/

theorem descending_trans (a b c : ComparisonRow) (hab : descending a b = true)
    (hbc : descending b c = true) : descending a c = true := by
  simp only [descending, decide_eq_true_eq] at *
  omega

theorem descending_total (a b : ComparisonRow) : (descending a b || descending b a) = true := by
  simp only [descending, Bool.or_eq_true, decide_eq_true_eq]
  omega

/-- Comparisons of one rank stay in their order. -/
theorem filter_mergeSort (cs : List ComparisonRow) (k : Int) :
    (cs.mergeSort descending).filter (rank · = k) = cs.filter (rank · = k) :=
  Sorting.filter_mergeSort descending_trans descending_total
    (fun a b ha hb => by simp_all [descending]) cs

/-- A greater ratio has a greater rank. -/
theorem rank_lt {a b : ComparisonRow} (h : a.ratio < b.ratio) : rank a < rank b := by
  obtain ⟨ha, hb⟩ := isNaN_of_lt h
  rw [rank, rank, ha, hb]
  exact totalKey_lt ha hb h

/-- Pairing is the plain join in a stable order, the greatest ratio first. -/
theorem pairs_sort_join (rows : List ResultRow) (h : ∀ row ∈ rows, row.time.isNaN = false) :
    pairComparisons rows = (plainJoin rows).mergeSort descending ∧
    (pairComparisons rows).Perm (plainJoin rows) ∧
    (pairComparisons rows).Pairwise (fun a b => rank b ≤ rank a ∧ ¬ a.ratio < b.ratio) ∧
    ∀ k, (pairComparisons rows).filter (rank · = k) = (plainJoin rows).filter (rank · = k) := by
  rw [pairComparisons_eq h]
  refine ⟨rfl, List.mergeSort_perm _ _, ?_, filter_mergeSort (plainJoin rows)⟩
  refine (List.pairwise_mergeSort descending_trans descending_total _).imp fun {a b} hab => ?_
  have hrank : rank b ≤ rank a := of_decide_eq_true hab
  exact ⟨hrank, fun hratio => absurd (rank_lt hratio) (not_lt.mpr hrank)⟩

def exampleRow (operation : String) (time : Float) : ResultRow where
  scenario := "s"
  testName := "t"
  scale := "small"
  operation := operation
  rowsAffected := 1
  cascadeDepth := none
  time := time
  notes := none

/-- The later of two full refreshes is the partner. -/
theorem pairs_of_three :
    let rows := [exampleRow "a_full_refresh" 3.0, exampleRow "a_incremental" 2.0,
      exampleRow "a_full_refresh" 8.0]
    (∀ row ∈ rows, row.time.isNaN = false) ∧
      (pairComparisons rows).map (fun c => (c.operation, c.baseline)) =
        [("a_incremental", 8.0)] := by
  intro rows
  have hrows : ∀ row ∈ rows, row.time.isNaN = false := by decide
  have hperm := (pairs_sort_join rows hrows).2.1.map fun c => (c.operation, c.baseline)
  have hjoin : (plainJoin rows).map (fun c => (c.operation, c.baseline)) =
      [("a_incremental", 8.0)] := by
    decide +kernel
  rw [hjoin] at hperm
  exact ⟨hrows, List.perm_singleton.mp hperm⟩

end PerfGate.Join
