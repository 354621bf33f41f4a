import PerfGate.Proofs.Results.Join

/-!
# Results in another order

A comparison needs a result and the full refresh that goes with it, wherever the two stand. If each
full refresh has a key of its own, the index holds the same rows whatever order they come in, and
so the comparisons are the same. Only comparisons of one ratio keep the order of their results.
-/

set_option autoImplicit false

namespace PerfGate.Reordered

open Number Pairing

def DistinctRefreshes (rows : List ResultRow) : Prop :=
  rows.Pairwise fun a b => Text.endsWith a.operation "_full_refresh" = true →
    Text.endsWith b.operation "_full_refresh" = true → keyOf a ≠ keyOf b

instance (rows : List ResultRow) : Decidable (DistinctRefreshes rows) :=
  inferInstanceAs (Decidable (rows.Pairwise _))

def refreshes (rows : List ResultRow) (key : Key) : List ResultRow :=
  rows.filter fun row => Text.endsWith row.operation fullRefreshSuffix ∧ keyOf row = key

section
variable {rows others : List ResultRow}

/-! ## The index -/

theorem DistinctRefreshes.of_perm (h : DistinctRefreshes rows) (hperm : others.Perm rows) :
    DistinctRefreshes others := by
  refine (List.Perm.pairwise_iff ?_ hperm).mpr h
  intro a b hab hb ha heq
  exact hab ha hb heq.symm

theorem mem_refreshes {key : Key} {full : ResultRow} : full ∈ refreshes rows key ↔
    full ∈ rows ∧ Text.endsWith full.operation fullRefreshSuffix = true ∧ keyOf full = key := by
  rw [refreshes, List.mem_filter, decide_eq_true_eq]

/-- A full refresh is alone with its key. -/
theorem refreshes_eq_singleton (h : DistinctRefreshes rows) {key : Key} {full : ResultRow}
    (hfull : full ∈ refreshes rows key) : refreshes rows key = [full] := by
  have hnone : (refreshes rows key).Pairwise fun _ _ => False := by
    refine (h.sublist List.filter_sublist).imp_of_mem ?_
    intro a b ha hb hab
    obtain ⟨-, hendsa, hkeya⟩ := mem_refreshes.mp ha
    obtain ⟨-, hendsb, hkeyb⟩ := mem_refreshes.mp hb
    exact hab hendsa hendsb (hkeya.trans hkeyb.symm)
  generalize refreshes rows key = found at *
  cases found with
  | nil => exact absurd hfull List.not_mem_nil
  | cons first rest =>
    have hrest : rest = [] :=
      List.eq_nil_iff_forall_not_mem.mpr (List.pairwise_cons.mp hnone).1
    subst hrest
    rw [List.mem_singleton.mp hfull]

/-- With distinct keys the index is known by what is among the rows. -/
theorem index_eq_some_iff (h : DistinctRefreshes rows) {key : Key} {full : ResultRow} :
    (index rows)[key]? = some full ↔
      full ∈ rows ∧ Text.endsWith full.operation fullRefreshSuffix = true ∧ keyOf full = key := by
  rw [Join.index_getElem?, ← refreshes, ← mem_refreshes]
  constructor
  · intro hlast
    exact List.mem_of_getLast? hlast
  · intro hfull
    rw [refreshes_eq_singleton h hfull]
    rfl

theorem index_of_perm (h : DistinctRefreshes rows) (hperm : others.Perm rows) (key : Key) :
    (index others)[key]? = (index rows)[key]? := by
  apply Option.ext
  intro full
  rw [index_eq_some_iff h, index_eq_some_iff (h.of_perm hperm), hperm.mem_iff]

/-! ## The comparisons -/

theorem join?_of_perm (h : DistinctRefreshes rows) (hperm : others.Perm rows) (row : ResultRow) :
    join? (index others) row = join? (index rows) row := by
  simp only [join?, index_of_perm h hperm]

theorem joined_perm (h : DistinctRefreshes rows) (hperm : others.Perm rows) :
    (joined others).Perm (joined rows) := by
  rw [joined, joined, funext (join?_of_perm h hperm)]
  exact hperm.filterMap _

theorem pairComparisons_perm (h : DistinctRefreshes rows) (hperm : others.Perm rows) :
    (pairComparisons others).Perm (pairComparisons rows) := by
  have hsorted (rows : List ResultRow) :=
    List.mergeSort_perm (joined rows) fun a b => b.rank ≤ a.rank
  exact (((hsorted others).trans (joined_perm h hperm)).trans (hsorted rows).symm).map _

/-- Comparisons of distinct ranks have one order. -/
theorem pairComparisons_eq_of_ranks (h : DistinctRefreshes rows) (hperm : others.Perm rows)
    (hranks : ((joined rows).map (·.rank)).Nodup) :
    pairComparisons others = pairComparisons rows := by
  rw [pairComparisons, pairComparisons]
  refine congrArg (List.map (·.row)) (Sorting.mergeSort_eq_of_perm ?_ ?_ (joined_perm h hperm) ?_)
  · intro a b c hab hbc
    rw [decide_eq_true_eq] at *
    omega
  · intro a b
    rw [Bool.or_eq_true, decide_eq_true_eq, decide_eq_true_eq]
    omega
  · intro a ha b hb hab hba
    apply List.inj_on_of_nodup_map hranks ha hb
    exact le_antisymm (of_decide_eq_true hba) (of_decide_eq_true hab)

/-! ## Ratios and their ranks -/

theorem ratioWord_of_number {full row : ResultRow}
    (h : (compared full row).ratio.isNaN = false) :
    ratioWord full row = (compared full row).ratio.toBits := by
  change (full.time / row.time).isNaN = false at h
  rw [ratioWord, h]
  rfl

theorem ratioWord_of_isNaN {full row : ResultRow}
    (h : (compared full row).ratio.isNaN = true) :
    infinityWord < (ratioWord full row).toNat % Decimal.Binary.signBit := by
  change (full.time / row.time).isNaN = true at h
  rw [ratioWord, h]
  by_cases hfullword : full.time.isNaN = true
  · simp only [hfullword, if_true]
    exact infinityWord_lt_or (infinityWord_lt_of_isNaN full.timeWord.undefined) _
  by_cases hrowword : row.time.isNaN = true
  · simp only [hfullword, hrowword, if_true]
    exact infinityWord_lt_or (infinityWord_lt_of_isNaN row.timeWord.undefined) _
  · simp only [hfullword, hrowword, Bool.false_eq_true, if_true, if_false]
    decide

/-- The word of a ratio tells the ratio. -/
theorem ratio_eq_of_word {full row full' row' : ResultRow}
    (h : ratioWord full row = ratioWord full' row') :
    (compared full row).ratio = (compared full' row').ratio := by
  cases hnumber : (compared full row).ratio.isNaN with
  | true =>
    have hword := ratioWord_of_isNaN hnumber
    cases hnumber' : (compared full' row').ratio.isNaN with
    | true => exact eq_of_isNaN hnumber hnumber'
    | false =>
      rw [h, ratioWord_of_number hnumber'] at hword
      exact absurd (isNaN_iff.mpr hword) (Bool.eq_false_iff.mp hnumber')
  | false =>
    have hword := ratioWord_of_number hnumber
    cases hnumber' : (compared full' row').ratio.isNaN with
    | true =>
      have hword' := ratioWord_of_isNaN hnumber'
      rw [← h, hword] at hword'
      exact absurd (isNaN_iff.mpr hword') (Bool.eq_false_iff.mp hnumber)
    | false =>
      rw [hword, ratioWord_of_number hnumber'] at h
      exact eq_of_toBits h

/-- Distinct ratios have distinct ranks. -/
theorem ranks_nodup (hratios : ((pairComparisons rows).map (·.ratio)).Nodup) :
    ((joined rows).map (·.rank)).Nodup := by
  have hjoined : ((joined rows).map (·.row.ratio)).Nodup := by
    rw [pairComparisons, List.map_map] at hratios
    exact ((List.mergeSort_perm (joined rows) _).map _).nodup_iff.mp hratios
  rw [List.Nodup, List.pairwise_map] at hjoined ⊢
  refine hjoined.imp_of_mem ?_
  intro a b ha hb hne hrank
  obtain ⟨row, -, full, -, -, -, rfl⟩ := Join.exists_of_mem_joined ha
  obtain ⟨row', -, full', -, -, -, rfl⟩ := Join.exists_of_mem_joined hb
  exact hne (ratio_eq_of_word (orderKey_injective hrank))

/-- If no two full refreshes share a key, results in another order give the same comparisons, in
the same order too where their ratios differ. -/
theorem pairs_of_perm (hrefreshes : DistinctRefreshes rows) (hperm : others.Perm rows) :
    (pairComparisons others).Perm (pairComparisons rows) ∧
    (((joined rows).map (·.rank)).Nodup → pairComparisons others = pairComparisons rows) ∧
    (((pairComparisons rows).map (·.ratio)).Nodup →
      pairComparisons others = pairComparisons rows) := by
  refine ⟨pairComparisons_perm hrefreshes hperm, ?_, ?_⟩
  · intro hranks
    exact pairComparisons_eq_of_ranks hrefreshes hperm hranks
  · intro hratios
    exact pairComparisons_eq_of_ranks hrefreshes hperm (ranks_nodup hratios)

end

/-- Two pairs of results and the same in the opposite order. The times of one pair are infinite, and
their ratio is undefined. -/
theorem pairs_of_reverse :
    let infinity := Float.ofBits 0x7ff0000000000000
    let rows := [
      Join.exampleRow "a_full_refresh" infinity, Join.exampleRow "a_incremental" infinity,
      Join.exampleRow "b_incremental" 2.0, Join.exampleRow "b_full_refresh" 8.0]
    (DistinctRefreshes rows ∧ rows.reverse.Perm rows ∧ ((joined rows).map (·.rank)).Nodup ∧
      ((pairComparisons rows).map (·.ratio)).Nodup) ∧
    (pairComparisons rows.reverse).Perm (pairComparisons rows) ∧
    pairComparisons rows.reverse = pairComparisons rows := by
  intro infinity rows
  have hrefreshes : DistinctRefreshes rows := by decide
  have hperm : rows.reverse.Perm rows := rows.reverse_perm
  have hratios : ((pairComparisons rows).map (·.ratio)).Nodup := by
    rw [Join.pairComparisons_eq (by decide), ((List.mergeSort_perm _ _).map _).nodup_iff]
    decide +kernel
  obtain ⟨hsame, -, hequal⟩ := pairs_of_perm hrefreshes hperm
  have hranks := ranks_nodup hratios
  exact ⟨⟨hrefreshes, hperm, hranks, hratios⟩, hsame, hequal hratios⟩

end PerfGate.Reordered
