import PerfGate.Proofs.Results.Join
import PerfGate.Proofs.Text.Erasure
import PerfGate.Report.Refresh

/-!
# Operations in the table of comparisons

Two results are paired by the stem of their operations, and the table shows the operation without
any mark of an incremental refresh. That is the stem exactly if the stem has no such mark of its
own. Otherwise less than the stem is shown, and comparisons of different operations can look the
same.
-/

set_option autoImplicit false

namespace PerfGate.Operations

open Pairing Report Occurrence

def PairedBy (rows : List ResultRow) (stem : String) (c : ComparisonRow) : Prop :=
  ∃ row ∈ rows, ∃ full ∈ rows,
    row.operation = stem ++ "_incremental" ∧ full.operation = stem ++ "_full_refresh" ∧
    Join.Partners row full ∧ c = compared full row

def shown (c : ComparisonRow) : Option String := (comparisonCells c)[3]?

section
variable {rows : List ResultRow} {c : ComparisonRow} {stem : String}

theorem exists_pairedBy (h : c ∈ pairComparisons rows) : ∃ stem, PairedBy rows stem c := by
  obtain ⟨row, hrow, full, hfull, hpartners, -, rfl⟩ := Join.exists_of_mem h
  obtain ⟨-, -, -, stem, hstem, hfullstem⟩ := id hpartners
  exact ⟨stem, row, hrow, full, hfull, hstem, hfullstem, hpartners, rfl⟩

theorem PairedBy.operation_eq (h : PairedBy rows stem c) :
    c.operation = stem ++ "_incremental" := by
  obtain ⟨row, -, full, -, hstem, -, -, rfl⟩ := h
  exact hstem

/-- The mark at the end of the operation is left out, and so is every mark in the stem. -/
theorem shown_eq (h : c.operation = stem ++ "_incremental") :
    shown c = some (Text.erase stem "_incremental") := by
  have hmark : "_incremental".toList = '_' :: "incremental".toList := by decide
  change some (Text.erase c.operation "_incremental") = _
  rw [h, Erasure.erase_append hmark (by decide)]

theorem shown_eq_stem_iff (h : c.operation = stem ++ "_incremental") :
    shown c = some stem ↔ ¬ Occurs "_incremental" stem := by
  rw [shown_eq h, Option.some.injEq, Erasure.erase_eq_self_iff (by decide)]

theorem stem_eq_iff {stem' : String} :
    stem ++ "_incremental" = stem' ++ "_incremental" ↔ stem = stem' := by
  rw [← Ending.stem?_eq_some_iff, Ending.stem?_append, Option.some.injEq]

end

/-- Every comparison is of two results paired by a stem, and the table shows the stem without the
marks that are in it. It shows the stem itself exactly if it has none, and comparisons whose stems
have none are shown alike exactly if they are of one operation. -/
theorem shown_without_marks (rows : List ResultRow) :
    (∀ c ∈ pairComparisons rows, ∃ stem, PairedBy rows stem c) ∧
    (∀ c stem, PairedBy rows stem c → shown c = some (Text.erase stem "_incremental") ∧
      (shown c = some stem ↔ ¬ Occurs "_incremental" stem)) ∧
    ∀ c other stem stem', PairedBy rows stem c → PairedBy rows stem' other →
      ¬ Occurs "_incremental" stem → ¬ Occurs "_incremental" stem' →
      (shown c = shown other ↔ c.operation = other.operation) := by
  refine ⟨fun c hc => exists_pairedBy hc, fun c stem hpaired => ?_, ?_⟩
  · exact ⟨shown_eq hpaired.operation_eq, shown_eq_stem_iff hpaired.operation_eq⟩
  · intro c other stem stem' hc hother hnone hnone'
    rw [(shown_eq_stem_iff hc.operation_eq).mpr hnone,
      (shown_eq_stem_iff hother.operation_eq).mpr hnone', hc.operation_eq, hother.operation_eq,
      Option.some.injEq, stem_eq_iff]

/-! ## Marks in stems -/

def markedRows : List ResultRow := [
  Join.exampleRow "a_incremental_incremental" 2.0, Join.exampleRow "a_incremental_full_refresh" 6.0,
  Join.exampleRow "a_incremental" 2.0, Join.exampleRow "a_full_refresh" 8.0,
  Join.exampleRow "b_incremental" 2.0, Join.exampleRow "b_full_refresh" 10.0]

/-- The stems of the three comparisons and what is shown of them. -/
theorem exists_marked {stem cell : String}
    (h : (stem ++ "_incremental", some cell) ∈ [("a_incremental_incremental", some "a"),
      ("a_incremental", some "a"), ("b_incremental", some "b")]) :
    ∃ c ∈ pairComparisons markedRows, PairedBy markedRows stem c ∧ shown c = some cell := by
  have hjoin : (Join.plainJoin markedRows).map (fun c => (c.operation, shown c)) =
      [("a_incremental_incremental", some "a"), ("a_incremental", some "a"),
        ("b_incremental", some "b")] := by
    decide +kernel
  rw [← hjoin] at h
  obtain ⟨c, hc, heq⟩ := List.mem_map.mp h
  obtain ⟨hoperation, hcell⟩ := Prod.mk.inj heq
  have hmem : c ∈ pairComparisons markedRows := by
    rw [Join.pairComparisons_eq (by decide)]
    exact List.mem_mergeSort.mpr hc
  obtain ⟨stem', hpaired⟩ := exists_pairedBy hmem
  obtain rfl := stem_eq_iff.mp (hpaired.operation_eq.symm.trans hoperation)
  exact ⟨c, hmem, hpaired, hcell⟩

/-- Stems without a mark are shown, and told apart. -/
theorem shown_without_marks_apart : ∃ c ∈ pairComparisons markedRows,
    ∃ other ∈ pairComparisons markedRows, PairedBy markedRows "a" c ∧
      PairedBy markedRows "b" other ∧ ¬ Occurs "_incremental" "a" ∧ ¬ Occurs "_incremental" "b" ∧
      shown c = some "a" ∧ shown c ≠ shown other := by
  obtain ⟨c, hc, hpaired, -⟩ : ∃ c ∈ pairComparisons markedRows,
    PairedBy markedRows "a" c ∧ shown c = some "a" := exists_marked (by decide)
  obtain ⟨other, hother, hpaired', -⟩ : ∃ c ∈ pairComparisons markedRows,
    PairedBy markedRows "b" c ∧ shown c = some "b" := exists_marked (by decide)
  have hnone : ¬ Occurs "_incremental" "a" := by
    rw [← contains_iff]
    decide
  have hnone' : ¬ Occurs "_incremental" "b" := by
    rw [← contains_iff]
    decide
  obtain ⟨-, hstem, hapart⟩ := shown_without_marks markedRows
  refine ⟨c, hc, other, hother, hpaired, hpaired', hnone, hnone',
    (hstem c "a" hpaired).2.mpr hnone, ?_⟩
  rw [Ne, hapart c other "a" "b" hpaired hpaired' hnone hnone', hpaired.operation_eq,
    hpaired'.operation_eq]
  decide

/-- Of the comparison paired by the stem with the mark only the rest is shown, and the comparison of
another operation is shown in the same way. -/
theorem shown_alike : ∃ c ∈ pairComparisons markedRows, ∃ other ∈ pairComparisons markedRows,
    PairedBy markedRows "a_incremental" c ∧ shown c = some "a" ∧
      c.operation ≠ other.operation ∧ shown other = shown c := by
  obtain ⟨c, hc, hpaired, hcell⟩ : ∃ c ∈ pairComparisons markedRows,
    PairedBy markedRows "a_incremental" c ∧ shown c = some "a" := exists_marked (by decide)
  obtain ⟨other, hother, hpaired', hcell'⟩ : ∃ c ∈ pairComparisons markedRows,
    PairedBy markedRows "a" c ∧ shown c = some "a" := exists_marked (by decide)
  refine ⟨c, hc, other, hother, hpaired, hcell, ?_, hcell'.trans hcell.symm⟩
  rw [hpaired.operation_eq, hpaired'.operation_eq]
  decide

end PerfGate.Operations
