import PerfGate.Proofs.Number.Neighbours
import PerfGate.Proofs.Results.Join

/-!
# Ratios and savings

A comparison tells twice which of its two times is the greater: by their ratio and by the time that
is saved. Each is rounded on its own, and either may leave the range, but they never tell two
stories.
-/

set_option autoImplicit false

namespace PerfGate.Savings

open Number Pairing
open SignType (sign)

/-! ## Signs of differences -/

/-- Two pairs of numbers whose differences have one sign are in one order. -/
theorem same_order {x y z w : Float} (hx : x.isNaN = false) (hy : y.isNaN = false)
    (hz : z.isNaN = false) (hw : w.isNaN = false)
    (h : sign (value x - value y) = sign (value z - value w)) :
    (y < x ↔ w < z) ∧ ((x == y) = true ↔ (z == w) = true) ∧ (x < y ↔ z < w) := by
  refine ⟨?_, ?_, ?_⟩
  · rw [lt_iff_value hy hx, lt_iff_value hw hz, ← sub_pos, ← sign_eq_one_iff, h, sign_eq_one_iff,
      sub_pos]
  · rw [beq_iff_value hx hy, beq_iff_value hz hw, ← sub_eq_zero, ← sign_eq_zero_iff, h,
      sign_eq_zero_iff, sub_eq_zero]
  · rw [lt_iff_value hx hy, lt_iff_value hz hw, ← sub_neg, ← sign_eq_neg_one_iff, h,
      sign_eq_neg_one_iff, sub_neg]

/-! ## Comparisons -/

structure Tells (c : ComparisonRow) : Prop where
  ratio_isNaN : c.ratio.isNaN = false
  faster : (1.0 < c.ratio ↔ 0.0 < c.saved) ∧ (0.0 < c.saved ↔ c.incremental < c.baseline)
  equal : ((c.ratio == 1.0) = true ↔ (c.saved == 0.0) = true) ∧
    ((c.saved == 0.0) = true ↔ (c.baseline == c.incremental) = true)
  slower : (c.ratio < 1.0 ↔ c.saved < 0.0) ∧ (c.saved < 0.0 ↔ c.baseline < c.incremental)

theorem compared_tells {full row : ResultRow} (hfull : full.time.isFinite = true)
    (hrow : row.time.isFinite = true) (hpos : 0 < value row.time) : Tells (compared full row) := by
  have hone : value 1.0 = 1 := by exact_mod_cast value_literal 1 (by decide)
  have hratio := sign_div_sub_one hfull hrow hpos
  have hsaved := sign_sub hfull hrow
  have hdefined := div_isNaN (isNaN_of_isFinite hfull) hrow hpos
  rw [← hsaved, ← hone, ← sub_zero (value (full.time - row.time)), ← value_zero] at hratio
  rw [← sub_zero (value (full.time - row.time)), ← value_zero] at hsaved
  obtain ⟨hfaster, hequal, hslower⟩ :=
    same_order hdefined (by decide) (sub_rounds hfull hrow).isNaN (by decide) hratio
  obtain ⟨hless, hsame, hmore⟩ := same_order (sub_rounds hfull hrow).isNaN (by decide)
    (isNaN_of_isFinite hfull) (isNaN_of_isFinite hrow) hsaved
  exact {
    ratio_isNaN := hdefined
    faster := ⟨hfaster, hless⟩
    equal := ⟨hequal, hsame⟩
    slower := ⟨hslower, hmore⟩ }

/-- Whatever is saved is saved by a ratio above one, and by no other: in every comparison of finite
times the ratio and the saved time agree on which time is the greater. -/
theorem ratios_tell_savings (rows : List ResultRow)
    (hfinite : ∀ row ∈ rows, row.time.isFinite = true) :
    ∀ c ∈ pairComparisons rows, Tells c := by
  intro c hc
  obtain ⟨row, hrow, full, hfull, -, htime, rfl⟩ := Join.exists_of_mem hc
  have hnumber := isNaN_of_isFinite (hfinite row hrow)
  rw [not_le_iff_lt hnumber (by decide), lt_iff_value (by decide) hnumber, value_zero] at htime
  exact compared_tells (hfinite full hfull) (hfinite row hrow) htime

/-- The least step below two: the exact ratio is barely past the middle between one and the next
number. -/
theorem ratios_tell_neighbours :
    let rows := [Join.exampleRow "a_full_refresh" 2.0,
      Join.exampleRow "a_incremental" (Float.ofBits 0x3fffffffffffffff)]
    (∀ row ∈ rows, row.time.isFinite = true) ∧
      ∃ c ∈ pairComparisons rows, c.incremental < c.baseline ∧ 1.0 < c.ratio ∧ 0.0 < c.saved := by
  intro rows
  have hfinite : ∀ row ∈ rows, row.time.isFinite = true := by decide
  have hpairs : ((pairComparisons rows).map fun c => (c.baseline, c.incremental)).Perm
      [(2.0, Float.ofBits 0x3fffffffffffffff)] := by
    rw [Join.pairComparisons_eq fun row hrow => isNaN_of_isFinite (hfinite row hrow)]
    refine ((List.mergeSort_perm _ _).map _).trans (.of_eq ?_)
    decide +kernel
  obtain ⟨c, hc, htimes⟩ := List.mem_map.mp (hpairs.mem_iff.mpr List.mem_cons_self)
  obtain ⟨hbaseline, hincremental⟩ := Prod.mk.inj htimes
  have hless : c.incremental < c.baseline := by
    rw [hbaseline, hincremental]
    decide
  have h := ratios_tell_savings rows hfinite c hc
  have hsaved := h.faster.2.mpr hless
  exact ⟨hfinite, c, hc, hless, h.faster.1.mpr hsaved, hsaved⟩

end PerfGate.Savings
