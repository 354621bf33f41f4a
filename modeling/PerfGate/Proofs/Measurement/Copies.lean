import PerfGate.Proofs.Measurement.Finiteness
import PerfGate.Proofs.Number.Zeros

/-!
# Copies of one duration

A duration that was measured again and again has no spread. The rounded sum of the copies may be
off, or infinite, and so may their mean be; but between extremes that are both the duration itself
there is nothing else left, and the deviation is taken from what is left. Only the median of an
even count, which nothing brings back, depends on the sum of two copies.
-/

set_option autoImplicit false

namespace PerfGate.Copies

open Number
open Statistics (clamp? deviation isFinite_of_mem_replicate median)

/-- The greatest number that can be doubled. -/
def halfRange : Float := Float.ofBits 0x7fefffffffffffff / 2.0

section
variable {x center : Float} {n : Nat}

/-! ## Sums of zeros -/

theorem foldl_add_replicate (h : x + x = x) (n : Nat) :
    (List.replicate n x).foldl (· + ·) x = x := by
  induction n with
  | zero => rfl
  | succ n ih => rw [List.replicate_succ, List.foldl_cons, h, ih]

theorem sum_replicate_zero (hx : x.isFinite = true) (hzero : value x = 0) (hpos : 0 < n) :
    Statistics.sum (List.replicate n x) = x := by
  cases n with
  | zero => exact absurd hpos (lt_irrefl 0)
  | succ n =>
    rw [Statistics.sum, List.replicate_succ, List.foldl_cons, negative_zero_add hx]
    exact foldl_add_replicate (add_self_of_zero hzero) n

theorem mean_replicate_zero (hx : x.isFinite = true) (hzero : value x = 0) (hpos : 0 < n)
    (hlt : n < 2 ^ 64) : Statistics.mean (List.replicate n x) = x := by
  obtain ⟨hcount, hcountpos⟩ := ofNat_pos hpos hlt
  rw [Statistics.mean, sum_replicate_zero hx hzero hpos, List.length_replicate]
  exact zero_div_of_pos hzero hcount hcountpos

/-! ## Mean and deviation -/

/-- What is brought back between a number and itself is that number, also by its sign if it is
zero. -/
theorem center_eq (hx : x.isFinite = true) (hpos : 0 < n) (hlt : n < 2 ^ 64)
    (h : clamp? (Statistics.mean (List.replicate n x)) x x = some center) : center = x := by
  have hnumber := isNaN_of_isFinite hx
  by_cases hzero : value x = 0
  · have hle : x ≤ x := by
      rw [le_iff_value hnumber hnumber]
    have hirrefl : ¬ x < x := by
      rw [lt_iff_value hnumber hnumber]
      exact lt_irrefl _
    rw [mean_replicate_zero hx hzero hpos hlt, clamp?, if_pos hle, if_neg hirrefl,
      if_neg hirrefl] at h
    exact (Option.some.inj h).symm
  · have hmean : (Statistics.mean (List.replicate n x)).isNaN = false := by
      apply Statistics.mean_isNaN
      · simpa using hpos.ne'
      · simpa using hlt
      · exact isFinite_of_mem_replicate hx
    obtain ⟨-, hlow, hhigh⟩ := Statistics.clamp?_between hmean hnumber hnumber h
    exact (eq_of_value_eq (le_antisymm hlow hhigh) hzero).symm

theorem square_sub_self (hx : x.isFinite = true) : (x - x) * (x - x) = 0.0 := by
  have hdifference := sub_rounds hx hx
  rw [sub_self] at hdifference
  rcases eq_zero_of_value (value_eq_zero_iff.mpr hdifference.magnitude_eq_zero) with h | h
  · rw [h]
    decide
  · rw [h]
    decide

theorem deviation_replicate (hx : x.isFinite = true) (hlt : n < 2 ^ 64) :
    deviation (List.replicate n x) x = 0.0 := by
  rw [deviation, List.length_replicate]
  split
  next => rfl
  next hmany =>
    obtain ⟨hcount, hcountpos⟩ := ofNat_pos (n := n - 1) (by omega) (by omega)
    have hsquares : Statistics.sum (List.replicate n (0.0 : Float)) = 0.0 :=
      sum_replicate_zero (by decide) value_zero (by omega)
    simp only [List.map_replicate, square_sub_self hx, hsquares]
    rw [zero_div_of_pos value_zero hcount hcountpos]
    decide

/-! ## The median -/

theorem halfRange_isFinite : halfRange.isFinite = true := by
  decide +kernel

theorem halfRange_nonneg : 0 ≤ value halfRange := by
  rw [← value_zero, value_le_iff_place]
  decide +kernel

/-- Its double is the greatest number. -/
theorem magnitude_double : magnitude (halfRange + halfRange) = infinityWord - 1 := by
  decide +kernel

theorem isFinite_iff_le_double :
    x.isFinite = true ↔ magnitude x ≤ magnitude (halfRange + halfRange) := by
  have hword : 0 < infinityWord := by decide
  rw [isFinite_iff, magnitude_double]
  omega

theorem abs_value_double : |value (halfRange + halfRange)| = 2 * value halfRange := by
  rw [add_self_value halfRange_isFinite (isFinite_iff_le_double.mpr le_rfl),
    abs_of_nonneg (mul_nonneg two_pos.le halfRange_nonneg)]

theorem abs_le_halfRange_iff (hx : x.isFinite = true) :
    x.abs ≤ halfRange ↔ |value x| ≤ value halfRange := by
  have hnumber := isNaN_of_isFinite hx
  rw [le_iff_value (abs_isNaN hnumber) (isNaN_of_isFinite halfRange_isFinite), value_abs hnumber]

theorem double_isFinite_iff (hx : x.isFinite = true) :
    (x + x).isFinite = true ↔ x.abs ≤ halfRange := by
  have hrounds := add_rounds hx hx
  have hgreatest := add_rounds halfRange_isFinite halfRange_isFinite
  rw [← two_mul] at hrounds hgreatest
  rw [abs_le_halfRange_iff hx]
  constructor
  · intro hsum
    have hbound := abs_value_le_iff.mpr (isFinite_iff_le_double.mp hsum)
    rw [abs_value_double, add_self_value hx hsum, abs_mul, abs_two] at hbound
    linarith
  · intro hbound
    apply isFinite_iff_le_double.mpr
    apply hrounds.magnitude_le hgreatest
    rw [abs_mul, abs_mul, abs_two, abs_of_nonneg halfRange_nonneg]
    linarith

theorem half_double (hx : x.isFinite = true) (hsum : (x + x).isFinite = true) :
    (x + x) / 2.0 = x := by
  by_cases hzero : value x = 0
  · rw [add_self_of_zero hzero]
    exact zero_div_of_pos hzero (by decide) (Finiteness.value_two ▸ two_pos)
  · have hrounds := div_rounds (y := 2.0) hsum (by decide) (Finiteness.value_two ▸ two_ne_zero)
    rw [add_self_value hx hsum, Finiteness.value_two, mul_div_cancel_left₀ _ two_ne_zero] at hrounds
    exact hrounds.eq (isNaN_of_isFinite hx) rfl hzero

theorem getD_replicate {i : Nat} (h : i < n) : (List.replicate n x).getD i 0.0 = x := by
  simp [h]

theorem median_replicate_iff (hx : x.isFinite = true) (hpos : 0 < n) :
    median (List.replicate n x) = x ↔ n % 2 = 1 ∨ x.abs ≤ halfRange := by
  have hne : List.replicate n x ≠ [] := by simpa using hpos.ne'
  have hlength := List.length_replicate (n := n) (a := x)
  by_cases hodd : n % 2 = 1
  · rw [Finiteness.median_odd (by rwa [hlength]), hlength, getD_replicate (by omega)]
    exact iff_of_true rfl (.inl hodd)
  · have hmiddle : Finiteness.middleSum (List.replicate n x) = x + x := by
      rw [Finiteness.middleSum, hlength, getD_replicate (by omega), getD_replicate (by omega)]
    rw [or_iff_right hodd, ← double_isFinite_iff hx]
    constructor
    · intro hmedian
      have hfinite := Finiteness.middle_of_median hne (isFinite_of_mem_replicate hx)
        (by rw [hmedian]; exact hx)
      rw [Finiteness.MiddleFinite, hlength, hmiddle] at hfinite
      exact hfinite.resolve_left hodd
    · intro hsum
      rw [Finiteness.median_even hne (by rwa [hlength]), hmiddle, half_double hx hsum]

end

/-- As many copies of a finite duration as a word can count have a summary in which every figure is
that duration, but for the deviation, which is zero, and for the median of an even count if the
duration is past half of the range. -/
theorem copies_without_spread (name implementation : String) {x : Float} {n : Nat}
    (hx : x.isFinite = true) (hpos : 0 < n) (hlt : n < 2 ^ 64) :
    ∃ s, Summary.ofDurations name implementation (List.replicate n x) = .ok s ∧ s.n = n ∧
      s.mean = x ∧ s.least = x ∧ s.greatest = x ∧ s.p95 = x ∧ s.deviation = 0.0 ∧
      (s.median = x ↔ n % 2 = 1 ∨ x.abs ≤ halfRange) := by
  have hne : List.replicate n x ≠ [] := by simpa using hpos.ne'
  obtain ⟨s, hok, h⟩ := Summary.ofDurations_reduces name implementation hne
    fun y hy => isNaN_of_isFinite (isFinite_of_mem_replicate hx y hy)
  have hsorted : Statistics.ascending (List.replicate n x) = List.replicate n x :=
    List.perm_replicate.mp (Statistics.ascending_perm _)
  have hleast := List.eq_of_mem_replicate h.least_mem
  have hgreatest := List.eq_of_mem_replicate h.greatest_mem
  have hmean : s.mean = x := by
    apply center_eq hx hpos hlt
    rw [← h.mean, hleast, hgreatest]
  refine ⟨s, hok, ?_, hmean, hleast, hgreatest, ?_, ?_, ?_⟩
  · rw [h.n, List.length_replicate]
  · rw [h.p95, hsorted]
    exact List.eq_of_mem_replicate (Statistics.percentile_mem hne _)
  · rw [h.deviation, hmean]
    exact deviation_replicate hx hlt
  · rw [h.median, hsorted]
    exact median_replicate_iff hx hpos

/-- The mean of three tenths as it is summed is past a tenth, and a deviation from it would not
be zero. -/
theorem copies_of_tenth :
    let copies := List.replicate 3 (0.1 : Float)
    ((0.1 : Float).isFinite = true ∧ 0 < 3 ∧ 3 < 2 ^ 64) ∧
    (Statistics.mean copies ≠ 0.1 ∧ deviation copies (Statistics.mean copies) ≠ 0.0) ∧
    ∃ s, Summary.ofDurations "bulk" "table" copies = .ok s ∧ s.mean = 0.1 ∧ s.median = 0.1 ∧
      s.deviation = 0.0 := by
  intro copies
  have hx : (0.1 : Float).isFinite = true := by decide +kernel
  have hwithin : (0.1 : Float).abs ≤ halfRange := by decide +kernel
  obtain ⟨s, hok, -, hmean, -, -, -, hdeviation, hmedian⟩ :=
    copies_without_spread "bulk" "table" (n := 3) hx (by omega) (by omega)
  have hraw : Statistics.mean copies ≠ 0.1 ∧ deviation copies (Statistics.mean copies) ≠ 0.0 := by
    decide +kernel
  exact ⟨⟨hx, by omega, by omega⟩, hraw, s, hok, hmean, hmedian.mpr (.inr hwithin), hdeviation⟩

end PerfGate.Copies
