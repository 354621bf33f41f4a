import PerfGate.Proofs.Measurement.Finiteness
import PerfGate.Proofs.Number.Zeros

/-!
# Order statistics

Extremes, median and percentile are read off the durations in ascending order. The values in that
order do not depend on the order of measurement, so neither do these figures. The two zeros have
one value and stay in the order in which they were measured; where only one of them occurs, the
figures are the same numbers bit by bit. Mean and deviation are sums, which are rounded on the way,
and do depend on the order.
-/

set_option autoImplicit false

namespace PerfGate.OrderStatistics

open Number
open Finiteness (median_even median_odd middleSum)
open Statistics (ascending ascending_ascends ascending_perm getD_mem median mem_ascending Numbers
  percentile)

structure Agree (same : Float → Float → Prop) (s t : Summary) : Prop where
  n : s.n = t.n
  least : same s.least t.least
  greatest : same s.greatest t.greatest
  median : same s.median t.median
  p95 : same s.p95 t.p95

section
variable {xs ys : List Float}

/-! ## Durations in order -/

theorem ascending_of_perm (hperm : ys.Perm xs) : (ascending ys).Perm (ascending xs) :=
  ((ascending_perm ys).trans hperm).trans (ascending_perm xs).symm

theorem ascending_values (hxs : Numbers xs) (hperm : ys.Perm xs) :
    (ascending ys).map value = (ascending xs).map value := by
  have hleft : ((ascending ys).map value).Pairwise (· ≤ ·) :=
    List.pairwise_map.mpr (ascending_ascends (hxs.of_perm hperm))
  have hright : ((ascending xs).map value).Pairwise (· ≤ ·) :=
    List.pairwise_map.mpr (ascending_ascends hxs)
  exact ((ascending_of_perm hperm).map value).eq_of_pairwise' hleft hright

/-- Without both zeros a number in the list is known by its value. -/
theorem eq_of_value (hzeros : ¬ (0.0 ∈ xs ∧ -0.0 ∈ xs)) {x y : Float} (hx : x ∈ xs) (hy : y ∈ xs)
    (h : value x = value y) : x = y := by
  rcases eq_or_zeros h with heq | ⟨rfl, rfl⟩ | ⟨rfl, rfl⟩
  · exact heq
  · exact absurd ⟨hx, hy⟩ hzeros
  · exact absurd ⟨hy, hx⟩ hzeros

theorem ascending_eq_of_perm (hxs : Numbers xs) (hzeros : ¬ (0.0 ∈ xs ∧ -0.0 ∈ xs))
    (hperm : ys.Perm xs) : ascending ys = ascending xs := by
  refine (ascending_of_perm hperm).eq_of_pairwise ?_ (ascending_ascends (hxs.of_perm hperm))
    (ascending_ascends hxs)
  intro x y hx hy hxy hyx
  have hleft : x ∈ xs := hperm.mem_iff.mp (mem_ascending.mp hx)
  have hright : y ∈ xs := mem_ascending.mp hy
  exact eq_of_value hzeros hleft hright (le_antisymm hxy hyx)

/-! ## Figures of lists with the same values -/

theorem value_getD (h : xs.map value = ys.map value) (i : Nat) :
    value (xs.getD i 0.0) = value (ys.getD i 0.0) := by
  rw [← List.getD_map xs 0.0 value, h, List.getD_map]

theorem length_eq (h : xs.map value = ys.map value) : xs.length = ys.length := by
  simpa using congrArg List.length h

theorem value_percentile (h : xs.map value = ys.map value) (fraction : Float) :
    value (percentile xs fraction) = value (percentile ys fraction) := by
  rw [percentile, percentile, length_eq h]
  exact value_getD h _

theorem value_median_le (hne : xs ≠ []) (hxs : ∀ x ∈ xs, x.isFinite = true)
    (hys : ∀ y ∈ ys, y.isFinite = true) (h : xs.map value = ys.map value) :
    value (median xs) ≤ value (median ys) := by
  have hlength := length_eq h
  have hpos : 0 < xs.length := List.length_pos_iff.mpr hne
  by_cases hodd : xs.length % 2 = 1
  · rw [median_odd hodd, median_odd (hlength ▸ hodd), hlength]
    exact (value_getD h _).le
  · have hysne : ys ≠ [] := List.length_pos_iff.mp (hlength ▸ hpos)
    rw [median_even hne hodd, median_even hysne (hlength ▸ hodd)]
    apply div_value_le (Finiteness.middleSum_isNaN hne hxs) (Finiteness.middleSum_isNaN hysne hys)
      (by decide) (Finiteness.value_two ▸ two_pos)
    rw [middleSum, middleSum, hlength]
    apply add_value_le
    · exact isNaN_of_isFinite (hxs _ (getD_mem (by omega)))
    · exact isNaN_of_isFinite (hys _ (getD_mem (by omega)))
    · exact hxs _ (getD_mem (by omega))
    · exact hys _ (getD_mem (by omega))
    · exact (value_getD h _).le
    · exact (value_getD h _).le

theorem value_median (hne : xs ≠ []) (hxs : ∀ x ∈ xs, x.isFinite = true)
    (hys : ∀ y ∈ ys, y.isFinite = true) (h : xs.map value = ys.map value) :
    value (median xs) = value (median ys) := by
  have hysne : ys ≠ [] := by
    rintro rfl
    exact hne (by simpa using h)
  exact le_antisymm (value_median_le hne hxs hys h) (value_median_le hysne hys hxs h.symm)

/-! ## Figures of summaries -/

variable {s t : Summary} (hs : s.Reduces xs) (ht : t.Reduces ys) (hperm : ys.Perm xs)
include hs ht hperm

theorem agree_in_value (hne : xs ≠ []) (hfinite : ∀ x ∈ xs, x.isFinite = true) :
    Agree (fun x y => value x = value y) s t := by
  have hxs : Numbers xs := fun x hx => isNaN_of_isFinite (hfinite x hx)
  have hys : Numbers ys := hxs.of_perm hperm
  have hvalues := ascending_values hxs hperm
  have hleft := hs.value_between hxs
  have hright := ht.value_between hys
  have hsorted (x : Float) (hx : x ∈ ascending xs) : x.isFinite = true :=
    hfinite x (mem_ascending.mp hx)
  have hshuffled (y : Float) (hy : y ∈ ascending ys) : y.isFinite = true :=
    hfinite y (hperm.mem_iff.mp (mem_ascending.mp hy))
  constructor
  · rw [hs.n, ht.n, hperm.length_eq]
  · apply le_antisymm
    · exact (hleft _ (hperm.mem_iff.mp ht.least_mem)).1
    · exact (hright _ (hperm.mem_iff.mpr hs.least_mem)).1
  · apply le_antisymm
    · exact (hright _ (hperm.mem_iff.mpr hs.greatest_mem)).2
    · exact (hleft _ (hperm.mem_iff.mp ht.greatest_mem)).2
  · rw [hs.median, ht.median]
    exact value_median (Statistics.ascending_ne_nil hne) hsorted hshuffled hvalues.symm
  · rw [hs.p95, ht.p95]
    exact value_percentile hvalues.symm _

theorem agree_exactly (hxs : Numbers xs) (hzeros : ¬ (0.0 ∈ xs ∧ -0.0 ∈ xs)) : Agree Eq s t := by
  have hsorted := ascending_eq_of_perm hxs hzeros hperm
  have hleast : s.least = t.least := by
    apply Option.some.inj
    rw [← hs.least, ← ht.least, hsorted]
  constructor
  · rw [hs.n, ht.n, hperm.length_eq]
  · exact hleast
  · rw [hs.greatest, ht.greatest, hsorted, hleast]
  · rw [hs.median, ht.median, hsorted]
  · rw [hs.p95, ht.p95, hsorted]

end

section
variable {durations : List Float} {s t : Summary}

/-- No order statistic of finite durations is undefined, whatever overflows. -/
theorem figures_isNaN (h : s.Reduces durations) (hne : durations ≠ [])
    (hfinite : ∀ x ∈ durations, x.isFinite = true) :
    s.least.isNaN = false ∧ s.greatest.isNaN = false ∧ s.median.isNaN = false ∧
      s.p95.isNaN = false := by
  have hsorted (x : Float) (hx : x ∈ ascending durations) : x.isFinite = true :=
    hfinite x (mem_ascending.mp hx)
  have hsortedne := Statistics.ascending_ne_nil hne
  refine ⟨isNaN_of_isFinite (hfinite _ h.least_mem), isNaN_of_isFinite (hfinite _ h.greatest_mem),
    ?_, ?_⟩
  · rw [h.median]
    exact Finiteness.median_isNaN hsortedne hsorted
  · rw [h.p95]
    exact isNaN_of_isFinite (hsorted _ (Statistics.percentile_mem hsortedne _))

end

/-- The order in which finite durations were measured makes no difference to their order
statistics; and none to the bits of them, unless both zeros are among the durations. -/
theorem order_statistics_of_perm (name implementation : String) {durations shuffled : List Float}
    (hne : durations ≠ []) (hfinite : ∀ x ∈ durations, x.isFinite = true)
    (hperm : shuffled.Perm durations) :
    ∃ s t, Summary.ofDurations name implementation durations = .ok s ∧
      Summary.ofDurations name implementation shuffled = .ok t ∧
      Agree (fun x y => (x == y) = true) s t ∧
      (¬ (0.0 ∈ durations ∧ -0.0 ∈ durations) → Agree Eq s t) := by
  have hnumbers : Numbers durations := fun x hx => isNaN_of_isFinite (hfinite x hx)
  have hshuffled : shuffled ≠ [] := by
    rintro rfl
    exact hne (List.nil_perm.mp hperm)
  obtain ⟨s, hok, hs⟩ := Summary.ofDurations_reduces name implementation hne hnumbers
  obtain ⟨t, hok', ht⟩ :=
    Summary.ofDurations_reduces name implementation hshuffled (hnumbers.of_perm hperm)
  refine ⟨s, t, hok, hok', ?_, ?_⟩
  · obtain ⟨hleast, hgreatest, hmedian, hp95⟩ := figures_isNaN hs hne hfinite
    obtain ⟨hleast', hgreatest', hmedian', hp95'⟩ :=
      figures_isNaN ht hshuffled fun x hx => hfinite x (hperm.mem_iff.mp hx)
    have h := agree_in_value hs ht hperm hne hfinite
    constructor
    · exact h.n
    · exact (beq_iff_value hleast hleast').mpr h.least
    · exact (beq_iff_value hgreatest hgreatest').mpr h.greatest
    · exact (beq_iff_value hmedian hmedian').mpr h.median
    · exact (beq_iff_value hp95 hp95').mpr h.p95
  · intro hzeros
    exact agree_exactly hs ht hperm hnumbers hzeros

/-- The middle pair of these durations overflows, and does so in either order. -/
theorem order_statistics_of_overflow :
    let great := Float.ofBits 0x7fefffffffffffff
    let durations := [great, -0.0, great, great]
    let shuffled := [great, great, great, -0.0]
    (durations ≠ [] ∧ (∀ x ∈ durations, x.isFinite = true) ∧ shuffled.Perm durations ∧
      ¬ (0.0 ∈ durations ∧ -0.0 ∈ durations)) ∧
    ∃ s t, Summary.ofDurations "bulk" "table" durations = .ok s ∧
      Summary.ofDurations "bulk" "table" shuffled = .ok t ∧ Agree Eq s t := by
  intro great durations shuffled
  have hne : durations ≠ [] := by decide
  have hfinite : ∀ x ∈ durations, x.isFinite = true := by decide
  have hperm : shuffled.Perm durations := by decide
  have hzeros : ¬ (0.0 ∈ durations ∧ -0.0 ∈ durations) := by
    simp only [durations, List.mem_cons, List.not_mem_nil, or_false]
    decide
  obtain ⟨s, t, hok, hok', -, hexact⟩ :=
    order_statistics_of_perm "bulk" "table" hne hfinite hperm
  exact ⟨⟨hne, hfinite, hperm, hzeros⟩, s, t, hok, hok', hexact hzeros⟩

/-- Both zeros keep the order in which they were measured, so the least of them is either. -/
example : (ascending [0.0, -0.0]).head? = some 0.0 ∧
    (ascending [-0.0, 0.0]).head? = some (-0.0) := by
  decide

end PerfGate.OrderStatistics
