import PerfGate.Measurement.Summary
import PerfGate.Proofs.Measurement.Ascending
import PerfGate.Proofs.Number.Defined

/-!
# Bounds on summaries

Extremes and percentile of a summary are durations themselves, and the mean lies between the
extremes, whatever is lost or overflows on the way to it. A sum of finite durations may become
infinite, and then stays so, but it is never undefined; a sum of squares is never negative. So
neither the mean nor the deviation of finite durations is ever undefined.
-/

set_option autoImplicit false

namespace PerfGate.Statistics

open Number

section
variable {x lo hi center : Float} {xs : List Float}

/-! ## Sums -/

theorem isFinite_of_mem_replicate {n : Nat} (hx : x.isFinite = true) :
    ∀ y ∈ List.replicate n x, y.isFinite = true := by
  intro y hy
  rw [List.eq_of_mem_replicate hy]
  exact hx

theorem foldl_add_isNaN {total : Float} (ht : total.isNaN = false)
    (hxs : ∀ x ∈ xs, x.isFinite = true) : (xs.foldl (· + ·) total).isNaN = false := by
  induction xs generalizing total with
  | nil => exact ht
  | cons x xs ih =>
    obtain ⟨hx, hrest⟩ := List.forall_mem_cons.mp hxs
    exact ih (add_isNaN ht hx) hrest

theorem foldl_add_nonneg {total : Float} (ht : Nonneg total) (hxs : ∀ x ∈ xs, Nonneg x) :
    Nonneg (xs.foldl (· + ·) total) := by
  induction xs generalizing total with
  | nil => exact ht
  | cons x xs ih =>
    obtain ⟨hx, hrest⟩ := List.forall_mem_cons.mp hxs
    exact ih (ht.add hx) hrest

theorem nonneg_zero : Nonneg 0.0 := ⟨by decide, value_zero.ge⟩

theorem nonneg_negative_zero : Nonneg (-0.0) := ⟨by decide, (value_eq_zero (by decide)).ge⟩

theorem sum_isNaN (h : ∀ x ∈ xs, x.isFinite = true) : (sum xs).isNaN = false :=
  foldl_add_isNaN (by decide) h

theorem sum_nonneg (h : ∀ x ∈ xs, Nonneg x) : Nonneg (sum xs) :=
  foldl_add_nonneg nonneg_negative_zero h

/-- A sum that overflowed leaves an infinite mean. -/
theorem mean_isNaN (hne : xs ≠ []) (hlength : xs.length < 2 ^ 64)
    (h : ∀ x ∈ xs, x.isFinite = true) : (mean xs).isNaN = false := by
  obtain ⟨hfinite, hpos⟩ := ofNat_pos (List.length_pos_iff.mpr hne) hlength
  exact div_isNaN (sum_isNaN h) hfinite hpos

theorem squares_nonneg (hcenter : center.isFinite = true) (h : ∀ x ∈ xs, x.isFinite = true) :
    Nonneg (sum (xs.map fun x => (x - center) * (x - center))) := by
  refine sum_nonneg fun square hsquare => ?_
  obtain ⟨x, hx, rfl⟩ := List.mem_map.mp hsquare
  exact nonneg_mul_self (sub_rounds (h x hx) hcenter).isNaN

theorem deviation_nonneg (hcenter : center.isFinite = true) (hlength : xs.length < 2 ^ 64)
    (h : ∀ x ∈ xs, x.isFinite = true) : Nonneg (deviation xs center) := by
  rw [deviation]
  split
  next => exact nonneg_zero
  next hmany =>
    obtain ⟨hfinite, hpos⟩ := ofNat_pos (n := xs.length - 1) (by omega) (by omega)
    exact ((squares_nonneg hcenter h).div hfinite hpos).sqrt

/-! ## Percentiles and bounds -/

theorem getD_mem {i : Nat} (h : i < xs.length) : xs.getD i 0.0 ∈ xs := by
  rw [List.getD_eq_getElem _ _ h]
  exact List.getElem_mem h

theorem percentile_mem (hne : xs ≠ []) (fraction : Float) : percentile xs fraction ∈ xs := by
  have hpos : 0 < xs.length := List.length_pos_iff.mpr hne
  exact getD_mem (by omega)

theorem clamp?_eq_some (h : lo ≤ hi) (x : Float) : ∃ center, clamp? x lo hi = some center :=
  ⟨_, if_pos h⟩

/-- What is brought between two bounds lies between them, unless it is not a number. -/
theorem clamp?_between (hx : x.isNaN = false) (hlo : lo.isNaN = false) (hhi : hi.isNaN = false)
    (h : clamp? x lo hi = some center) :
    center.isNaN = false ∧ value lo ≤ value center ∧ value center ≤ value hi := by
  rw [clamp?] at h
  split at h
  next hle =>
    have hbounds := (le_iff_value hlo hhi).mp hle
    have hbelow := lt_iff_value hx hlo
    have habove := lt_iff_value hhi hx
    obtain rfl := Option.some.inj h
    split
    next => exact ⟨hlo, le_rfl, hbounds⟩
    next hge =>
      split
      next => exact ⟨hhi, hbounds, le_rfl⟩
      next hle => exact ⟨hx, not_lt.mp (hge ∘ hbelow.mpr), not_lt.mp (hle ∘ habove.mpr)⟩
  next => exact nomatch h

end

end PerfGate.Statistics

namespace PerfGate.Summary

open Number Statistics

section
variable {durations : List Float}

structure Reduces (durations : List Float) (s : Summary) : Prop where
  n : s.n = durations.length
  least : (ascending durations).head? = some s.least
  greatest : s.greatest = (ascending durations).getLastD s.least
  mean : clamp? (Statistics.mean durations) s.least s.greatest = some s.mean
  median : s.median = Statistics.median (ascending durations)
  deviation : s.deviation = Statistics.deviation durations s.mean
  p95 : s.p95 = percentile (ascending durations) p95Fraction

theorem ofDurations_nil (name implementation : String) :
    ofDurations name implementation [] = .error (.noSamples name) := rfl

/-- Durations that are numbers have extremes in order. -/
theorem ofDurations_reduces (name implementation : String) (hne : durations ≠ [])
    (h : Numbers durations) :
    ∃ s, ofDurations name implementation durations = .ok s ∧ s.Reduces durations := by
  obtain ⟨least, rest, hsorted⟩ := List.exists_cons_of_ne_nil (ascending_ne_nil hne)
  have hascends := ascending_ascends h
  have hnumbers := h.of_perm (ascending_perm durations)
  rw [hsorted] at hascends hnumbers
  have hlast : (least :: rest).getLastD least ∈ least :: rest := by
    rw [List.getLastD_cons]
    exact List.getLastD_mem_cons
  have hle : least ≤ (least :: rest).getLastD least :=
    (le_iff_value (hnumbers least List.mem_cons_self) (hnumbers _ hlast)).mpr
      (hascends.head_le _ hlast)
  obtain ⟨center, hcenter⟩ := clamp?_eq_some hle (Statistics.mean durations)
  have hok : ofDurations name implementation durations = .ok
      { name, implementation, n := durations.length, mean := center
        median := Statistics.median (least :: rest)
        deviation := Statistics.deviation durations center
        least, greatest := (least :: rest).getLastD least
        p95 := percentile (least :: rest) p95Fraction } := by
    rw [ofDurations, hsorted]
    simp only [hcenter]
  refine ⟨_, hok, ?_⟩
  constructor <;> simp only [hsorted, hcenter, List.head?_cons]

structure Bounded (durations : List Float) (s : Summary) : Prop where
  n : s.n = durations.length
  least_mem : s.least ∈ durations
  greatest_mem : s.greatest ∈ durations
  p95_mem : s.p95 ∈ durations
  durations_between : ∀ x ∈ durations, s.least ≤ x ∧ x ≤ s.greatest
  p95_between : s.least ≤ s.p95 ∧ s.p95 ≤ s.greatest
  mean_between : s.least ≤ s.mean ∧ s.mean ≤ s.greatest
  mean_isNaN : s.mean.isNaN = false
  deviation_isNaN : s.deviation.isNaN = false
  deviation_nonneg : 0.0 ≤ s.deviation
  deviation_single : s.n = 1 → s.deviation = 0.0

variable {s : Summary}

theorem Reduces.least_mem (h : s.Reduces durations) : s.least ∈ durations :=
  mem_ascending.mp (List.mem_of_mem_head? h.least)

theorem Reduces.greatest_mem (h : s.Reduces durations) : s.greatest ∈ durations := by
  obtain ⟨rest, hsorted⟩ := List.head?_eq_some_iff.mp h.least
  apply mem_ascending.mp
  rw [h.greatest, hsorted, List.getLastD_cons]
  exact List.getLastD_mem_cons

theorem Reduces.value_between (h : s.Reduces durations) (hnumbers : Numbers durations) :
    ∀ x ∈ durations, value s.least ≤ value x ∧ value x ≤ value s.greatest := by
  intro x hx
  have hascends := ascending_ascends hnumbers
  have hmem := mem_ascending.mpr hx
  obtain ⟨rest, hsorted⟩ := List.head?_eq_some_iff.mp h.least
  have hgreatest := h.greatest
  rw [hsorted] at hascends hmem hgreatest
  rw [List.getLastD_cons, ← List.getLast_eq_getLastD (List.cons_ne_nil _ _)] at hgreatest
  rw [hgreatest]
  exact ⟨hascends.head_le x hmem, hascends.le_last _ x hmem⟩

theorem Reduces.between (h : s.Reduces durations) (hnumbers : Numbers durations) :
    ∀ x ∈ durations, s.least ≤ x ∧ x ≤ s.greatest := by
  intro x hx
  rw [le_iff_value (hnumbers _ h.least_mem) (hnumbers _ hx),
    le_iff_value (hnumbers _ hx) (hnumbers _ h.greatest_mem)]
  exact h.value_between hnumbers x hx

theorem Reduces.mean_between (h : s.Reduces durations) (hne : durations ≠ [])
    (hfinite : ∀ x ∈ durations, x.isFinite = true) (hlength : durations.length < 2 ^ 64) :
    value s.least ≤ value s.mean ∧ value s.mean ≤ value s.greatest :=
  (clamp?_between (Statistics.mean_isNaN hne hlength hfinite)
    (isNaN_of_isFinite (hfinite _ h.least_mem)) (isNaN_of_isFinite (hfinite _ h.greatest_mem))
    h.mean).2

/-- Finite durations have a summary, within bounds. The count of a list fits a machine word. -/
theorem ofDurations_bounded (name implementation : String) (hne : durations ≠ [])
    (hfinite : ∀ x ∈ durations, x.isFinite = true) (hlength : durations.length < 2 ^ 64) :
    ∃ s, ofDurations name implementation durations = .ok s ∧ s.Bounded durations := by
  have hnumbers : Numbers durations := fun x hx => isNaN_of_isFinite (hfinite x hx)
  obtain ⟨s, hok, h⟩ := ofDurations_reduces name implementation hne hnumbers
  refine ⟨s, hok, ?_⟩
  have hleast := hfinite _ h.least_mem
  have hgreatest := hfinite _ h.greatest_mem
  obtain ⟨hmean, hlow, hhigh⟩ := clamp?_between (mean_isNaN hne hlength hfinite)
    (hnumbers _ h.least_mem) (hnumbers _ h.greatest_mem) h.mean
  have hdeviation := deviation_nonneg (isFinite_between hleast hgreatest hlow hhigh) hlength hfinite
  rw [← h.deviation] at hdeviation
  have hp95 : s.p95 ∈ durations := by
    rw [h.p95]
    exact (ascending_perm durations).mem_iff.mp (percentile_mem (ascending_ne_nil hne) _)
  exact {
    n := h.n
    least_mem := h.least_mem
    greatest_mem := h.greatest_mem
    p95_mem := hp95
    durations_between := h.between hnumbers
    p95_between := h.between hnumbers _ hp95
    mean_between := ⟨(le_iff_value (hnumbers _ h.least_mem) hmean).mpr hlow,
      (le_iff_value hmean (hnumbers _ h.greatest_mem)).mpr hhigh⟩
    mean_isNaN := hmean
    deviation_isNaN := hdeviation.1
    deviation_nonneg := (le_iff_value nonneg_zero.1 hdeviation.1).mpr
      (value_zero.trans_le hdeviation.2)
    deviation_single := fun hsingle => by
      rw [h.deviation, Statistics.deviation, if_pos (by rw [← h.n]; omega)] }

/-- The sum of the greatest number with itself is infinite, its mean is not. -/
theorem ofDurations_bounded_overflow :
    ∃ s, ofDurations "bulk" "table" [Float.ofBits 0x7fefffffffffffff, -1.0,
        Float.ofBits 0x7fefffffffffffff] = .ok s ∧
      s.Bounded [Float.ofBits 0x7fefffffffffffff, -1.0, Float.ofBits 0x7fefffffffffffff] :=
  ofDurations_bounded _ _ (by decide) (by decide) (by decide)

end

end PerfGate.Summary
