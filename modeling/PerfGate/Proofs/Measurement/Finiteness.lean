import PerfGate.Proofs.Measurement.Bounds
import PerfGate.Proofs.Number.Monotone
import PerfGate.Proofs.Number.Root
import PerfGate.Proofs.Results.Recorded

/-!
# Figures within the range

Mean, extremes and percentile of finite durations are finite. The median of an even count passes
through the sum of the middle pair, and the deviation through the sum of all squares. Nothing
brings these sums back when they leave the range: the median is finite, and between the extremes,
exactly if the one sum is finite, and the deviation exactly if the other is. An infinite
deviation is recorded without a number.
-/

set_option autoImplicit false

namespace PerfGate.Finiteness

open Number
open Statistics (ascending deviation getD_mem median mem_ascending Numbers)

/-! ## The sums on the way -/

def middleSum (sorted : List Float) : Float :=
  sorted.getD (sorted.length / 2 - 1) 0.0 + sorted.getD (sorted.length / 2) 0.0

/-- There is one middle duration, or a finite sum of two. -/
def MiddleFinite (sorted : List Float) : Prop :=
  sorted.length % 2 = 1 ∨ (middleSum sorted).isFinite = true

def squareSum (durations : List Float) (center : Float) : Float :=
  Statistics.sum (durations.map fun x => (x - center) * (x - center))

/-- There is no deviation to take, or a finite sum of squares. -/
def SquaresFinite (durations : List Float) (center : Float) : Prop :=
  durations.length < 2 ∨ (squareSum durations center).isFinite = true

instance (sorted : List Float) : Decidable (MiddleFinite sorted) :=
  inferInstanceAs (Decidable (_ ∨ _))

instance (durations : List Float) (center : Float) : Decidable (SquaresFinite durations center) :=
  inferInstanceAs (Decidable (_ ∨ _))

section
variable {x center lo hi : Float} {xs : List Float}

/-! ## The median -/

theorem value_two : value 2.0 = 2 := by
  exact_mod_cast value_literal 2 (by decide)

theorem median_odd (h : xs.length % 2 = 1) : median xs = xs.getD (xs.length / 2) 0.0 := by
  rw [median, if_neg (by omega), if_pos h]

theorem median_even (hne : xs ≠ []) (h : ¬ xs.length % 2 = 1) :
    median xs = middleSum xs / 2.0 := by
  rw [median, if_neg (by simpa using hne), if_neg h, middleSum]

theorem median_between (hne : xs ≠ []) (hxs : ∀ x ∈ xs, x.isFinite = true)
    (hlo : lo.isFinite = true) (hhi : hi.isFinite = true)
    (h : ∀ x ∈ xs, value lo ≤ value x ∧ value x ≤ value hi) (hmiddle : MiddleFinite xs) :
    value lo ≤ value (median xs) ∧ value (median xs) ≤ value hi := by
  have hpos : 0 < xs.length := List.length_pos_iff.mpr hne
  have hmem : xs.getD (xs.length / 2) 0.0 ∈ xs := getD_mem (by omega)
  by_cases hodd : xs.length % 2 = 1
  · rw [median_odd hodd]
    exact h _ hmem
  · have hbefore : xs.getD (xs.length / 2 - 1) 0.0 ∈ xs := getD_mem (by omega)
    rw [median_even hne hodd]
    exact half_add_between (hxs _ hbefore) (hxs _ hmem) hlo hhi (h _ hbefore) (h _ hmem)
      (hmiddle.resolve_left hodd) (by decide) value_two

theorem middleSum_isNaN (hne : xs ≠ []) (hxs : ∀ x ∈ xs, x.isFinite = true) :
    (middleSum xs).isNaN = false := by
  have hpos : 0 < xs.length := List.length_pos_iff.mpr hne
  exact add_isNaN (isNaN_of_isFinite (hxs _ (getD_mem (by omega)))) (hxs _ (getD_mem (by omega)))

theorem median_isNaN (hne : xs ≠ []) (hxs : ∀ x ∈ xs, x.isFinite = true) :
    (median xs).isNaN = false := by
  have hpos : 0 < xs.length := List.length_pos_iff.mpr hne
  by_cases hodd : xs.length % 2 = 1
  · rw [median_odd hodd]
    exact isNaN_of_isFinite (hxs _ (getD_mem (by omega)))
  · rw [median_even hne hodd]
    exact div_isNaN (middleSum_isNaN hne hxs) (by decide) (value_two ▸ two_pos)

/-- Half of an infinite sum is infinite. -/
theorem middle_of_median (hne : xs ≠ []) (hxs : ∀ x ∈ xs, x.isFinite = true)
    (h : (median xs).isFinite = true) : MiddleFinite xs := by
  by_contra hmiddle
  obtain ⟨hodd, hsum⟩ := not_or.mp hmiddle
  have hinf := (isFinite_or_isInf (middleSum_isNaN hne hxs)).resolve_left hsum
  rw [median_even hne hodd, div_of_isInf hinf (by decide) (value_two ▸ two_pos)] at h
  exact hsum h

/-- Two halves of the greatest number just fit. -/
example :
    MiddleFinite [Float.ofBits 0x7fdfffffffffffff, Float.ofBits 0x7fdfffffffffffff] ∧
      ¬ MiddleFinite [Float.ofBits 0x7fdfffffffffffff, Float.ofBits 0x7fe0000000000001] := by
  decide +kernel

/-! ## The deviation -/

theorem deviation_isFinite_iff (hcenter : center.isFinite = true) (hlength : xs.length < 2 ^ 64)
    (hxs : ∀ x ∈ xs, x.isFinite = true) :
    (deviation xs center).isFinite = true ↔ SquaresFinite xs center := by
  rw [deviation, SquaresFinite]
  split
  next hfew => exact iff_of_true (by decide) (.inl hfew)
  next hmany =>
    have hsquares : Nonneg (squareSum xs center) := Statistics.squares_nonneg hcenter hxs
    obtain ⟨hcount, hpos⟩ := ofNat_pos (n := xs.length - 1) (by omega) (by omega)
    rw [or_iff_right hmany]
    change (squareSum xs center / _).sqrt.isFinite = true ↔ _
    constructor
    · intro hroot
      rcases isFinite_or_isInf hsquares.1 with hfinite | hinf
      · exact hfinite
      · rwa [div_of_isInf hinf hcount hpos, sqrt_of_isInf hinf hsquares] at hroot
    · intro hfinite
      exact sqrt_isFinite (div_isFinite hfinite hcount (one_le_ofNat (by omega)))
        (hsquares.div hcount hpos).2

example : SquaresFinite [0.0, 1e154] 5e153 ∧ ¬ SquaresFinite [0.0, 1e155] 5e154 := by
  decide +kernel

/-! ## Moderate durations -/

/-- A sum of as many numbers as a significand counts stays in the range. -/
theorem foldl_add_isFinite {total : Float} {n j : Nat} (hj : j ≤ 971)
    (ht : total.isFinite = true) (htotal : |value total| ≤ n * 2 ^ j)
    (hxs : ∀ x ∈ xs, x.isFinite = true ∧ |value x| ≤ 2 ^ j) (hlength : n + xs.length < 2 ^ 53) :
    (xs.foldl (· + ·) total).isFinite = true := by
  induction xs generalizing total n with
  | nil => exact ht
  | cons x xs ih =>
    obtain ⟨⟨hx, hbound⟩, hrest⟩ := List.forall_mem_cons.mp hxs
    rw [List.length_cons] at hlength
    have hsum : |value total + value x| ≤ (n + 1 : Nat) * 2 ^ j := by
      calc |value total + value x| ≤ |value total| + |value x| := abs_add_le _ _
        _ ≤ n * 2 ^ j + 2 ^ j := add_le_add htotal hbound
        _ = (n + 1 : Nat) * 2 ^ j := by rw [Nat.cast_succ, add_one_mul]
    obtain ⟨hfinite, hnext⟩ := (add_rounds ht hx).bounded (by omega) hj hsum
    exact ih hfinite hnext hrest (by omega)

theorem square_bounded {j : Nat} (hj : 2 * j ≤ 971) (hx : x.isFinite = true)
    (hcenter : center.isFinite = true) (h : |value x - value center| ≤ 2 ^ j) :
    ((x - center) * (x - center)).isFinite = true ∧
      |value ((x - center) * (x - center))| ≤ 2 ^ (2 * j) := by
  have hone (i : Nat) : ((1 : Nat) : ℚ) * 2 ^ i = 2 ^ i := by rw [Nat.cast_one, one_mul]
  rw [← hone] at h ⊢
  obtain ⟨hfinite, hdifference⟩ := (sub_rounds hx hcenter).bounded (by omega) (by omega) h
  refine (mul_rounds hfinite hfinite).bounded (by omega) hj ?_
  rw [hone] at hdifference ⊢
  calc |value (x - center) * value (x - center)|
      = |value (x - center)| * |value (x - center)| := abs_mul _ _
    _ ≤ 2 ^ j * 2 ^ j := by gcongr
    _ = 2 ^ (2 * j) := by rw [← pow_add, two_mul]

/-- A power of two whose square can be added up as often as a significand counts. -/
def moderate : ℚ := 2 ^ 485

theorem value_le_moderate (hx : x.isNaN = false) (h : x ≤ 1e145) : value x ≤ moderate := by
  have hpower : place (Float.ofBits 0x5e40000000000000) = (2 ^ 52 + 1507 * 2 ^ 52 : Nat) := by
    decide
  have hle : value 1e145 ≤ value (Float.ofBits 0x5e40000000000000) := by
    rw [value_le_iff_place]
    decide +kernel
  calc value x ≤ value 1e145 := (le_iff_value hx (by decide +kernel)).mp h
    _ ≤ value (Float.ofBits 0x5e40000000000000) := hle
    _ = moderate := by
      rw [value_packed hpower (by omega) (fun _ => le_rfl),
        show ((1507 : Nat) : ℤ) - 1074 = (433 : Nat) by rfl, zpow_natCast, Nat.cast_pow,
        Nat.cast_ofNat, ← pow_add, moderate]

theorem middle_moderate (hne : xs ≠ [])
    (hxs : ∀ x ∈ xs, x.isFinite = true ∧ |value x| ≤ moderate) : MiddleFinite xs := by
  have hpos : 0 < xs.length := List.length_pos_iff.mpr hne
  obtain ⟨hfirst, hleft⟩ := hxs (xs.getD (xs.length / 2 - 1) 0.0) (getD_mem (by omega))
  obtain ⟨hsecond, hright⟩ := hxs (xs.getD (xs.length / 2) 0.0) (getD_mem (by omega))
  refine .inr ((add_rounds hfirst hsecond).bounded (m := 2) (j := 485) (by omega) (by omega) ?_).1
  calc |value _ + value _| ≤ |value _| + |value _| := abs_add_le _ _
    _ ≤ moderate + moderate := add_le_add hleft hright
    _ = (2 : Nat) * 2 ^ 485 := by rw [moderate, Nat.cast_two, two_mul]

theorem squares_moderate (hcenter : center.isFinite = true) (hlength : xs.length < 2 ^ 53)
    (hxs : ∀ x ∈ xs, x.isFinite = true ∧ |value x - value center| ≤ moderate) :
    SquaresFinite xs center := by
  refine .inr (foldl_add_isFinite (n := 0) (j := 970) (by omega) (by decide) ?_ ?_ ?_)
  · rw [value_eq_zero (by decide)]
    simp
  · refine List.forall_mem_map.mpr fun x hx => ?_
    exact square_bounded (j := 485) (by omega) (hxs x hx).1 hcenter (hxs x hx).2
  · rw [List.length_map]
    omega

end

/-! ## Files -/

/-- The other figures of the only result being numbers, a file is written in numerals exactly if
the deviation is finite. -/
theorem file_readable_iff {started : Instant} (hstarted : started.micros.natAbs < 2 ^ 64)
    {s : Summary} (hmean : s.mean.isFinite = true) (hp95 : s.p95.isFinite = true)
    (hn : s.n < Json.unsignedLimit) :
    (ResultsFile.new started [s]).value.Readable .nearest ↔ s.deviation.isFinite = true := by
  constructor
  · rintro ⟨-, -, ⟨⟨-, -, hdeviation, -⟩, -⟩, -⟩
    exact Json.isFinite_of_readable hdeviation
  · intro hdeviation
    exact ⟨Json.real_readable (Recorded.timestamp_isFinite hstarted [s]), trivial,
      Recorded.results_readable (List.forall_mem_singleton.mpr ⟨hmean, hdeviation, hp95, hn⟩),
      trivial⟩

/-! ## Summaries -/

structure Ranged (durations : List Float) (s : Summary) : Prop where
  least : s.least.isFinite = true
  greatest : s.greatest.isFinite = true
  mean : s.mean.isFinite = true
  p95 : s.p95.isFinite = true
  median : s.median.isFinite = true ↔ MiddleFinite (ascending durations)
  median_between :
    s.least ≤ s.median ∧ s.median ≤ s.greatest ↔ MiddleFinite (ascending durations)
  deviation : s.deviation.isFinite = true ↔ SquaresFinite durations s.mean
  moderate : durations.length < 2 ^ 53 → (∀ x ∈ durations, x ≤ 1e145) →
    MiddleFinite (ascending durations) ∧ SquaresFinite durations s.mean
  /-- A file that is written from the summary has a numeral for each of its numbers. -/
  recorded : ∀ started : Instant, started.micros.natAbs < 2 ^ 64 →
    ((ResultsFile.new started [s]).value.Readable .nearest ↔ SquaresFinite durations s.mean)
  null : ¬ SquaresFinite durations s.mean → Json.numberText s.deviation = "null"

section
variable {durations : List Float} {s : Summary} (h : s.Reduces durations)
include h

theorem median_within_iff (hne : durations ≠ [])
    (hfinite : ∀ x ∈ durations, x.isFinite = true) :
    (s.median.isFinite = true ↔ MiddleFinite (ascending durations)) ∧
      (s.least ≤ s.median ∧ s.median ≤ s.greatest ↔ MiddleFinite (ascending durations)) := by
  have hnumbers : Numbers durations := fun x hx => isNaN_of_isFinite (hfinite x hx)
  have hsorted := Statistics.ascending_ne_nil hne
  have hsortedFinite (x : Float) (hx : x ∈ ascending durations) := hfinite x (mem_ascending.mp hx)
  have hleast := hfinite _ h.least_mem
  have hgreatest := hfinite _ h.greatest_mem
  have hmedian := median_isNaN hsorted hsortedFinite
  have hmiddle := middle_of_median hsorted hsortedFinite
  have hbetween := median_between hsorted hsortedFinite hleast hgreatest
    fun x hx => h.value_between hnumbers x (mem_ascending.mp hx)
  rw [← h.median] at hmedian hmiddle hbetween
  rw [le_iff_value (hnumbers _ h.least_mem) hmedian,
    le_iff_value hmedian (hnumbers _ h.greatest_mem)]
  have hrange (hs : value s.least ≤ value s.median ∧ value s.median ≤ value s.greatest) :
      s.median.isFinite = true := isFinite_between hleast hgreatest hs.1 hs.2
  exact ⟨⟨hmiddle, hrange ∘ hbetween⟩, hmiddle ∘ hrange, hbetween⟩

/-- No duration is far from the mean if all of them are moderate. -/
theorem moderate_within (hne : durations ≠ [])
    (hfinite : ∀ x ∈ durations, x.isFinite = true ∧ 0.0 ≤ x) (hlength : durations.length < 2 ^ 53)
    (hmoderate : ∀ x ∈ durations, x ≤ 1e145) :
    MiddleFinite (ascending durations) ∧ SquaresFinite durations s.mean := by
  have hall (x : Float) (hx : x ∈ durations) := (hfinite x hx).1
  have hrange (x : Float) (hx : x ∈ durations) : 0 ≤ value x ∧ value x ≤ moderate := by
    have hnumber := isNaN_of_isFinite (hall x hx)
    have hnonneg := (le_iff_value (by decide) hnumber).mp (hfinite x hx).2
    rw [value_zero] at hnonneg
    exact ⟨hnonneg, value_le_moderate hnumber (hmoderate x hx)⟩
  obtain ⟨hlow, hhigh⟩ := h.mean_between hne hall (by omega)
  have hmean := isFinite_between (hall _ h.least_mem) (hall _ h.greatest_mem) hlow hhigh
  constructor
  · refine middle_moderate (Statistics.ascending_ne_nil hne) fun x hx => ?_
    have hmem := mem_ascending.mp hx
    exact ⟨hall x hmem, (abs_of_nonneg (hrange x hmem).1).trans_le (hrange x hmem).2⟩
  · refine squares_moderate hmean hlength fun x hx => ⟨hall x hx, ?_⟩
    exact abs_sub_le_of_nonneg_of_le (hrange x hx).1 (hrange x hx).2
      ((hrange _ h.least_mem).1.trans hlow) (hhigh.trans (hrange _ h.greatest_mem).2)

end

/-- Durations that are finite and not negative have a summary of finite figures, with the median
between the extremes, unless the sum of the middle pair or of the squares leaves the range. -/
theorem figures_finite_iff (name implementation : String) (durations : List Float)
    (hne : durations ≠ []) (hfinite : ∀ x ∈ durations, x.isFinite = true ∧ 0.0 ≤ x)
    (hlength : durations.length < 2 ^ 64) :
    ∃ s, Summary.ofDurations name implementation durations = .ok s ∧ Ranged durations s := by
  have hall (x : Float) (hx : x ∈ durations) := (hfinite x hx).1
  obtain ⟨s, hok, h⟩ := Summary.ofDurations_reduces name implementation hne
    fun x hx => isNaN_of_isFinite (hall x hx)
  refine ⟨s, hok, ?_⟩
  have hleast := hall _ h.least_mem
  have hgreatest := hall _ h.greatest_mem
  obtain ⟨hlow, hhigh⟩ := h.mean_between hne hall hlength
  have hmean := isFinite_between hleast hgreatest hlow hhigh
  have hp95 : s.p95.isFinite = true := by
    rw [h.p95]
    exact hall _ ((Statistics.ascending_perm durations).mem_iff.mp
      (Statistics.percentile_mem (Statistics.ascending_ne_nil hne) _))
  obtain ⟨hmedian, hbetween⟩ := median_within_iff h hne hall
  have hdeviation : s.deviation.isFinite = true ↔ SquaresFinite durations s.mean := by
    rw [h.deviation]
    exact deviation_isFinite_iff hmean hlength hall
  exact {
    least := hleast
    greatest := hgreatest
    mean := hmean
    p95 := hp95
    median := hmedian
    median_between := hbetween
    deviation := hdeviation
    moderate := moderate_within h hne hfinite
    recorded := fun started hstarted =>
      (file_readable_iff hstarted hmean hp95 (h.n.trans_lt hlength)).trans hdeviation
    null := fun hsquares => Json.numberText_of_not_finite (hsquares ∘ hdeviation.mp) }

/-- All figures of moderate durations are finite. -/
theorem figures_finite_iff_moderate :
    ∃ s, Summary.ofDurations "bulk" "table" [0.0, 1e145] = .ok s ∧ s.median.isFinite = true ∧
      (s.least ≤ s.median ∧ s.median ≤ s.greatest) ∧ s.deviation.isFinite = true := by
  obtain ⟨s, hok, h⟩ := figures_finite_iff "bulk" "table" [0.0, 1e145] (by decide)
    (by decide +kernel) (by decide)
  obtain ⟨hmiddle, hsquares⟩ := h.moderate (by decide) (by decide +kernel)
  exact ⟨s, hok, h.median.mpr hmiddle, h.median_between.mpr hmiddle, h.deviation.mpr hsquares⟩

/-- Twice the greatest number has an infinite median above all durations, and from zero to
`1e200` the deviation is infinite and printed as `null`. -/
theorem figures_overflow :
    (∀ x ∈ [Float.ofBits 0x7fefffffffffffff, Float.ofBits 0x7fefffffffffffff],
        x.isFinite = true ∧ 0.0 ≤ x) ∧
      (∃ s, Summary.ofDurations "bulk" "table"
          [Float.ofBits 0x7fefffffffffffff, Float.ofBits 0x7fefffffffffffff] = .ok s ∧
        s.median.isFinite = false ∧ ¬ s.median ≤ s.greatest) ∧
      (∀ x ∈ [(0.0 : Float), 1e200], x.isFinite = true ∧ 0.0 ≤ x) ∧
      ∃ s, Summary.ofDurations "bulk" "table" [0.0, 1e200] = .ok s ∧
        s.deviation.isFinite = false ∧ Json.numberText s.deviation = "null" := by
  have hword : (1e200 : Float) = Float.ofBits 0x6974e718d7d7625a := by decide +kernel
  rw [hword]
  exact ⟨by decide, ⟨_, rfl, by decide +kernel, by decide +kernel⟩, by decide,
    ⟨_, rfl, by decide +kernel, by decide +kernel⟩⟩

end PerfGate.Finiteness
