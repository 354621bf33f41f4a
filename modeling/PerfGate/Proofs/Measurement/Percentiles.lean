import PerfGate.Proofs.Measurement.Bounds
import PerfGate.Proofs.Number.Truncation

/-!
# Percentiles by position

A percentile is read at a position, which is within every list that is not empty, whatever the
fraction is: a product that is undefined is cut off to zero, and one past the end is held at the
end. Greater fractions have greater positions, so on an ascending list percentiles ascend, from
the least element at zero. At one they reach the greatest element of every list of at most
`2 ^ 54 + 1` elements. The next count is the first that is rounded down by two, and there the last
element is missed; a fraction above one still reaches it.
-/

set_option autoImplicit false

namespace PerfGate.Statistics

open Number

def position (fraction : Float) (n : Nat) : Nat := min (rankIndex fraction n) (n - 1)

section
variable {lower upper fraction : Float} {n : Nat}

/-! ## Ranks -/

theorem value_whole : value 1.0 = 1 := by exact_mod_cast value_literal 1 (by decide)

theorem ofNat_value_pos (hpos : 0 < n) : 0 < value (Float.ofNat n) :=
  one_pos.trans_le (one_le_ofNat hpos)

theorem rankIndex_mono (hpos : 0 < n) (h : lower ≤ upper) :
    rankIndex lower n ≤ rankIndex upper n := by
  obtain ⟨hlower, hupper⟩ := isNaN_of_le h
  exact mul_toUInt64_le hlower hupper (ofNat_rounds n).isNaN (ofNat_value_pos hpos)
    ((le_iff_value hlower hupper).mp h)

/-- Zero times a count that has been rounded to infinity is undefined, and is cut off as well. -/
theorem rankIndex_zero (hpos : 0 < n) : rankIndex 0.0 n = 0 := by
  rcases isFinite_or_isInf (ofNat_rounds n).isNaN with hfinite | hinf
  · have hrounds := mul_rounds (show (0.0 : Float).isFinite = true by decide) hfinite
    rw [value_zero, zero_mul] at hrounds
    exact toUInt64_of_nonpos (hrounds.value_eq (y := 0.0) (by decide) value_zero).le
  · rcases mul_infinity_of_nonpos value_zero.le hinf (ofNat_value_pos hpos).le with
      hundefined | hnonpos
    · exact toUInt64_of_isNaN hundefined
    · exact toUInt64_of_nonpos hnonpos

theorem rankIndex_of_nonpos (hpos : 0 < n) (h : fraction ≤ 0.0) : rankIndex fraction n = 0 :=
  Nat.le_zero.mp (rankIndex_zero hpos ▸ rankIndex_mono hpos h)

/-! ## Counts that are rounded -/

theorem exists_packed_near (h : n ≤ 2 ^ 54 + 1) :
    ∃ m k, m < 2 ^ 53 ∧ k ≤ 2 ∧ m * 2 ^ k ≤ n ∧ n ≤ m * 2 ^ k + 1 := by
  by_cases hbits : n < 2 ^ 54
  · exact ⟨n / 2, 1, by omega, by omega, by omega, by omega⟩
  · exact ⟨2 ^ 52, 2, by omega, le_rfl, by omega, by omega⟩

/-- Up to here no count is rounded down by more than one. -/
theorem sub_one_le_ofNat (h : n ≤ 2 ^ 54 + 1) : ((n - 1 : Nat) : ℚ) ≤ value (Float.ofNat n) := by
  obtain ⟨m, k, hm, hk, hlow, hhigh⟩ := exists_packed_near h
  obtain ⟨y, hy, hvalue⟩ := exists_value_packed hm (show k + 1074 ≤ 2045 by omega)
  have hpower : value y = (m * 2 ^ k : Nat) := by
    rw [hvalue, Nat.cast_add, Nat.cast_ofNat, add_sub_cancel_right, zpow_natCast]
    push_cast
    rfl
  have hle : value y ≤ n := hpower.trans_le (Nat.cast_le.mpr hlow)
  refine le_trans ?_ ((ofNat_rounds n).le_value hy hle)
  rw [hpower, Nat.cast_le]
  omega

theorem le_rankIndex_of_one_le (hpos : 0 < n) (hn : n ≤ 2 ^ 54 + 1) (h : 1.0 ≤ fraction) :
    n - 1 ≤ rankIndex fraction n := by
  have hrounds := mul_rounds (show (1.0 : Float).isFinite = true by decide)
    (ofNat_isFinite (show n < 2 ^ 64 by omega))
  rw [value_whole, one_mul] at hrounds
  have hvalue := hrounds.value_eq (ofNat_rounds n).isNaN rfl
  have hfull : n - 1 ≤ rankIndex 1.0 n :=
    le_toUInt64 hrounds.isNaN (by omega) (hvalue ▸ sub_one_le_ofNat hn)
  exact hfull.trans (rankIndex_mono hpos h)

theorem rankIndex_past_bound : rankIndex 1.0 (2 ^ 54 + 2) = 2 ^ 54 := by decide

/-- By what is above one the count is multiplied past itself, and not only past what it has been
rounded to. -/
theorem lt_mul_ofNat (hfraction : fraction.isFinite = true) (hone : 1 < value fraction)
    (hpos : 0 < n) (hn : n < 2 ^ 64) : n < value (fraction * Float.ofNat n) := by
  have hcount := ofNat_isFinite hn
  have habove := lt_mul_value hfraction hcount hone (one_le_ofNat hpos)
  by_contra! hle
  exact habove.not_ge ((ofNat_rounds n).le_value (mul_rounds hfraction hcount).isNaN hle)

theorem le_rankIndex_of_one_lt (hpos : 0 < n) (hn : n < 2 ^ 64) (h : 1.0 < fraction) :
    n - 1 ≤ rankIndex fraction n := by
  -- The number next above one is finite, and no other number above one is less.
  have hnext : Next 1.0 (Float.ofBits 0x3ff0000000000001) :=
    next_of_place (by decide) (by decide) (by decide)
  have hone := (lt_iff_value (by decide) (by decide)).mp hnext.above
  rw [value_whole] at hone
  have hfinite : (Float.ofBits 0x3ff0000000000001).isFinite = true := by decide
  have hlt := lt_mul_ofNat hfinite hone hpos hn
  have hbelow : ((n - 1 : Nat) : ℚ) ≤ n := Nat.cast_le.mpr (Nat.sub_le n 1)
  have hfull : n - 1 ≤ rankIndex (Float.ofBits 0x3ff0000000000001) n :=
    le_toUInt64 (mul_rounds hfinite (ofNat_isFinite hn)).isNaN (by omega) (hbelow.trans hlt.le)
  exact hfull.trans (rankIndex_mono hpos (hnext.least _ h))

/-! ## Positions -/

theorem position_lt (hpos : 0 < n) : position fraction n < n := by
  rw [position]
  omega

theorem position_mono (hpos : 0 < n) (h : lower ≤ upper) : position lower n ≤ position upper n :=
  min_le_min_right _ (rankIndex_mono hpos h)

theorem position_of_nonpos (hpos : 0 < n) (h : fraction ≤ 0.0) : position fraction n = 0 := by
  rw [position, rankIndex_of_nonpos hpos h, Nat.zero_min]

theorem position_eq_last (h : n - 1 ≤ rankIndex fraction n) : position fraction n = n - 1 :=
  min_eq_right h

end

section
variable {fraction : Float} {xs : List Float}

/-! ## Elements -/

theorem getElem?_position (hne : xs ≠ []) (fraction : Float) :
    xs[position fraction xs.length]? = some (percentile xs fraction) := by
  have hlt : position fraction xs.length < xs.length := position_lt (List.length_pos_iff.mpr hne)
  rw [percentile, ← position, List.getD_eq_getElem _ _ hlt, List.getElem?_eq_getElem hlt]

/-- On an ascending list of numbers the order of positions is that of the elements. -/
theorem Numbers.le_of_getElem? {x y : Float} {i j : Nat} (hnumbers : Numbers xs) (h : Ascends xs)
    (hle : i ≤ j) (hx : xs[i]? = some x) (hy : xs[j]? = some y) : x ≤ y := by
  rw [le_iff_value (hnumbers x (List.mem_of_getElem? hx)) (hnumbers y (List.mem_of_getElem? hy))]
  obtain ⟨hi, rfl⟩ := List.getElem?_eq_some_iff.mp hx
  obtain ⟨hj, rfl⟩ := List.getElem?_eq_some_iff.mp hy
  rcases hle.lt_or_eq with hlt | rfl
  · exact List.pairwise_iff_getElem.mp h i j hi hj hlt
  · exact le_rfl

structure Located (xs : List Float) : Prop where
  within : ∀ fraction, position fraction xs.length < xs.length
  found : ∀ fraction, xs[position fraction xs.length]? = some (percentile xs fraction)
  mem : ∀ fraction, percentile xs fraction ∈ xs

/-- What is read off a list that ascends. Past the first bound a count may be rounded down by two,
which hides the last element from a fraction of exactly one. -/
structure Climbs (xs : List Float) : Prop where
  mono : ∀ lower upper, lower ≤ upper → percentile xs lower ≤ percentile xs upper
  least : ∀ fraction, fraction ≤ 0.0 → xs.head? = some (percentile xs fraction) ∧
    ∀ x ∈ xs, percentile xs fraction ≤ x
  greatest : ∀ fraction, 1.0 ≤ fraction → xs.length ≤ 2 ^ 54 + 1 →
    xs.getLast? = some (percentile xs fraction) ∧ ∀ x ∈ xs, x ≤ percentile xs fraction
  greatest_above : ∀ fraction, 1.0 < fraction → xs.length < 2 ^ 64 →
    xs.getLast? = some (percentile xs fraction) ∧ ∀ x ∈ xs, x ≤ percentile xs fraction

theorem located (hne : xs ≠ []) : Located xs where
  within _ := position_lt (List.length_pos_iff.mpr hne)
  found := getElem?_position hne
  mem := percentile_mem hne

theorem least_of_position (hne : xs ≠ []) (hnumbers : Numbers xs) (h : Ascends xs)
    (hposition : position fraction xs.length = 0) :
    xs.head? = some (percentile xs fraction) ∧ ∀ x ∈ xs, percentile xs fraction ≤ x := by
  have hfound := getElem?_position hne fraction
  rw [hposition] at hfound
  refine ⟨List.head?_eq_getElem?.trans hfound, fun x hx => ?_⟩
  obtain ⟨i, hi⟩ := List.getElem?_of_mem hx
  exact hnumbers.le_of_getElem? h (Nat.zero_le i) hfound hi

theorem greatest_of_position (hne : xs ≠ []) (hnumbers : Numbers xs) (h : Ascends xs)
    (hposition : position fraction xs.length = xs.length - 1) :
    xs.getLast? = some (percentile xs fraction) ∧ ∀ x ∈ xs, x ≤ percentile xs fraction := by
  have hfound := getElem?_position hne fraction
  rw [hposition] at hfound
  refine ⟨List.getLast?_eq_getElem?.trans hfound, fun x hx => ?_⟩
  obtain ⟨i, hi⟩ := List.getElem?_of_mem hx
  have hlt : i < xs.length := (List.getElem?_eq_some_iff.mp hi).1
  exact hnumbers.le_of_getElem? h (by omega) hi hfound

theorem climbs (hne : xs ≠ []) (hnumbers : Numbers xs) (h : Ascends xs) : Climbs xs := by
  have hpos : 0 < xs.length := List.length_pos_iff.mpr hne
  have hfound := getElem?_position hne
  constructor
  case mono =>
    intro lower upper hle
    exact hnumbers.le_of_getElem? h (position_mono hpos hle) (hfound lower) (hfound upper)
  case least =>
    intro fraction hle
    exact least_of_position hne hnumbers h (position_of_nonpos hpos hle)
  case greatest =>
    intro fraction hone hlength
    have hrank := le_rankIndex_of_one_le hpos hlength hone
    exact greatest_of_position hne hnumbers h (position_eq_last hrank)
  case greatest_above =>
    intro fraction hone hlength
    have hrank := le_rankIndex_of_one_lt hpos hlength hone
    exact greatest_of_position hne hnumbers h (position_eq_last hrank)

theorem ascends_of_pairwise (hnumbers : Numbers xs) (h : xs.Pairwise (· ≤ ·)) : Ascends xs :=
  List.Pairwise.imp_of_mem
    (fun hx hy hle => (le_iff_value (hnumbers _ hx) (hnumbers _ hy)).mp hle) h

/-- A percentile is an element of the list, at a position within it. On an ascending list of
numbers it ascends with the fraction, from the first element. At one it is the last element if
the list has at most `2 ^ 54 + 1` elements, and above one if their count fits its word. -/
theorem percentiles_located (hne : xs ≠ []) :
    Located xs ∧ (Numbers xs → xs.Pairwise (· ≤ ·) → Climbs xs) :=
  ⟨located hne, fun hnumbers h => climbs hne hnumbers (ascends_of_pairwise hnumbers h)⟩

/-- Both zeros above negative infinity; the product at an infinite fraction is infinite, and the
one at an undefined fraction undefined. -/
theorem percentiles_located_zeros :
    let xs := [Float.ofBits 0xfff0000000000000, -0.0, 0.0, 2.5]
    (xs ≠ [] ∧ Numbers xs ∧ xs.Pairwise (· ≤ ·)) ∧ Located xs ∧ Climbs xs ∧
      percentile xs (0.0 / 0.0) = Float.ofBits 0xfff0000000000000 ∧
      percentile xs (1.0 / 0.0) = 2.5 := by
  intro xs
  have hne : xs ≠ [] := List.cons_ne_nil _ _
  have hnumbers : Numbers xs := by decide
  have hpairwise : xs.Pairwise (· ≤ ·) := by decide
  obtain ⟨hlocated, hclimbs⟩ := percentiles_located hne
  exact ⟨⟨hne, hnumbers, hpairwise⟩, hlocated, hclimbs hnumbers hpairwise, by decide, by decide⟩

/-! ## Past the bound -/

theorem pairwise_replicate_append {low high : Float} (n : Nat) (hlow : low ≤ low)
    (hle : low ≤ high) : (List.replicate n low ++ [high]).Pairwise (· ≤ ·) := by
  refine List.pairwise_append.mpr ⟨?_, List.pairwise_singleton _ _, ?_⟩
  · exact List.pairwise_replicate.mpr (.inr hlow)
  · intro x hx y hy
    rw [List.eq_of_mem_replicate hx, List.mem_singleton.mp hy]
    exact hle

theorem percentile_replicate_append {low high : Float} {n : Nat}
    (h : position fraction (n + 1) < n) :
    percentile (List.replicate n low ++ [high]) fraction = low := by
  have hfound := getElem?_position (List.concat_ne_nil high (List.replicate n low)) fraction
  rw [List.length_append, List.length_replicate, List.length_singleton,
    List.getElem?_append_left (by rwa [List.length_replicate]),
    List.getElem?_replicate_of_lt h] at hfound
  exact (Option.some.inj hfound).symm

/-- One element past the bound, the greatest element of an ascending list is not found at one. -/
theorem greatest_missed :
    let xs := List.replicate (2 ^ 54 + 1) 0.0 ++ [1.0]
    (xs ≠ [] ∧ Numbers xs ∧ xs.Pairwise (· ≤ ·)) ∧ 1.0 ≤ (1.0 : Float) ∧
      percentile xs 1.0 = 0.0 ∧ ∃ x ∈ xs, percentile xs 1.0 < x := by
  intro xs
  have hposition : position 1.0 (2 ^ 54 + 1 + 1) < 2 ^ 54 + 1 := by
    rw [position, rankIndex_past_bound]
    omega
  have hlow : percentile xs 1.0 = 0.0 := percentile_replicate_append hposition
  have hhigh : (1.0 : Float) ∈ xs := List.mem_append_right _ (List.mem_singleton.mpr rfl)
  have hnumbers : Numbers xs := by
    intro x hx
    rcases List.mem_append.mp hx with hx | hx
    · rw [List.eq_of_mem_replicate hx]
      decide
    · rw [List.mem_singleton.mp hx]
      decide
  have hpairwise : xs.Pairwise (· ≤ ·) := pairwise_replicate_append _ (by decide) (by decide)
  refine ⟨⟨List.ne_nil_of_mem hhigh, hnumbers, hpairwise⟩, by decide, hlow, 1.0, hhigh, ?_⟩
  rw [hlow]
  decide

end

end PerfGate.Statistics
