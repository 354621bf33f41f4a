import PerfGate.Measurement.Statistics
import PerfGate.Proofs.Number.Neighbours
import PerfGate.Proofs.Number.WholePart

/-!
# The rank of the 95th percentile

The fraction is a number just below nineteen twentieths. At every multiple of twenty its exact
product with the count is just below a whole number, and only rounding brings it up to that
number; at every other count the product stays clear of the next whole number. So the rank is the
whole part of nineteen twentieths of the count, as long as a product has five bits left for its
fraction.
-/

set_option autoImplicit false

namespace PerfGate.Statistics

open Number

/-- What falls short of a whole number by less than a share of it, or exceeds it by less than one
with five bits to spare, is cut off to that number once it has been rounded. -/
theorem toUInt64_of_close {q : ℚ} {x : Float} {n : Nat} (hx : Rounds q x) (hn : n < 2 ^ 48)
    (hlow : n * (1 - 1 / 2 ^ 54) < q) (hhigh : q ≤ n + 31 / 32) : x.toUInt64.toNat = n := by
  obtain ⟨hvalue, hfinite⟩ := (ofNat_rounds n).value_eq_natCast (by omega)
  have hle : n ≤ value x := by
    rw [← hvalue]
    apply hx.le_value_of_close (isNaN_of_isFinite hfinite)
    · rw [hvalue]
      exact Nat.cast_nonneg n
    · rwa [hvalue]
  have hshare : (0 : ℚ) ≤ n * (1 - 1 / 2 ^ 54) := mul_nonneg n.cast_nonneg (by norm_num)
  have hclear : q ≤ n + 1 - 1 / 2 ^ 5 := hhigh.trans_eq (by ring)
  obtain ⟨hwhole, hfloor⟩ := hx.floor_eq (by omega) (hshare.trans hlow.le) hle hclear
  rw [toUInt64_toNat hwhole, hfloor]
  exact min_eq_left (Nat.le_sub_one_of_lt (hn.trans (by decide)))

theorem value_p95Fraction : value p95Fraction = 19 / 20 - 1 / (5 * 2 ^ 52) := by
  have hplace : Number.place p95Fraction = (8556839292003942 + 1021 * 2 ^ 52 : Nat) := by
    decide
  rw [value_packed hplace (by omega) (by omega)]
  norm_num

theorem product_close {n : Nat} (hpos : 0 < n) :
    ((19 * n / 20 : Nat) : ℚ) * (1 - 1 / 2 ^ 54) < value p95Fraction * n ∧
      value p95Fraction * n ≤ (19 * n / 20 : Nat) + 31 / 32 := by
  have hcount : (0 : ℚ) < n := by exact_mod_cast hpos
  have hlow : ((20 * (19 * n / 20) : Nat) : ℚ) ≤ (19 * n : Nat) := by
    exact_mod_cast Nat.mul_div_le _ _
  have hhigh : ((19 * n : Nat) : ℚ) ≤ (20 * (19 * n / 20) + 19 : Nat) := by
    exact_mod_cast (show 19 * n ≤ 20 * (19 * n / 20) + 19 by omega)
  push_cast at hlow hhigh
  -- Of nineteen twentieths the fraction lacks less than the share that rounding makes good.
  rw [value_p95Fraction]
  constructor
  · linarith
  · linarith

/-- At a multiple of twenty the exact product is cut off one too low. -/
theorem floor_product {n : Nat} (hpos : 0 < n) (hsmall : n < 2 ^ 48) (h : 20 ∣ n) :
    ⌊value p95Fraction * n⌋₊ + 1 = 19 * n / 20 := by
  obtain ⟨k, rfl⟩ := h
  have hk : 0 < k := by omega
  have hrank : 19 * (20 * k) / 20 = 19 * k - 1 + 1 := by omega
  have hcount : (0 : ℚ) < k := by exact_mod_cast hk
  have hbound : (k : ℚ) < 2 ^ 48 := by exact_mod_cast (show k < 2 ^ 48 by omega)
  have hwhole : ((19 * k - 1 : Nat) : ℚ) = 19 * k - 1 := by
    rw [Nat.cast_sub (by omega)]
    push_cast
    rfl
  rw [hrank, add_left_inj, value_p95Fraction]
  push_cast
  apply (Nat.floor_eq_iff (by linarith)).mpr
  rw [hwhole]
  constructor
  · linarith
  · linarith

/-- The rank of the 95th percentile is the whole part of nineteen twentieths of the count, and
within the list; without rounding it would be one too low at every multiple of twenty. -/
theorem p95_rank_exact {n : Nat} (hpos : 0 < n) (hsmall : n < 2 ^ 48) :
    rankIndex p95Fraction n = 19 * n / 20 ∧ 19 * n / 20 < n ∧
    (∀ xs : List Float, xs.length = n →
      xs[19 * n / 20]? = some (percentile xs p95Fraction)) ∧
    (20 ∣ n → ⌊value p95Fraction * n⌋₊ + 1 = 19 * n / 20) := by
  have hwithin : 19 * n / 20 < n := by omega
  have hrank : rankIndex p95Fraction n = 19 * n / 20 := by
    obtain ⟨hlow, hhigh⟩ := product_close hpos
    obtain ⟨hvalue, hfinite⟩ := (ofNat_rounds n).value_eq_natCast (by omega)
    have hrounds := mul_rounds (x := p95Fraction) (by decide) hfinite
    rw [hvalue] at hrounds
    exact toUInt64_of_close hrounds (by omega) hlow hhigh
  refine ⟨hrank, hwithin, ?_, floor_product hpos hsmall⟩
  intro xs hlength
  have hclamp : min (19 * n / 20) (n - 1) = 19 * n / 20 := min_eq_left (by omega)
  rw [percentile, hlength, hrank, hclamp, List.getD_eq_getElem?_getD,
    List.getElem?_eq_getElem (by omega), Option.getD_some]

/-- The greatest multiple of twenty in the range. -/
theorem p95_rank_exact_greatest :
    (0 < 281474976710640 ∧ 281474976710640 < 2 ^ 48 ∧ 20 ∣ 281474976710640) ∧
    rankIndex p95Fraction 281474976710640 = 267401227875108 ∧
    ⌊value p95Fraction * (281474976710640 : Nat)⌋₊ = 267401227875107 := by
  have hmultiple : 20 ∣ 281474976710640 := by omega
  obtain ⟨hrank, _, _, hcut⟩ :=
    p95_rank_exact (n := 281474976710640) (by omega) (by omega)
  exact ⟨⟨by omega, by omega, hmultiple⟩, hrank, Nat.succ.inj (hcut hmultiple)⟩

end PerfGate.Statistics
