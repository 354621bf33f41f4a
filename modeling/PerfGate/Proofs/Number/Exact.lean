import PerfGate.Proofs.Number.Rounding

/-!
# Exact values

Each number has an exact rational value, and the order of numbers is that of their values. A
number rounds a rational if it is the nearest one in the grid; rounding keeps the order and
leaves alone what is a number already, so bounds by numbers go through it unchanged.
-/

set_option autoImplicit false

namespace PerfGate.Number

open Float.Model.UnpackedFloat

def least : ℚ := 2 ^ (-1074 : ℤ)

theorem least_pos : 0 < least := by
  rw [least]
  positivity

theorem mul_zpow_least (q : ℚ) (e : ℤ) : q * 2 ^ (e + 1074) * least = q * 2 ^ e := by
  rw [least, mul_assoc, ← zpow_add₀ two_ne_zero, add_neg_cancel_right]

theorem packed_mul_least (m k : Nat) :
    ((m * 2 ^ k : Nat) : ℚ) * least = m * 2 ^ ((k : ℤ) - 1074) := by
  rw [least, Nat.cast_mul, Nat.cast_pow, Nat.cast_ofNat, mul_assoc, ← zpow_natCast (2 : ℚ) k,
    ← zpow_add₀ two_ne_zero, ← sub_eq_add_neg]

/-! ## Signed points of the grid -/

def signedUnits (p : Int) : Int := p.sign * units p.natAbs

@[simp] theorem units_zero : units 0 = 0 := rfl

theorem units_pos {g : Nat} (h : 0 < g) : 0 < units g := units_strictMono h

@[simp] theorem signedUnits_natCast (g : Nat) : signedUnits g = units g := by
  rcases Nat.eq_zero_or_pos g with rfl | hpos
  · rfl
  · rw [signedUnits, Int.sign_natCast_of_ne_zero hpos.ne', Int.natAbs_natCast, one_mul]

@[simp] theorem signedUnits_neg (p : Int) : signedUnits (-p) = -signedUnits p := by
  rw [signedUnits, Int.sign_neg, Int.natAbs_neg, neg_mul, signedUnits]

theorem signedUnits_strictMono : StrictMono signedUnits := by
  intro p q hlt
  obtain ⟨g, rfl | rfl⟩ := p.eq_nat_or_neg <;> obtain ⟨h, rfl | rfl⟩ := q.eq_nat_or_neg <;>
    simp only [signedUnits_natCast, signedUnits_neg]
  · exact_mod_cast units_strictMono (by omega)
  · omega
  · rcases Nat.eq_zero_or_pos g with rfl | hpos
    · have hright := units_pos (show 0 < h by omega)
      rw [units_zero]
      omega
    · have hleft := units_pos hpos
      omega
  · have hunits : units h < units g := units_strictMono (by omega)
    omega

/-! ## Values of numbers -/

/-- The exact value of a number. An infinity has the value at which the range ends. -/
def value (x : Float) : ℚ := signedUnits (place x) * least

section
variable {x y : Float}

theorem value_lt_iff_place : value x < value y ↔ place x < place y := by
  rw [value, value, mul_lt_mul_iff_left₀ least_pos, Int.cast_lt, signedUnits_strictMono.lt_iff_lt]

theorem value_le_iff_place : value x ≤ value y ↔ place x ≤ place y := by
  rw [value, value, mul_le_mul_iff_left₀ least_pos, Int.cast_le, signedUnits_strictMono.le_iff_le]

theorem lt_iff_value (hx : x.isNaN = false) (hy : y.isNaN = false) :
    x < y ↔ value x < value y := by
  rw [lt_iff hx hy, value_lt_iff_place]

theorem le_iff_value (hx : x.isNaN = false) (hy : y.isNaN = false) :
    x ≤ y ↔ value x ≤ value y := by
  rw [le_iff hx hy, value_le_iff_place]

theorem beq_iff_value (hx : x.isNaN = false) (hy : y.isNaN = false) :
    (x == y) = true ↔ value x = value y := by
  rw [beq_iff hx hy, le_antisymm_iff, le_antisymm_iff, value_le_iff_place, value_le_iff_place]

theorem value_eq {s : Sign} {g : Nat} (hs : signOf x = s) (hg : magnitude x = g) :
    value x = s.apply (units g) * least := by
  rw [value, place, hs, hg]
  cases s <;> simp [Sign.apply]

theorem value_eq_zero (h : place x = 0) : value x = 0 := by
  rw [value, h]
  exact zero_mul _

theorem value_zero : value 0.0 = 0 := value_eq_zero (by decide)

/-- A place that packs a significand and an exponent has the value that they make up. -/
theorem value_packed {m k : Nat} (h : place x = (m + k * 2 ^ 52 : Nat)) (hm : m ≤ 2 ^ 53)
    (hk : 0 < k → 2 ^ 52 ≤ m) : value x = m * 2 ^ ((k : ℤ) - 1074) := by
  rw [value, h, signedUnits_natCast, Int.cast_natCast, units_packed hm hk, packed_mul_least]

theorem magnitude_eq_natAbs_place : magnitude x = (place x).natAbs := by
  rw [place]
  cases signOf x <;> simp [Sign.apply]

theorem isFinite_between {lo hi : Float} (hlo : lo.isFinite = true) (hhi : hi.isFinite = true)
    (hlow : value lo ≤ value x) (hhigh : value x ≤ value hi) : x.isFinite = true := by
  rw [isFinite_iff, magnitude_eq_natAbs_place] at *
  rw [value_le_iff_place] at hlow hhigh
  omega

theorem value_nonneg_of_positive (h : signOf x = .positive) : 0 ≤ value x := by
  rw [value_eq h rfl]
  exact mul_nonneg (Int.cast_nonneg (Int.natCast_nonneg _)) least_pos.le

theorem value_nonpos_of_negative (h : signOf x = .negative) : value x ≤ 0 := by
  rw [value_eq h rfl]
  exact mul_nonpos_of_nonpos_of_nonneg (by simp [Sign.apply]) least_pos.le

theorem abs_value : |value x| = units (magnitude x) * least := by
  rw [value_eq rfl rfl, abs_mul, abs_of_pos least_pos]
  cases signOf x <;> simp [Sign.apply]

theorem abs_value_le_iff : |value x| ≤ |value y| ↔ magnitude x ≤ magnitude y := by
  rw [abs_value, abs_value, mul_le_mul_iff_left₀ least_pos, Nat.cast_le,
    units_strictMono.le_iff_le]

/-! ## Rounding -/

/-- A number that is nearest to a rational, or the infinity that stands past the range. -/
structure Rounds (q : ℚ) (x : Float) : Prop where
  nearest : ∃ g, Nearest (|q| / least) g ∧ magnitude x = min g infinityWord
  positive : 0 < q → signOf x = .positive
  negative : q < 0 → signOf x = .negative

theorem Rounds.isNaN {q : ℚ} (h : Rounds q x) : x.isNaN = false := by
  obtain ⟨g, _, hg⟩ := h.nearest
  rw [← Bool.not_eq_true, isNaN_iff, hg]
  omega

theorem Rounds.magnitude_eq_zero (h : Rounds 0 x) : magnitude x = 0 := by
  obtain ⟨g, hg, hx⟩ := h.nearest
  rw [abs_zero, zero_div] at hg
  obtain rfl : g = 0 := hg.eq_of_eq_units (by simp)
  exact hx

theorem Rounds.place_of_nonneg {q : ℚ} (h : Rounds q x) (hq : 0 ≤ q) : place x = magnitude x := by
  rcases hq.lt_or_eq with hpos | rfl
  · rw [place, h.positive hpos]
    rfl
  · rw [place, h.magnitude_eq_zero]
    cases signOf x <;> rfl

theorem Rounds.place_of_neg {q : ℚ} (h : Rounds q x) (hq : q < 0) : place x = -magnitude x := by
  rw [place, h.negative hq]
  rfl

theorem Rounds.magnitude_le {q r : ℚ} (hx : Rounds q x) (hy : Rounds r y) (h : |q| ≤ |r|) :
    magnitude x ≤ magnitude y := by
  obtain ⟨g, hg, hgx⟩ := hx.nearest
  obtain ⟨g', hg', hgy⟩ := hy.nearest
  have hle : g ≤ g' := hg.le hg' ((div_le_div_iff_of_pos_right least_pos).mpr h)
  omega

/-- Rounding keeps the order. -/
theorem Rounds.value_le {q r : ℚ} (hx : Rounds q x) (hy : Rounds r y) (h : q ≤ r) :
    value x ≤ value y := by
  rw [value_le_iff_place]
  rcases lt_or_ge q 0 with hq | hq <;> rcases lt_or_ge r 0 with hr | hr
  · have := hy.magnitude_le hx (by rw [abs_of_neg hq, abs_of_neg hr]; linarith)
    rw [hx.place_of_neg hq, hy.place_of_neg hr]
    omega
  · rw [hx.place_of_neg hq, hy.place_of_nonneg hr]
    omega
  · exact absurd (hq.trans h) (not_le.mpr hr)
  · have := hx.magnitude_le hy (by rw [abs_of_nonneg hq, abs_of_nonneg hr]; exact h)
    rw [hx.place_of_nonneg hq, hy.place_of_nonneg hr]
    omega

/-- A number rounds its own value. -/
theorem rounds_value (hx : x.isNaN = false) : Rounds (value x) x where
  nearest := by
    rw [← Bool.not_eq_true, isNaN_iff] at hx
    refine ⟨magnitude x, ?_, by omega⟩
    rw [abs_value, mul_div_cancel_right₀ _ least_pos.ne']
    exact nearest_units _
  positive hpos := by
    cases hs : signOf x with
    | positive => rfl
    | negative => exact absurd hpos (not_lt.mpr (value_nonpos_of_negative hs))
  negative hneg := by
    cases hs : signOf x with
    | positive => exact absurd hneg (not_lt.mpr (value_nonneg_of_positive hs))
    | negative => rfl

theorem Rounds.le_value {q : ℚ} (hx : Rounds q x) (hy : y.isNaN = false) (h : value y ≤ q) :
    value y ≤ value x :=
  (rounds_value hy).value_le hx h

theorem Rounds.nonneg {q : ℚ} (hx : Rounds q x) (hq : 0 ≤ q) : 0 ≤ value x := by
  rw [value, hx.place_of_nonneg hq, signedUnits_natCast]
  exact mul_nonneg (Nat.cast_nonneg _) least_pos.le

/-- What is on the grid, and not past the range, is not rounded. -/
theorem Rounds.value_eq_of_grid {q : ℚ} {g : Nat} (hx : Rounds q x) (hg : g ≤ infinityWord)
    (hq : |q| = units g * least) : value x = q := by
  obtain ⟨h, hh, hmagnitude⟩ := hx.nearest
  rw [hq, mul_div_cancel_right₀ _ least_pos.ne'] at hh
  rw [hh.eq_of_eq_units rfl, min_eq_left hg] at hmagnitude
  rcases lt_or_ge q 0 with hneg | hnonneg
  · rw [value, hx.place_of_neg hneg, signedUnits_neg, signedUnits_natCast, hmagnitude,
      Int.cast_neg, neg_mul, Int.cast_natCast, ← hq, abs_of_neg hneg, neg_neg]
  · rw [value, hx.place_of_nonneg hnonneg, signedUnits_natCast, hmagnitude, Int.cast_natCast,
      ← hq, abs_of_nonneg hnonneg]

/-! ## The range -/

theorem packed_le_units_infinityWord {m k : Nat} (hm : m ≤ 2 ^ 53) (hk : k ≤ 2045) :
    m * 2 ^ k ≤ units infinityWord := by
  obtain ⟨j, hj⟩ : ∃ j, j = 2045 := ⟨_, rfl⟩
  have hword : infinityWord = 2 ^ 53 + j * 2 ^ 52 := by rw [hj]; decide
  rw [hword, units_packed le_rfl (fun _ => by omega)]
  exact Nat.mul_le_mul hm (Nat.pow_le_pow_right two_pos (hj ▸ hk))

/-- Every magnitude of the range is that of a number. -/
theorem exists_place {g : Nat} (hg : g ≤ infinityWord) :
    ∃ y : Float, y.isNaN = false ∧ place y = g := by
  have hlt : g < Decimal.Binary.signBit := hg.trans_lt (by decide)
  have hword : (UInt64.ofNat g).toNat = g :=
    UInt64.toNat_ofNat_of_lt (hlt.trans (show Decimal.Binary.signBit < UInt64.size by decide))
  have hmod : (UInt64.ofNat g).toNat % Decimal.Binary.signBit = g := by
    rw [hword, Nat.mod_eq_of_lt hlt]
  obtain ⟨hsign, hmagnitude⟩ := ofBits_components (hmod.trans_le hg)
  rw [hword, if_pos hlt] at hsign
  rw [hmod] at hmagnitude
  refine ⟨Float.ofBits (UInt64.ofNat g), ?_, ?_⟩
  · rw [← Bool.not_eq_true, isNaN_iff]
    omega
  · rw [place, hsign, hmagnitude]
    rfl

/-- What a significand and an exponent in the range make up is a number. -/
theorem exists_value_packed {m k : Nat} (hm : m < 2 ^ 53) (hk : k ≤ 2045) :
    ∃ y : Float, y.isNaN = false ∧ value y = m * 2 ^ ((k : ℤ) - 1074) := by
  obtain ⟨g, hg⟩ := exists_units_mul_two_pow hm k
  have hle : g ≤ infinityWord := by
    rw [← units_strictMono.le_iff_le, hg]
    exact packed_le_units_infinityWord hm.le hk
  obtain ⟨y, hy, hplace⟩ := exists_place hle
  refine ⟨y, hy, ?_⟩
  rw [value, hplace, signedUnits_natCast, Int.cast_natCast, hg, packed_mul_least]

/-- What a significand and an exponent in the range make up is not rounded. -/
theorem Rounds.value_eq_packed {m k : Nat} (hm : m < 2 ^ 53) (hk : k ≤ 2045)
    (hx : Rounds (m * 2 ^ ((k : ℤ) - 1074)) x) : value x = m * 2 ^ ((k : ℤ) - 1074) := by
  obtain ⟨g, hg⟩ := exists_units_mul_two_pow hm k
  have hle : g ≤ infinityWord := by
    rw [← units_strictMono.le_iff_le, hg]
    exact packed_le_units_infinityWord hm.le hk
  refine hx.value_eq_of_grid hle ?_
  rw [hg, packed_mul_least, abs_of_nonneg (mul_nonneg (Nat.cast_nonneg m) (by positivity))]

/-- Rounding does not go past what a significand and an exponent in the range make up. -/
theorem Rounds.value_le_packed {q : ℚ} {m k : Nat} (hx : Rounds q x) (hm : m < 2 ^ 53)
    (hk : k ≤ 2045) (hq : q ≤ m * 2 ^ ((k : ℤ) - 1074)) :
    value x ≤ m * 2 ^ ((k : ℤ) - 1074) := by
  obtain ⟨y, hy⟩ := exists_value_packed hm hk
  exact hy.2 ▸ hx.value_le (rounds_value hy.1) (hy.2 ▸ hq)

theorem Rounds.abs_value_le_packed {q : ℚ} {m k : Nat} (hx : Rounds q x) (hm : m < 2 ^ 53)
    (hk : k ≤ 2045) (hq : |q| ≤ m * 2 ^ ((k : ℤ) - 1074)) :
    |value x| ≤ m * 2 ^ ((k : ℤ) - 1074) := by
  obtain ⟨y, hy, hvalue⟩ := exists_value_packed hm hk
  rw [← hvalue] at hq ⊢
  have hle := hx.magnitude_le (rounds_value hy) (hq.trans (le_abs_self _))
  have hnonneg : 0 ≤ value y := by
    rw [hvalue]
    positivity
  calc |value x| ≤ |value y| := abs_value_le_iff.mpr hle
    _ = value y := abs_of_nonneg hnonneg

/-- Whatever stays within a number of the range is finite. -/
theorem Rounds.isFinite_of_le {q : ℚ} {m k : Nat} (hx : Rounds q x) (hm : m < 2 ^ 53)
    (hk : k ≤ 2045) (hq : |q| ≤ m * 2 ^ ((k : ℤ) - 1074)) : x.isFinite = true := by
  obtain ⟨h, hh⟩ := exists_units_mul_two_pow hm k
  obtain ⟨g, hg, hmagnitude⟩ := hx.nearest
  have hle : g ≤ h := by
    refine hg.le_of_le_units ?_
    rwa [div_le_iff₀ least_pos, hh, packed_mul_least]
  have hlt : h < infinityWord := by
    rw [← units_strictMono.lt_iff_lt, hh]
    exact (Nat.mul_lt_mul_of_pos_right hm (Nat.two_pow_pos k)).trans_le
      (packed_le_units_infinityWord le_rfl hk)
  rw [isFinite_iff, hmagnitude]
  omega

/-- Whatever is bounded by a multiple of a power of two, well inside of the range, stays so. -/
theorem Rounds.bounded {q : ℚ} {m j : Nat} (hx : Rounds q x) (hm : m < 2 ^ 53) (hj : j ≤ 971)
    (hq : |q| ≤ m * 2 ^ j) : x.isFinite = true ∧ |value x| ≤ m * 2 ^ j := by
  have hpower : (2 : ℚ) ^ j = 2 ^ (((j + 1074 : Nat) : ℤ) - 1074) := by
    rw [Nat.cast_add, Nat.cast_ofNat, add_sub_cancel_right, zpow_natCast]
  rw [hpower] at hq ⊢
  exact ⟨hx.isFinite_of_le hm (by omega) hq, hx.abs_value_le_packed hm (by omega) hq⟩

end

end PerfGate.Number
