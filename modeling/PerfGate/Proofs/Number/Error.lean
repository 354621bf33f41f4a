import PerfGate.Proofs.Number.Defined
import PerfGate.Proofs.Number.Scientific

/-!
# Shares that are lost in rounding

Two rationals are so many steps apart if each is the other times at most so many powers of a number
that is a little more than one. A rounding in the normal range is one step, steps add up along
products and quotients, and a few steps are a small share of the number.
-/

set_option autoImplicit false

namespace PerfGate.Number

/-! ## One rounding -/

/-- From the least normal magnitude on, half of a gap is a small share of what lies in it. -/
theorem half_gap_le {q : ℚ} {g : Nat} (hq : 2 ^ 52 ≤ q) (hg : (units g : ℚ) ≤ q) :
    ((units (g + 1) : ℚ) - units g) / 2 ≤ q / 2 ^ 53 := by
  obtain ⟨m, k, rfl, hm, hk⟩ := exists_packed g
  rw [units_packed hm.le hk] at hg ⊢
  rw [units_packed_succ hm hk]
  have hgap : (2 : ℚ) ^ 52 * 2 ^ k ≤ q := by
    rcases Nat.eq_zero_or_pos k with rfl | hpos
    · simpa using hq
    · have hnormal : (2 : ℚ) ^ 52 ≤ m := by exact_mod_cast hk hpos
      push_cast at hg
      exact (mul_le_mul_of_nonneg_right hnormal (by positivity)).trans hg
  push_cast
  linarith

theorem Nearest.abs_sub_le {q : ℚ} {g : Nat} (h : Nearest q g) (hq : 2 ^ 52 ≤ q) :
    |(units g : ℚ) - q| ≤ q / 2 ^ 53 := by
  rw [abs_sub_le_iff]
  constructor
  · -- The point is above: the number is past the middle of the gap below it.
    cases g with
    | zero =>
      rw [units_zero, Nat.cast_zero]
      linarith [show (0 : ℚ) ≤ q / 2 ^ 53 by positivity]
    | succ g =>
      obtain ⟨hmiddle, -⟩ := h.above g rfl
      have hlt : (units g : ℚ) < units (g + 1) := by exact_mod_cast units_strictMono g.lt_succ_self
      rw [middle] at hmiddle
      have hgap := half_gap_le hq (g := g) (by linarith)
      linarith
  · rcases le_total (units g : ℚ) q with hle | hge
    · have hgap := half_gap_le hq hle
      have hmiddle := h.below.1
      rw [middle] at hmiddle
      linarith
    · linarith [show (0 : ℚ) ≤ q / 2 ^ 53 by positivity]

def leastNormal : ℚ := 2 ^ (-1022 : ℤ)

def greatest : ℚ := (2 ^ 53 - 1) * 2 ^ 971

theorem leastNormal_le : leastNormal ≤ 4 / 10 ^ 308 := by
  have hpowers : 10 ^ 308 ≤ 4 * 2 ^ 1022 := by decide +kernel
  have hcast := Nat.cast_le (α := ℚ).mpr hpowers
  rw [leastNormal, zpow_neg, zpow_ofNat, ← one_div,
    div_le_div_iff₀ (by positivity) (by positivity), one_mul]
  simpa only [Nat.cast_mul, Nat.cast_pow, Nat.cast_ofNat] using hcast

theorem le_greatest : 16 * 10 ^ 307 ≤ greatest := by
  have hpowers : 16 * 10 ^ 307 ≤ 9007199254740991 * 2 ^ 971 := by decide +kernel
  have hcast : ((16 * 10 ^ 307 : Nat) : ℚ) ≤ (9007199254740991 * 2 ^ 971 : Nat) :=
    Nat.cast_le.mpr hpowers
  rw [greatest, show (2 : ℚ) ^ 53 - 1 = 9007199254740991 by norm_num]
  simpa only [Nat.cast_mul, Nat.cast_pow, Nat.cast_ofNat] using hcast

section
variable {q : ℚ} {x : Float}

theorem Rounds.isFinite_of_range (h : Rounds q x) (hq : |q| ≤ greatest) : x.isFinite = true := by
  refine h.isFinite_of_le (m := 2 ^ 53 - 1) (k := 2045) (by decide) le_rfl (hq.trans (le_of_eq ?_))
  rw [greatest, show ((2045 : Nat) : ℤ) - 1074 = (971 : Nat) by norm_num, zpow_natCast]
  norm_num

/-- Rounding in the normal range loses a share of `2 ^ -53` at most. -/
theorem Rounds.abs_sub_le (h : Rounds q x) (hlow : leastNormal ≤ |q|) (hx : x.isFinite = true) :
    |(|value x|) - (|q|)| ≤ |q| / 2 ^ 53 := by
  obtain ⟨g, hg, hmagnitude⟩ := h.nearest
  rw [isFinite_iff] at hx
  have hword : magnitude x = g := by omega
  have hunits : (2 : ℚ) ^ 52 ≤ |q| / least := by
    rw [le_div_iff₀ least_pos, least, ← zpow_natCast, ← zpow_add₀ two_ne_zero]
    exact hlow
  have hclose := hg.abs_sub_le hunits
  have hexact : |q| = |q| / least * least := (div_mul_cancel₀ _ least_pos.ne').symm
  calc |(|value x|) - (|q|)| = |(units g : ℚ) - (|q|) / least| * least := by
        rw [abs_value, hword]
        nth_rewrite 1 [hexact]
        rw [← sub_mul, abs_mul, abs_of_pos least_pos]
    _ ≤ |q| / least / 2 ^ 53 * least := mul_le_mul_of_nonneg_right hclose least_pos.le
    _ = |q| / 2 ^ 53 := by rw [div_right_comm, div_mul_cancel₀ _ least_pos.ne']

end

/-! ## Steps -/

/-- A little more than one, so that the inverse covers a loss as well. -/
def step : ℚ := 2 ^ 53 / (2 ^ 53 - 1)

theorem one_le_step : 1 ≤ step := by norm_num [step]

theorem step_pos : 0 < step := zero_lt_one.trans_le one_le_step

/-- Each is at most the other times this many steps. -/
structure Close (k : Nat) (q r : ℚ) : Prop where
  left : q ≤ r * step ^ k
  right : r ≤ q * step ^ k

section
variable {i j k : Nat} {p q r s : ℚ}

theorem Close.symm (h : Close k q r) : Close k r q := ⟨h.right, h.left⟩

theorem Close.trans (hi : Close i p q) (hj : Close j q r) : Close (i + j) p r := by
  have hpi : (0 : ℚ) ≤ step ^ i := pow_nonneg step_pos.le i
  have hpj : (0 : ℚ) ≤ step ^ j := pow_nonneg step_pos.le j
  constructor
  · calc p ≤ q * step ^ i := hi.left
      _ ≤ r * step ^ j * step ^ i := mul_le_mul_of_nonneg_right hj.left hpi
      _ = r * step ^ (i + j) := by ring
  · calc r ≤ q * step ^ j := hj.right
      _ ≤ p * step ^ i * step ^ j := mul_le_mul_of_nonneg_right hi.right hpj
      _ = p * step ^ (i + j) := by ring

theorem Close.mul (hi : Close i p q) (hj : Close j r s) (hp : 0 ≤ p) (hq : 0 ≤ q) (hr : 0 ≤ r)
    (hs : 0 ≤ s) : Close (i + j) (p * r) (q * s) := by
  have hpi : (0 : ℚ) ≤ step ^ i := pow_nonneg step_pos.le i
  constructor
  · calc p * r ≤ q * step ^ i * (s * step ^ j) :=
          mul_le_mul hi.left hj.left hr (mul_nonneg hq hpi)
      _ = q * s * step ^ (i + j) := by ring
  · calc q * s ≤ p * step ^ i * (r * step ^ j) :=
          mul_le_mul hi.right hj.right hs (mul_nonneg hp hpi)
      _ = p * r * step ^ (i + j) := by ring

theorem Close.inv (h : Close k q r) (hq : 0 < q) (hr : 0 < r) : Close k q⁻¹ r⁻¹ := by
  have hpower : (0 : ℚ) < step ^ k := pow_pos step_pos k
  constructor
  · rw [inv_mul_eq_div, le_div_iff₀ hr, inv_mul_le_iff₀ hq]
    exact h.right
  · rw [inv_mul_eq_div, le_div_iff₀ hq, inv_mul_le_iff₀ hr]
    exact h.left

theorem Close.div (hi : Close i p q) (hj : Close j r s) (hp : 0 ≤ p) (hq : 0 ≤ q) (hr : 0 < r)
    (hs : 0 < s) : Close (i + j) (p / r) (q / s) := by
  rw [div_eq_mul_inv, div_eq_mul_inv]
  exact hi.mul (hj.inv hr hs) hp hq (inv_nonneg.mpr hr.le) (inv_nonneg.mpr hs.le)

/-- A loss of a small share is one step. -/
theorem close_of_abs_sub_le (hq : 0 ≤ q) (h : |r - q| ≤ q / 2 ^ 53) : Close 1 q r := by
  obtain ⟨hhigh, hlow⟩ := abs_sub_le_iff.mp h
  rw [div_eq_mul_inv] at hhigh hlow
  constructor
  · rw [pow_one, step, mul_div_assoc', le_div_iff₀ (by norm_num)]
    linarith
  · rw [pow_one, step, mul_div_assoc', le_div_iff₀ (by norm_num)]
    linarith

/-- Seven steps are a share of `2 ^ -50` at most. -/
theorem Close.abs_sub_le (h : Close k q r) (hk : k ≤ 7) (hq : 0 ≤ q) (hr : 0 ≤ r) :
    |r - q| ≤ q / 2 ^ 50 := by
  have hsteps : step ^ k ≤ 1 + 1 / 2 ^ 50 :=
    (pow_le_pow_right₀ one_le_step hk).trans (by norm_num [step])
  rw [abs_sub_le_iff]
  constructor
  · have hhigh := h.right.trans (mul_le_mul_of_nonneg_left hsteps hq)
    linarith
  · have hlow := h.left.trans (mul_le_mul_of_nonneg_left hsteps hr)
    have hshare : q * (1 - 1 / 2 ^ 50) ≤ r * (1 + 1 / 2 ^ 50) * (1 - 1 / 2 ^ 50) :=
      mul_le_mul_of_nonneg_right hlow (by norm_num)
    linarith

end

/-! ## Operations -/

/-- The rational is normal, and so is whatever is a few steps away from it. -/
structure Inside (q : ℚ) : Prop where
  low : 5 / 10 ^ 308 ≤ q
  high : q ≤ 15 * 10 ^ 307

structure Within (k : Nat) (q : ℚ) (x : Float) : Prop where
  finite : x.isFinite = true
  close : Close k q (value x)

section
variable {i j k : Nat} {p q r : ℚ} {x y : Float}

theorem Inside.pos (h : Inside q) : 0 < q := lt_of_lt_of_le (by positivity) h.low

theorem Inside.close_range (hq : Inside q) (h : Close k q r) (hk : k ≤ 7) (hr : 0 ≤ r) :
    leastNormal ≤ r ∧ r ≤ greatest := by
  obtain ⟨hhigh, hlow⟩ := abs_sub_le_iff.mp (h.abs_sub_le hk hq.pos.le hr)
  constructor
  · have hleast := leastNormal_le
    have hq := hq.low
    rw [div_eq_mul_inv] at hleast hq
    have hpower : (0 : ℚ) < (10 ^ 308)⁻¹ := by positivity
    generalize ((10 : ℚ) ^ 308)⁻¹ = power at hleast hq hpower
    linarith
  · have hgreatest := le_greatest
    have hq := hq.high
    have hpower : (0 : ℚ) < 10 ^ 307 := by positivity
    generalize (10 : ℚ) ^ 307 = power at hgreatest hq hpower
    linarith

theorem Within.pos (h : Within k q x) (hq : 0 < q) : 0 < value x := by
  by_contra! hle
  have hnonpos := mul_nonpos_of_nonpos_of_nonneg hle (pow_nonneg step_pos.le k)
  exact absurd (h.close.left.trans hnonpos) (not_le.mpr hq)

/-- Rounding adds a step. -/
theorem Rounds.within (h : Rounds r x) (hq : Inside q) (hr : 0 ≤ r) (hclose : Close k q r)
    (hk : k ≤ 7) : Within (k + 1) q x := by
  obtain ⟨hlow, hhigh⟩ := hq.close_range hclose hk hr
  have habs : |r| = r := abs_of_nonneg hr
  have hfinite := h.isFinite_of_range (habs.trans_le hhigh)
  have hshare := h.abs_sub_le (hlow.trans_eq habs.symm) hfinite
  rw [habs, abs_of_nonneg (h.nonneg hr)] at hshare
  exact ⟨hfinite, hclose.trans (close_of_abs_sub_le hr hshare)⟩

theorem close_refl (q : ℚ) : Close 0 q q := ⟨by simp, by simp⟩

theorem Rounds.within_one (h : Rounds q x) (hq : Inside q) : Within 1 q x :=
  h.within hq hq.pos.le (close_refl q) (by omega)

theorem Within.mul (hx : Within i p x) (hy : Within j r y) (hp : 0 < p) (hr : 0 < r)
    (hpr : Inside (p * r)) (hk : i + j ≤ 7) : Within (i + j + 1) (p * r) (x * y) := by
  have hxpos := hx.pos hp
  have hypos := hy.pos hr
  exact (mul_rounds hx.finite hy.finite).within hpr (mul_nonneg hxpos.le hypos.le)
    (hx.close.mul hy.close hp.le hxpos.le hr.le hypos.le) hk

theorem Within.div (hx : Within i p x) (hy : Within j r y) (hp : 0 < p) (hr : 0 < r)
    (hpr : Inside (p / r)) (hk : i + j ≤ 7) : Within (i + j + 1) (p / r) (x / y) := by
  have hxpos := hx.pos hp
  have hypos := hy.pos hr
  exact (div_rounds hx.finite hy.finite hypos.ne').within hpr (div_nonneg hxpos.le hypos.le)
    (hx.close.div hy.close hp.le hxpos.le hr hypos) hk

end

end PerfGate.Number
