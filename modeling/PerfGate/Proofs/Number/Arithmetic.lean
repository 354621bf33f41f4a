import PerfGate.Proofs.Number.Exact

/-!
# Arithmetic rounds exact results

Sums, differences, products and quotients of finite numbers are the exact results, rounded once,
and so are the numbers that stand for counts.
-/

set_option autoImplicit false

namespace PerfGate.Number

open Float.Model (UnpackedFloat Format totalExponent)
open Float.Model.UnpackedFloat

/-! ## Signs -/

def signed : Sign → ℚ → ℚ
  | .negative, q => -q
  | .positive, q => q

theorem cast_apply (s : Sign) (n : Int) : ((s.apply n : Int) : ℚ) = signed s n := by
  cases s <;> simp [Sign.apply, signed]

theorem abs_signed (s : Sign) (q : ℚ) : |signed s q| = |q| := by
  cases s <;> simp [signed]

theorem signed_mul_right (s : Sign) (q r : ℚ) : signed s (q * r) = signed s q * r := by
  cases s <;> simp [signed]

theorem signed_mul (s t : Sign) (q r : ℚ) : signed (s * t) (q * r) = signed s q * signed t r := by
  cases s <;> cases t
  · exact (neg_mul_neg q r).symm
  · exact (neg_mul q r).symm
  · exact (mul_neg q r).symm
  · rfl

theorem signed_div (s t : Sign) (q r : ℚ) : signed (s / t) (q / r) = signed s q / signed t r := by
  cases s <;> cases t
  · exact (neg_div_neg_eq q r).symm
  · exact (neg_div r q).symm
  · exact (div_neg q).symm
  · rfl

theorem signed_neg (s : Sign) (q : ℚ) : signed (-s) q = -signed s q := by
  cases s
  · exact (neg_neg q).symm
  · rfl

theorem RoundsTo.rounds {s : Sign} {q : ℚ} {x : Float} (h : RoundsTo s q x) (hq : 0 ≤ q) :
    Rounds (signed s (q * least)) x where
  nearest := by
    rw [abs_signed, abs_of_nonneg (mul_nonneg hq least_pos.le),
      mul_div_cancel_right₀ _ least_pos.ne']
    exact h.2
  positive hpos := by
    have hle := mul_nonneg hq least_pos.le
    cases s with
    | positive => exact h.1
    | negative => exact absurd hpos (by simp only [signed]; linarith)
  negative hneg := by
    have hle := mul_nonneg hq least_pos.le
    cases s with
    | positive => exact absurd hneg (by simp only [signed]; linarith)
    | negative => exact h.1

section
variable {s : Sign} {m k : Nat} {e : Int} {h : 0 < m}

theorem log2_of_normal (h : 0 < m) (he : e = (k : Int) - 1074) (hk : 0 < k → 2 ^ 52 ≤ m) :
    52 ≤ m.log2 ∨ e ≤ -1074 := by
  rcases Nat.eq_zero_or_pos k with rfl | hpos
  · exact .inr (by omega)
  · exact .inl ((Nat.le_log2 h.ne').mpr (hk hpos))

theorem rounds_packed_finite (he : e = (k : Int) - 1074) (hm : m < 2 ^ 53)
    (hk : 0 < k → 2 ^ 52 ≤ m) : Rounds (signed s m * 2 ^ e) (packed (.finite s m e h)) := by
  obtain ⟨hsign, hmagnitude⟩ := packed_finite (s := s) (h := h) hm hk he
  have hrounds : RoundsTo s (units (m + k * 2 ^ 52)) (packed (.finite s m e h)) :=
    ⟨hsign, _, nearest_units _, hmagnitude⟩
  have hvalue : signed s m * 2 ^ e = signed s (units (m + k * 2 ^ 52) * least) := by
    rw [units_packed hm.le hk, packed_mul_least, he, signed_mul_right]
  rw [hvalue]
  exact hrounds.rounds (by positivity)

end

theorem rounds_packed_zero (s : Sign) : Rounds 0 (packed (.zero s)) where
  nearest := ⟨0, by simpa using nearest_units 0, (packed_zero s).2⟩
  positive h := absurd h (lt_irrefl 0)
  negative h := absurd h (lt_irrefl 0)

/-! ## Numbers that are taken apart -/

inductive Stands : ℚ → UnpackedFloat → Prop where
  | zero {s : Sign} : Stands 0 (.zero s)
  | finite {s : Sign} {m : Nat} {e : Int} {h : 0 < m} (k : Nat) (exponent : e = (k : Int) - 1074)
      (below : m < 2 ^ 53) (normal : 0 < k → 2 ^ 52 ≤ m) :
      Stands (signed s m * 2 ^ e) (.finite s m e h)

theorem stands {x : Float} (hx : x.isFinite = true) : Stands (value x) x.toModel.unpack := by
  have hlt := isFinite_iff.mp hx
  have hi : infinityWord = 2047 * 2 ^ 52 := rfl
  have hreads := reads x
  have hvalue := value_eq (x := x) rfl rfl
  generalize value x = q at *
  generalize magnitude x = g at *
  generalize signOf x = s at *
  generalize x.toModel.unpack = u at *
  cases hreads with
  | undefined => omega
  | infinite => omega
  | zero =>
    obtain rfl : q = 0 := by rw [hvalue]; cases s <;> simp [Sign.apply]
    exact .zero
  | finite k hg he hm hk hn =>
    rw [hvalue, hg, units_packed hm.le hn, cast_apply, Int.cast_natCast, ← signed_mul_right,
      packed_mul_least, ← he, signed_mul_right]
    exact .finite k he hm hn

theorem Stands.rounds {q : ℚ} {u : UnpackedFloat} (h : Stands q u) : Rounds q (packed u) := by
  cases h with
  | zero => exact rounds_packed_zero _
  | finite k he hm hk => exact rounds_packed_finite he hm hk

theorem Stands.neg {q : ℚ} {u : UnpackedFloat} (h : Stands q u) : Stands (-q) u.neg := by
  cases h with
  | zero =>
    rw [neg_zero]
    exact .zero
  | finite k he hm hk =>
    rw [← neg_mul, ← signed_neg]
    exact .finite k he hm hk

/-! ## Whole multiples of a power of two -/

theorem log2_shiftLeft_le {m a : Nat} (h : 0 < m) : m.log2 + a ≤ (m <<< a).log2 := by
  have hpos : 0 < m <<< a := by
    rw [Nat.shiftLeft_eq]
    exact Nat.mul_pos h (Nat.two_pow_pos a)
  rw [Nat.le_log2 hpos.ne', Nat.shiftLeft_eq, pow_add]
  exact Nat.mul_le_mul_right _ (Nat.log2_self_le h.ne')

theorem shiftLeft_mul_zpow (m a : Nat) (e : Int) :
    ((m <<< a : Nat) : ℚ) * 2 ^ (e - a) = m * 2 ^ e := by
  rw [Nat.shiftLeft_eq, Nat.cast_mul, Nat.cast_pow, Nat.cast_ofNat, mul_assoc,
    ← zpow_natCast (2 : ℚ) a, ← zpow_add₀ two_ne_zero]
  congr 2
  omega

theorem round_rounds {s : Sign} {m : Nat} {e : Int} (h : 0 < m) :
    RoundsTo s (m * 2 ^ (e + 1074)) (packed (UnpackedFloat.round .binary64 s m e)) := by
  have htarget := targetExponent_eq m e
  rw [UnpackedFloat.round, decreaseExponent]
  generalize ha : (e - Format.binary64.targetExponent (totalExponent m e)).toNat = a
  have hlog := log2_shiftLeft_le (a := a) h
  have hrounds := roundWithAccuracy_rounds (s := s) (e := e - a) (holds_exact (m <<< a)) (by omega)
  rwa [show e - a + 1074 = e + 1074 - (a : Int) by omega, shiftLeft_mul_zpow] at hrounds

theorem normalize_rounds (n e : Int) :
    Rounds (n * 2 ^ e) (packed (UnpackedFloat.normalize .binary64 n e .positive)) := by
  rcases lt_trichotomy n 0 with hn | rfl | hn
  · have hround := (round_rounds (s := .negative) (e := e)
      (show 0 < (-n).toNat by omega)).rounds (by positivity)
    have hcast : (((-n).toNat : ℕ) : ℚ) = -n := by
      rw [← Int.cast_natCast, Int.toNat_of_nonneg (by omega), Int.cast_neg]
    rw [mul_zpow_least, signed, hcast, neg_mul, neg_neg] at hround
    rwa [UnpackedFloat.normalize, Int.compare_eq_lt.mpr hn]
  · rw [Int.cast_zero, zero_mul]
    exact rounds_packed_zero .positive
  · have hround := (round_rounds (s := .positive) (e := e)
      (show 0 < n.toNat by omega)).rounds (by positivity)
    have hcast : ((n.toNat : ℕ) : ℚ) = n := by
      rw [← Int.cast_natCast, Int.toNat_of_nonneg (by omega)]
    rw [mul_zpow_least, signed, hcast] at hround
    rwa [UnpackedFloat.normalize, Int.compare_eq_gt.mpr hn]

/-- A significand brought to a smaller exponent. -/
theorem apply_decreaseExponent {s : Sign} {m : Nat} {e e' : Int} (he : e' ≤ e) :
    ((s.apply (decreaseExponent m e e').1 : Int) : ℚ) * 2 ^ e' = signed s m * 2 ^ e := by
  have ha : e' = e - ((e - e').toNat : Int) := by omega
  rw [cast_apply, ← signed_mul_right, ← signed_mul_right, decreaseExponent, Int.cast_natCast]
  conv_lhs => rw [ha]
  simp only
  rw [show e - (e - ((e - e').toNat : Int)) = ((e - e').toNat : Int) by omega, Int.toNat_natCast,
    shiftLeft_mul_zpow]

/-! ## Sums and differences -/

theorem Stands.add {q r : ℚ} {u v : UnpackedFloat} (hu : Stands q u) (hv : Stands r v) :
    Rounds (q + r) (packed (UnpackedFloat.add .binary64 u v)) := by
  have hright := hv
  have hleft := hu
  cases hu with
  | zero =>
    rw [zero_add]
    cases hv with
    | zero =>
      simp only [UnpackedFloat.add]
      split <;> exact rounds_packed_zero _
    | finite => exact hright.rounds
  | @finite s m e h =>
    cases hv with
    | zero =>
      rw [add_zero]
      exact hleft.rounds
    | @finite t n f h' =>
      rw [← apply_decreaseExponent (min_le_left e f), ← apply_decreaseExponent (min_le_right e f),
        ← add_mul, ← Int.cast_add]
      exact normalize_rounds _ _

theorem unpacked_sub_eq_add_neg (u v : UnpackedFloat) :
    UnpackedFloat.sub .binary64 u v = UnpackedFloat.add .binary64 u v.neg := by
  have hsign : ∀ s t : Sign, (s == - -t) = (s == t) := by rintro ⟨⟩ ⟨⟩ <;> rfl
  have happly : ∀ (s : Sign) (n : Int), (-s).apply n = -s.apply n := by
    rintro ⟨⟩ n
    · exact (neg_neg n).symm
    · rfl
  cases u <;> cases v <;> try rfl
  simp only [UnpackedFloat.sub, UnpackedFloat.add, UnpackedFloat.neg, happly, Int.sub_eq_add_neg]

section
variable {x y : Float}

theorem add_rounds (hx : x.isFinite = true) (hy : y.isFinite = true) :
    Rounds (value x + value y) (x + y) :=
  (stands hx).add (stands hy)

theorem sub_rounds (hx : x.isFinite = true) (hy : y.isFinite = true) :
    Rounds (value x - value y) (x - y) := by
  change Rounds _ (packed (UnpackedFloat.sub .binary64 x.toModel.unpack y.toModel.unpack))
  rw [unpacked_sub_eq_add_neg, sub_eq_add_neg]
  exact (stands hx).add (stands hy).neg

end

/-! ## Products -/

theorem mul_finite_rounds {s t : Sign} {m n : Nat} {e f : Int} (h : 0 < m) (h' : 0 < n)
    (hbits : 52 ≤ (m * n).log2 ∨ e + f ≤ -1074) :
    Rounds (signed s m * 2 ^ e * (signed t n * 2 ^ f))
      (packed (UnpackedFloat.mul .binary64 (.finite s m e h) (.finite t n f h'))) := by
  have hround := (roundWithAccuracy_rounds (s := s * t) (holds_exact (m * n)) hbits).rounds
    (by positivity)
  rw [mul_zpow_least, Nat.cast_mul, zpow_add₀ two_ne_zero, signed_mul_right, signed_mul] at hround
  rw [mul_mul_mul_comm]
  exact hround

theorem Stands.mul {q r : ℚ} {u v : UnpackedFloat} (hu : Stands q u) (hv : Stands r v) :
    Rounds (q * r) (packed (UnpackedFloat.mul .binary64 u v)) := by
  cases hu with
  | zero =>
    rw [zero_mul]
    cases hv with
    | zero => exact rounds_packed_zero _
    | finite => exact rounds_packed_zero _
  | @finite s m e h k he hm hk =>
    cases hv with
    | zero =>
      rw [mul_zero]
      exact rounds_packed_zero _
    | @finite t n f h' l hf hn hl =>
      refine mul_finite_rounds h h' ?_
      have hpos := Nat.mul_pos h h'
      rcases log2_of_normal h he hk with hlogm | hem
      · exact .inl ((Nat.le_log2 hpos.ne').mpr
          (((Nat.le_log2 h.ne').mp hlogm).trans (Nat.le_mul_of_pos_right m h')))
      · rcases log2_of_normal h' hf hl with hlogn | hfn
        · exact .inl ((Nat.le_log2 hpos.ne').mpr
            (((Nat.le_log2 h'.ne').mp hlogn).trans (Nat.le_mul_of_pos_left n h)))
        · exact .inr (by omega)

theorem mul_rounds {x y : Float} (hx : x.isFinite = true) (hy : y.isFinite = true) :
    Rounds (value x * value y) (x * y) :=
  (stands hx).mul (stands hy)

/-! ## Quotients -/

/-- The remainder of a division says where the quotient lies past its whole part. -/
theorem holds_accuracyOfFraction {n d : Nat} (hd : 0 < d) :
    Holds (n / d) ((n : ℚ) / d) (accuracyOfFraction (n % d) d) := by
  have hd' : (0 : ℚ) < d := by exact_mod_cast hd
  have hn : (n : ℚ) / d = (n / d : Nat) + (n % d : Nat) / d := by
    rw [← sub_eq_iff_eq_add, ← sub_div, div_eq_iff hd'.ne', sub_eq_iff_eq_add]
    exact_mod_cast (Nat.div_add_mod' n d).symm
  have hlt : ((n % d : Nat) : ℚ) / d < 1 := by
    rw [div_lt_one hd']
    exact_mod_cast Nat.mod_lt n hd
  rw [hn, accuracyOfFraction]
  split
  next hzero => simp [Holds, hzero]
  next hzero =>
    have hpos : 0 < ((n % d : Nat) : ℚ) / d :=
      div_pos (by exact_mod_cast Nat.pos_of_ne_zero hzero) hd'
    rcases lt_trichotomy (2 * (n % d)) d with h | h | h
    · rw [Nat.compare_eq_lt.mpr h]
      have hhalf : ((n % d : Nat) : ℚ) / d < 1 / 2 := by
        rw [div_lt_div_iff₀ hd' two_pos]
        exact_mod_cast (by omega : n % d * 2 < 1 * d)
      constructor <;> linarith
    · rw [Nat.compare_eq_eq.mpr h]
      have hhalf : ((n % d : Nat) : ℚ) / d = 1 / 2 := by
        rw [div_eq_div_iff hd'.ne' two_ne_zero]
        exact_mod_cast (by omega : n % d * 2 = 1 * d)
      rw [hhalf]
      rfl
    · rw [Nat.compare_eq_gt.mpr h]
      have hhalf : 1 / 2 < ((n % d : Nat) : ℚ) / d := by
        rw [div_lt_div_iff₀ two_pos hd']
        exact_mod_cast (by omega : 1 * d < n % d * 2)
      constructor <;> linarith

/-- A quotient is taken to so many bits that it can be rounded. -/
theorem divCore_bits {m n : Nat} (e f : Int) (hm : 0 < m) (hn : 0 < n) :
    ∃ a : Nat, divCore .binary64 m e n f =
        (m <<< a / n, e - f - a, accuracyOfFraction (m <<< a % n) n) ∧
      (52 ≤ (m <<< a / n).log2 ∨ e - f - a ≤ -1074) := by
  have htarget : Format.binary64.targetExponent (totalExponent m e - totalExponent n f) =
      max (m.log2 + e - (n.log2 + f) - 53) (-1074) := by
    simp only [Format.targetExponent, totalExponent, Format.mantissaBits, Format.minExponent]
    omega
  rw [divCore, htarget]
  generalize ht : min (e - f) (max (m.log2 + e - (n.log2 + f) - 53) (-1074)) = t
  obtain ⟨a, ha⟩ : ∃ a, (e - f - t).toNat = a := ⟨_, rfl⟩
  obtain rfl : t = e - f - a := by omega
  refine ⟨a, by simp only [ha], ?_⟩
  rcases le_or_gt (e - f - a) (-1074) with hle | hlt
  · exact .inr hle
  · have hbits : n.log2 + 1 + 52 ≤ m.log2 + a := by omega
    have hbig : n * 2 ^ 52 ≤ m <<< a := by
      calc n * 2 ^ 52 ≤ 2 ^ (n.log2 + 1) * 2 ^ 52 := Nat.mul_le_mul_right _ Nat.lt_log2_self.le
        _ = 2 ^ (n.log2 + 1 + 52) := (pow_add 2 _ _).symm
        _ ≤ 2 ^ (m.log2 + a) := Nat.pow_le_pow_right (by omega) hbits
        _ = 2 ^ m.log2 * 2 ^ a := pow_add 2 _ _
        _ ≤ m <<< a := by
          rw [Nat.shiftLeft_eq]
          exact Nat.mul_le_mul_right _ (Nat.log2_self_le hm.ne')
    have hquotient : 2 ^ 52 ≤ m <<< a / n := (Nat.le_div_iff_mul_le hn).mpr (by omega)
    exact .inl ((Nat.le_log2 (by omega)).mpr hquotient)

theorem div_finite_rounds {s t : Sign} {m n : Nat} {e f : Int} (h : 0 < m) (h' : 0 < n) :
    Rounds (signed s m * 2 ^ e / (signed t n * 2 ^ f))
      (packed (UnpackedFloat.div .binary64 (.finite s m e h) (.finite t n f h'))) := by
  obtain ⟨a, hcore, hbits⟩ := divCore_bits e f h h'
  have hround := (roundWithAccuracy_rounds (s := s / t)
    (holds_accuracyOfFraction (n := m <<< a) h') hbits).rounds (by positivity)
  rw [mul_zpow_least, div_mul_eq_mul_div, shiftLeft_mul_zpow, zpow_sub₀ two_ne_zero,
    ← mul_div_assoc, div_div, mul_comm (2 ^ f : ℚ), signed_div, signed_mul_right,
    signed_mul_right] at hround
  simp only [UnpackedFloat.div, hcore]
  exact hround

theorem Stands.div {q r : ℚ} {u v : UnpackedFloat} (hu : Stands q u) (hv : Stands r v)
    (hr : r ≠ 0) : Rounds (q / r) (packed (UnpackedFloat.div .binary64 u v)) := by
  cases hv with
  | zero => exact absurd rfl hr
  | @finite t n f h' =>
    cases hu with
    | zero =>
      rw [zero_div]
      exact rounds_packed_zero _
    | @finite s m e h => exact div_finite_rounds h h'

theorem div_rounds {x y : Float} (hx : x.isFinite = true) (hy : y.isFinite = true)
    (hne : value y ≠ 0) : Rounds (value x / value y) (x / y) :=
  (stands hx).div (stands hy) hne

/-! ## Whole numbers -/

theorem toFloat_rounds (n : UInt64) : Rounds n.toNat n.toFloat := by
  have hround := normalize_rounds n.toNat 0
  rwa [zpow_zero, mul_one, Int.cast_natCast] at hround

theorem value_one : value (Float.ofBits 0x3ff0000000000000) = 1 := by
  have hplace : place (Float.ofBits 0x3ff0000000000000) = (2 ^ 52 + 1022 * 2 ^ 52 : Nat) := by
    decide
  rw [value_packed hplace (by omega) (fun _ => le_rfl)]
  norm_num

/-- A count below the reach of a significand is not rounded. -/
theorem Rounds.value_eq_natCast {m : Nat} {x : Float} (hx : Rounds m x) (h : m < 2 ^ 53) :
    value x = m ∧ x.isFinite = true := by
  have hround : Rounds (m * 2 ^ (((1074 : ℕ) : ℤ) - 1074)) x := by
    rwa [Nat.cast_ofNat, sub_self, zpow_zero, mul_one]
  have hvalue := hround.value_eq_packed h (by omega)
  have hfinite := hround.isFinite_of_le h (by omega)
    (abs_of_nonneg (mul_nonneg (Nat.cast_nonneg _) (by positivity))).le
  rw [Nat.cast_ofNat, sub_self, zpow_zero, mul_one] at hvalue
  exact ⟨hvalue, hfinite⟩

theorem toFloat_value {n : UInt64} (h : n.toNat < 2 ^ 53) :
    value n.toFloat = n.toNat ∧ n.toFloat.isFinite = true :=
  (toFloat_rounds n).value_eq_natCast h

end PerfGate.Number
