import PerfGate.Proofs.Number.Scientific

/-!
# Results that are numbers

An infinity absorbs every finite number that is added to it or that it is divided by, so a sum
of finite numbers may become infinite but is never undefined. What is never negative stays so
through sums, squares, quotients by counts and square roots.
-/

set_option autoImplicit false

namespace PerfGate.Number

open Float.Model (UnpackedFloat Format)
open Float.Model.UnpackedFloat

section
variable {x y : Float}

theorem isNaN_of_isFinite (h : x.isFinite = true) : x.isNaN = false := by
  rw [isFinite_iff] at h
  rw [← Bool.not_eq_true, isNaN_iff]
  omega

theorem isFinite_or_isInf (h : x.isNaN = false) : x.isFinite = true ∨ x.isInf = true := by
  rw [← Bool.not_eq_true, isNaN_iff] at h
  rw [isFinite_iff, isInf_iff]
  omega

/-- A number is its sign and its magnitude. -/
theorem eq_of_sign_magnitude (hs : signOf x = signOf y) (hm : magnitude x = magnitude y) :
    x = y := by
  have hbit : Decimal.Binary.signBit = 2 ^ 63 := rfl
  have hx := x.toBits.toNat_lt
  have hy := y.toBits.toNat_lt
  rw [magnitude, magnitude, hbit] at hm
  have hword : x.toBits.toNat = y.toBits.toNat := by
    rw [signOf, signOf, hbit] at hs
    split at hs <;> split at hs
    · omega
    · cases hs
    · cases hs
    · omega
  exact eq_of_toBits (UInt64.toNat_inj.mp hword)

/-- Only one number rounds a rational that is not zero. -/
theorem Rounds.unique {q : ℚ} (hx : Rounds q x) (hy : Rounds q y) (hq : q ≠ 0) : x = y := by
  have hmagnitude : magnitude x = magnitude y :=
    le_antisymm (hx.magnitude_le hy le_rfl) (hy.magnitude_le hx le_rfl)
  rcases lt_or_gt_of_ne hq with hneg | hpos
  · exact eq_of_sign_magnitude ((hx.negative hneg).trans (hy.negative hneg).symm) hmagnitude
  · exact eq_of_sign_magnitude ((hx.positive hpos).trans (hy.positive hpos).symm) hmagnitude

/-! ## Infinities -/

theorem unpack_of_isInf (h : x.isInf = true) : x.toModel.unpack = .infinity (signOf x) := by
  have hreads := reads x
  rw [isInf_iff.mp h] at hreads
  have hi : infinityWord = 2047 * 2 ^ 52 := rfl
  generalize x.toModel.unpack = u at *
  generalize hg : infinityWord = g at *
  cases hreads with
  | undefined => omega
  | infinite => rfl
  | zero => omega
  | finite k hk he hm hle hn => omega

theorem packed_of_isInf (h : x.isInf = true) : packed (.infinity (signOf x)) = x :=
  eq_of_sign_magnitude (packed_infinity _).1 ((packed_infinity _).2.trans (isInf_iff.mp h).symm)

theorem add_of_isInf (hx : x.isInf = true) (hy : y.isFinite = true) : x + y = x := by
  have hv := stands hy
  change packed (UnpackedFloat.add .binary64 x.toModel.unpack y.toModel.unpack) = x
  rw [unpack_of_isInf hx]
  refine Eq.trans ?_ (packed_of_isInf hx)
  generalize value y = r at hv
  generalize y.toModel.unpack = v at *
  cases hv <;> rfl

theorem finite_add_of_isInf (hx : x.isFinite = true) (hy : y.isInf = true) : x + y = y := by
  have hu := stands hx
  change packed (UnpackedFloat.add .binary64 x.toModel.unpack y.toModel.unpack) = y
  rw [unpack_of_isInf hy]
  refine Eq.trans ?_ (packed_of_isInf hy)
  generalize value x = q at hu
  generalize x.toModel.unpack = u at *
  cases hu <;> rfl

theorem add_of_isInf_of_sign (hx : x.isInf = true) (hy : y.isInf = true)
    (hs : signOf x = signOf y) : x + y = x := by
  change packed (UnpackedFloat.add .binary64 x.toModel.unpack y.toModel.unpack) = x
  rw [unpack_of_isInf hx, unpack_of_isInf hy, ← hs]
  refine Eq.trans ?_ (packed_of_isInf hx)
  cases signOf x <;> rfl

theorem mul_self_of_isInf (hx : x.isInf = true) : x * x = packed (.infinity .positive) := by
  change packed (UnpackedFloat.mul .binary64 x.toModel.unpack x.toModel.unpack) = _
  rw [unpack_of_isInf hx]
  cases signOf x <;> rfl

theorem unpack_of_pos (hx : x.isFinite = true) (hpos : 0 < value x) :
    ∃ m e h, x.toModel.unpack = .finite .positive m e h := by
  have hstands := stands hx
  generalize value x = q at *
  generalize x.toModel.unpack = u at *
  cases hstands with
  | zero => exact absurd hpos (lt_irrefl 0)
  | @finite s m e h k he hm hk =>
    cases s with
    | positive => exact ⟨m, e, h, rfl⟩
    | negative =>
      have hle : signed .negative (m : ℚ) * 2 ^ e ≤ 0 :=
        mul_nonpos_of_nonpos_of_nonneg (neg_nonpos.mpr (Nat.cast_nonneg m)) (by positivity)
      exact absurd hpos (not_lt.mpr hle)

theorem div_of_isInf (hx : x.isInf = true) (hy : y.isFinite = true) (hpos : 0 < value y) :
    x / y = x := by
  obtain ⟨m, e, h, hdivisor⟩ := unpack_of_pos hy hpos
  change packed (UnpackedFloat.div .binary64 x.toModel.unpack y.toModel.unpack) = x
  rw [unpack_of_isInf hx, hdivisor]
  refine Eq.trans ?_ (packed_of_isInf hx)
  cases signOf x <;> rfl

/-! ## Sums and differences of numbers -/

theorem add_isNaN (hx : x.isNaN = false) (hy : y.isFinite = true) : (x + y).isNaN = false := by
  rcases isFinite_or_isInf hx with hfinite | hinf
  · exact (add_rounds hfinite hy).isNaN
  · rw [add_of_isInf hinf hy]
    exact hx

/-- To divide by one or more does not lead out of the range. -/
theorem div_isFinite (hx : x.isFinite = true) (hy : y.isFinite = true) (hone : 1 ≤ value y) :
    (x / y).isFinite = true := by
  have hpos : 0 < value y := one_pos.trans_le hone
  obtain ⟨g, hg, hmagnitude⟩ := (div_rounds hx hy hpos.ne').nearest
  have hle : g ≤ magnitude x := by
    refine hg.le_of_le_units ?_
    rw [div_le_iff₀ least_pos, ← abs_value, abs_div, abs_of_pos hpos]
    exact div_le_self (abs_nonneg _) hone
  rw [isFinite_iff] at hx ⊢
  omega

/-! ## What is not negative -/

/-- A number from zero up, infinity included. -/
def Nonneg (x : Float) : Prop := x.isNaN = false ∧ 0 ≤ value x

theorem Rounds.toNonneg {q : ℚ} (h : Rounds q x) (hq : 0 ≤ q) : Nonneg x :=
  ⟨h.isNaN, h.nonneg hq⟩

theorem nonneg_packed {u : UnpackedFloat} (hs : signOf (packed u) = .positive)
    (hm : magnitude (packed u) ≤ infinityWord) : Nonneg (packed u) := by
  refine ⟨?_, value_nonneg_of_positive hs⟩
  rw [← Bool.not_eq_true, isNaN_iff]
  omega

theorem nonneg_infinity : Nonneg (packed (.infinity .positive)) :=
  nonneg_packed (packed_infinity _).1 (packed_infinity _).2.le

theorem Nonneg.signOf_of_isInf (h : Nonneg x) (hx : x.isInf = true) : signOf x = .positive := by
  cases hs : signOf x with
  | positive => rfl
  | negative =>
    have hneg : value x < 0 := by
      rw [value_eq hs (isInf_iff.mp hx), Sign.apply, Int.cast_neg, neg_mul, neg_lt_zero]
      exact mul_pos (Int.cast_pos.mpr (Int.natCast_pos.mpr (units_pos (by decide)))) least_pos
    exact absurd h.2 (not_le.mpr hneg)

theorem Nonneg.add (hx : Nonneg x) (hy : Nonneg y) : Nonneg (x + y) := by
  rcases isFinite_or_isInf hx.1 with hxf | hxi <;> rcases isFinite_or_isInf hy.1 with hyf | hyi
  · exact (add_rounds hxf hyf).toNonneg (add_nonneg hx.2 hy.2)
  · rw [finite_add_of_isInf hxf hyi]
    exact hy
  · rw [add_of_isInf hxi hyf]
    exact hx
  · rw [add_of_isInf_of_sign hxi hyi
      ((hx.signOf_of_isInf hxi).trans (hy.signOf_of_isInf hyi).symm)]
    exact hx

theorem nonneg_mul_self (hx : x.isNaN = false) : Nonneg (x * x) := by
  rcases isFinite_or_isInf hx with hfinite | hinf
  · exact (mul_rounds hfinite hfinite).toNonneg (mul_self_nonneg _)
  · rw [mul_self_of_isInf hinf]
    exact nonneg_infinity

theorem Nonneg.div (hx : Nonneg x) (hy : y.isFinite = true) (hpos : 0 < value y) :
    Nonneg (x / y) := by
  rcases isFinite_or_isInf hx.1 with hfinite | hinf
  · exact (div_rounds hfinite hy hpos.ne').toNonneg (div_nonneg hx.2 hpos.le)
  · rw [div_of_isInf hinf hy hpos]
    exact hx

theorem div_isNaN (hx : x.isNaN = false) (hy : y.isFinite = true) (hpos : 0 < value y) :
    (x / y).isNaN = false := by
  rcases isFinite_or_isInf hx with hfinite | hinf
  · exact (div_rounds hfinite hy hpos.ne').isNaN
  · rw [div_of_isInf hinf hy hpos]
    exact hx

/-! ## Square roots -/

theorem pack_finite_cases (s : Sign) (m : Nat) (e : Int) (h : 0 < m) :
    UnpackedFloat.pack .binary64 (.finite s m e h) = packedInfinity .binary64 s ∨
      ∃ (e' : BitVec 11) (m' : BitVec 52), e'.toNat ≤ 2046 ∧
        UnpackedFloat.pack .binary64 (.finite s m e h) = packComponents .binary64 s e' m' := by
  simp only [UnpackedFloat.pack]
  split
  next => exact .inl rfl
  next hbig =>
    right
    split
    next =>
      refine ⟨_, _, ?_, rfl⟩
      rw [BitVec.toNat_ofNat]
      change ¬ 2 ^ 11 ≤ _ + 1 at hbig
      exact (Nat.mod_le _ _).trans (by omega)
    next => exact ⟨_, _, Nat.zero_le _, rfl⟩

/-- Whatever is packed with a sign keeps it and is a number. -/
theorem packed_finite_bounds (s : Sign) (m : Nat) (e : Int) (h : 0 < m) :
    signOf (packed (.finite s m e h)) = s ∧
      magnitude (packed (.finite s m e h)) ≤ infinityWord := by
  have hi : infinityWord = 2047 * 2 ^ 52 := rfl
  rcases pack_finite_cases s m e h with hpack | ⟨e', m', he', hpack⟩
  · obtain ⟨hsign, hmagnitude⟩ := packed_components hpack
    exact ⟨hsign, hmagnitude.le⟩
  · obtain ⟨hsign, hmagnitude⟩ := packed_components hpack
    have hm' : m'.toNat < 2 ^ 52 := m'.isLt
    exact ⟨hsign, by omega⟩

theorem nonneg_roundWithAccuracy (m : Nat) (e : Int) (acc : Accuracy) :
    Nonneg (packed (roundWithAccuracy .binary64 .positive m e acc)) := by
  rw [roundWithAccuracy]
  simp only
  split
  next =>
    obtain ⟨hsign, hmagnitude⟩ := packed_zero .positive
    exact nonneg_packed hsign (hmagnitude ▸ Nat.zero_le _)
  next =>
    obtain ⟨hsign, hmagnitude⟩ := packed_finite_bounds .positive _ _ _
    exact nonneg_packed hsign hmagnitude

theorem Nonneg.sqrt (hx : Nonneg x) : Nonneg x.sqrt := by
  change Nonneg (packed (UnpackedFloat.sqrt .binary64 x.toModel.unpack))
  rcases isFinite_or_isInf hx.1 with hfinite | hinf
  · have hu := stands hfinite
    have hnonneg := hx.2
    generalize value x = q at hu hnonneg
    generalize x.toModel.unpack = u at *
    cases hu with
    | zero => exact (rounds_packed_zero _).toNonneg le_rfl
    | @finite s m e h k he hm hk =>
      cases s with
      | positive => exact nonneg_roundWithAccuracy _ _ _
      | negative =>
        have hneg : signed .negative (m : ℚ) * 2 ^ e < 0 :=
          mul_neg_of_neg_of_pos (neg_neg_of_pos (Nat.cast_pos.mpr h)) (by positivity)
        exact absurd hnonneg (not_le.mpr hneg)
  · rw [unpack_of_isInf hinf, hx.signOf_of_isInf hinf]
    exact nonneg_infinity

/-! ## Absolute values -/

theorem Stands.abs {q : ℚ} {u : UnpackedFloat} (h : Stands q u) : Stands |q| u.abs := by
  cases h with
  | zero =>
    rw [abs_zero]
    exact .zero
  | @finite s m e h k he hm hk =>
    have habs : |signed s (m : ℚ) * 2 ^ e| = signed .positive (m : ℚ) * 2 ^ e := by
      rw [abs_mul, abs_signed, Nat.abs_cast, abs_of_pos (by positivity)]
      rfl
    rw [habs]
    exact .finite k he hm hk

theorem abs_rounds (hx : x.isNaN = false) : Rounds |value x| x.abs := by
  change Rounds _ (packed x.toModel.unpack.abs)
  rcases isFinite_or_isInf hx with hfinite | hinf
  · exact (stands hfinite).abs.rounds
  · have hvalue : |value x| = value (packed (.infinity .positive)) := by
      rw [abs_value, isInf_iff.mp hinf, value_eq (packed_infinity _).1 (packed_infinity _).2]
      rfl
    rw [unpack_of_isInf hinf, hvalue]
    exact rounds_value nonneg_infinity.1

theorem abs_isNaN (h : x.isNaN = false) : x.abs.isNaN = false := (abs_rounds h).isNaN

theorem value_abs (hx : x.isNaN = false) : value x.abs = |value x| := by
  refine (abs_rounds hx).value_eq_of_grid (g := magnitude x) ?_ ?_
  · rw [← Bool.not_eq_true, isNaN_iff] at hx
    omega
  · rw [abs_abs, abs_value]

/-! ## Opposites -/

theorem neg_components (hx : x.isFinite = true) :
    signOf (-x) = -signOf x ∧ magnitude (-x) = magnitude x := by
  have hlt := isFinite_iff.mp hx
  have hreads := reads x
  change signOf (packed x.toModel.unpack.neg) = _ ∧ magnitude (packed x.toModel.unpack.neg) = _
  generalize magnitude x = g at *
  generalize signOf x = s at *
  generalize x.toModel.unpack = u at *
  cases hreads with
  | undefined => omega
  | infinite => omega
  | zero => exact packed_zero _
  | finite k hg he hm hk hn =>
    obtain ⟨hsign, hmagnitude⟩ := packed_finite (s := -s) hm hn he
    exact ⟨hsign, hmagnitude.trans (by omega)⟩

theorem neg_isFinite (hx : x.isFinite = true) : (-x).isFinite = true := by
  rw [isFinite_iff, (neg_components hx).2]
  exact isFinite_iff.mp hx

theorem Rounds.neg {q : ℚ} (h : Rounds q x) (hx : x.isFinite = true) : Rounds (-q) (-x) := by
  obtain ⟨hsign, hmagnitude⟩ := neg_components hx
  refine ⟨?_, fun hpos => ?_, fun hneg => ?_⟩
  · rw [abs_neg, hmagnitude]
    exact h.nearest
  · rw [hsign, h.negative (neg_pos.mp hpos)]
    rfl
  · rw [hsign, h.positive (neg_lt_zero.mp hneg)]
    rfl

/-- A whole number of at most 64 bits and a sign is a number. -/
theorem ofInt_isFinite {n : Int} (h : n.natAbs < 2 ^ 64) : (Float.ofInt n).isFinite = true := by
  cases n with
  | ofNat n => exact ofNat_isFinite h
  | negSucc n => exact neg_isFinite (ofNat_isFinite h)

theorem ofInt_rounds {n : Int} (h : n.natAbs < 2 ^ 64) : Rounds n (Float.ofInt n) := by
  cases n with
  | ofNat n => exact ofNat_rounds n
  | negSucc n =>
    rw [Int.cast_negSucc]
    exact (ofNat_rounds (n + 1)).neg (ofNat_isFinite h)

end

end PerfGate.Number
