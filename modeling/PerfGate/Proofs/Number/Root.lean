import PerfGate.Proofs.Number.Defined

/-!
# Square roots stay in the range

A root is taken of so many bits that it can be rounded like any other result. It has about half
of the exponent, so the root of a finite number is finite, and only an infinity has an infinite
root.
-/

set_option autoImplicit false

namespace PerfGate.Number

open Float.Model (UnpackedFloat Format totalExponent)
open Float.Model.UnpackedFloat

theorem exists_holds (m : Nat) (acc : Accuracy) : ∃ q, Holds m q acc := by
  rcases acc with _ | (_ | _ | _)
  · exact ⟨m, rfl⟩
  · exact ⟨m + 1 / 4, by constructor <;> linarith⟩
  · exact ⟨m + 1 / 2, rfl⟩
  · exact ⟨m + 3 / 4, by constructor <;> linarith⟩

theorem sqrtCore_bits {m : Nat} (e : Int) (hm : 0 < m) :
    ∃ (a : Nat) (t : Int) (acc : Accuracy),
      sqrtCore .binary64 m e = (Nat.sqrt (m <<< a), t, acc) ∧ e = 2 * t + a ∧
        (52 ≤ (Nat.sqrt (m <<< a)).log2 ∨ t ≤ -1074) := by
  have htarget : Format.binary64.targetExponent ((totalExponent m e + 1).ediv 2) =
      max ((m.log2 + 1 + e + 1) / 2 - 53) (-1074) := by
    simp only [Format.targetExponent, totalExponent, Format.mantissaBits, Format.minExponent]
    rfl
  have hhalf : e.ediv 2 = e / 2 := rfl
  rw [sqrtCore, htarget, hhalf]
  generalize ht : min (e / 2) (max (((m.log2 : ℤ) + 1 + e + 1) / 2 - 53) (-1074)) = t
  obtain ⟨a, ha⟩ : ∃ a, (e - 2 * t).toNat = a := ⟨_, rfl⟩
  have he : e = 2 * t + a := by omega
  refine ⟨a, t, _, by simp only [ha]; rfl, he, ?_⟩
  rcases le_or_gt t (-1074) with hle | hlt
  · exact .inr hle
  · have hbits : 52 + 52 ≤ m.log2 + a := by omega
    have hbig : 2 ^ 52 * 2 ^ 52 ≤ m <<< a := by
      calc 2 ^ 52 * 2 ^ 52 = 2 ^ (52 + 52) := (pow_add 2 _ _).symm
        _ ≤ 2 ^ (m.log2 + a) := Nat.pow_le_pow_right (by omega) hbits
        _ = 2 ^ m.log2 * 2 ^ a := pow_add 2 _ _
        _ ≤ m <<< a := by
          rw [Nat.shiftLeft_eq]
          exact Nat.mul_le_mul_right _ (Nat.log2_self_le hm.ne')
    have hroot : 2 ^ 52 ≤ Nat.sqrt (m <<< a) := Nat.le_sqrt.mpr hbig
    exact .inl ((Nat.le_log2 (by omega)).mpr hroot)

/-- The root has at most half of the bits, and one more. -/
theorem sqrt_shiftLeft_lt {m : Nat} (hm : m < 2 ^ 53) (a : Nat) :
    Nat.sqrt (m <<< a) < 2 ^ ((54 + a) / 2) := by
  rw [Nat.sqrt_lt', Nat.shiftLeft_eq, ← pow_mul]
  calc m * 2 ^ a < 2 ^ 53 * 2 ^ a := Nat.mul_lt_mul_of_pos_right hm (Nat.two_pow_pos a)
    _ = 2 ^ (53 + a) := (pow_add 2 _ _).symm
    _ ≤ 2 ^ ((54 + a) / 2 * 2) := Nat.pow_le_pow_right (by omega) (by omega)

theorem sqrt_finite_isFinite {m : Nat} {e : Int} (h : 0 < m) (hm : m < 2 ^ 53)
    (he : e ≤ 971) : (packed (UnpackedFloat.sqrt .binary64 (.finite .positive m e h))).isFinite =
      true := by
  obtain ⟨a, t, acc, hcore, hexponent, hbits⟩ := sqrtCore_bits e h
  obtain ⟨q, hq⟩ := exists_holds (Nat.sqrt (m <<< a)) acc
  obtain ⟨hlow, hhigh⟩ := hq.bounds
  have hqnonneg : 0 ≤ q := (Nat.cast_nonneg _).trans hlow
  have hrounds := (roundWithAccuracy_rounds (s := .positive) hq hbits).rounds
    (mul_nonneg hqnonneg (by positivity))
  rw [mul_zpow_least] at hrounds
  rw [UnpackedFloat.sqrt, hcore]
  refine hrounds.isFinite_of_le (m := 1) (k := 1586) (by omega) (by omega) ?_
  have hroot : q ≤ 2 ^ ((54 + a) / 2) := by
    refine hhigh.le.trans ?_
    exact_mod_cast sqrt_shiftLeft_lt hm a
  change |q * 2 ^ t| ≤ _
  rw [abs_of_nonneg (mul_nonneg hqnonneg (by positivity)), Nat.cast_one, one_mul]
  calc q * 2 ^ t ≤ 2 ^ ((54 + a) / 2) * 2 ^ t := by gcongr
    _ = 2 ^ ((((54 + a) / 2 : ℕ) : ℤ) + t) := by
      rw [← zpow_natCast (2 : ℚ), ← zpow_add₀ two_ne_zero]
    _ ≤ 2 ^ (((1586 : ℕ) : ℤ) - 1074) := zpow_le_zpow_right₀ one_le_two (by omega)

theorem sqrt_isFinite {x : Float} (hx : x.isFinite = true) (hnonneg : 0 ≤ value x) :
    x.sqrt.isFinite = true := by
  change (packed (UnpackedFloat.sqrt .binary64 x.toModel.unpack)).isFinite = true
  have hlt := isFinite_iff.mp hx
  have hreads := reads x
  have hstands := stands hx
  generalize magnitude x = g at hlt hreads
  generalize signOf x = s at hreads
  generalize value x = r at hnonneg hstands
  generalize x.toModel.unpack = u at hreads hstands ⊢
  cases hreads with
  | undefined h => omega
  | infinite => omega
  | zero =>
    rw [UnpackedFloat.sqrt, isFinite_iff, (packed_zero s).2]
    decide
  | @finite g m e h k hg he hm hk hnormal =>
    cases s with
    | negative =>
      cases hstands with
      | finite =>
        have hneg : signed .negative (m : ℚ) * 2 ^ e < 0 :=
          mul_neg_of_neg_of_pos (neg_neg_of_pos (Nat.cast_pos.mpr h)) (by positivity)
        exact absurd hnonneg (not_le.mpr hneg)
    | positive => exact sqrt_finite_isFinite h hm (by omega)

theorem sqrt_of_isInf {x : Float} (hx : x.isInf = true) (hnonneg : Nonneg x) : x.sqrt = x := by
  change packed (UnpackedFloat.sqrt .binary64 x.toModel.unpack) = x
  have hpacked := packed_of_isInf hx
  rw [unpack_of_isInf hx]
  rw [hnonneg.signOf_of_isInf hx] at hpacked ⊢
  exact hpacked

end PerfGate.Number
