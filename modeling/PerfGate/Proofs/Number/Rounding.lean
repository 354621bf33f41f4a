import PerfGate.Proofs.Number.Grid

/-!
# Rounding of significands

Every operation ends by rounding a significand of which some lower bits, and whatever was cut
off below them, are dropped. What is kept of the dropped part is enough to round to the nearest
significand, and packing the result puts it on the grid of magnitudes at the nearest point; past
the largest number that is infinity.
-/

set_option autoImplicit false

namespace PerfGate.Number

open Float.Model (UnpackedFloat Format totalExponent)
open Float.Model.UnpackedFloat

/-! ## What is kept of a dropped fraction -/

def Holds (m : Nat) (q : ℚ) : Accuracy → Prop
  | .exact => q = m
  | .inexact .lt => (m : ℚ) < q ∧ q < m + 1 / 2
  | .inexact .eq => q = m + 1 / 2
  | .inexact .gt => (m : ℚ) + 1 / 2 < q ∧ q < m + 1

theorem Holds.bounds {m : Nat} {q : ℚ} {acc : Accuracy} (h : Holds m q acc) :
    (m : ℚ) ≤ q ∧ q < m + 1 := by
  rcases acc with _ | (_ | _ | _) <;> simp only [Holds] at h <;> constructor <;> linarith

theorem holds_ofMantissaAndAccuracy {m : Nat} {q : ℚ} {acc : Accuracy} (h : Holds m q acc) :
    Holds (ExtendedMantissa.ofMantissaAndAccuracy m acc).mantissa q
      (ExtendedMantissa.ofMantissaAndAccuracy m acc).accuracy := by
  rcases acc with _ | (_ | _ | _) <;> exact h

theorem holds_shiftRightOne {em : ExtendedMantissa} {q : ℚ} (h : Holds em.mantissa q em.accuracy) :
    Holds em.shiftRightOne.mantissa (q / 2) em.shiftRightOne.accuracy := by
  obtain ⟨m, roundBit, stickyBit⟩ := em
  obtain ⟨n, rfl | rfl⟩ : ∃ n, m = 2 * n ∨ m = 2 * n + 1 := ⟨m / 2, by omega⟩
  · have hhalf : 2 * n / 2 = n := by omega
    have hbit : (2 * n % 2 != 0) = false := by simp
    cases roundBit <;> cases stickyBit <;>
      simp only [ExtendedMantissa.shiftRightOne, ExtendedMantissa.accuracy, hhalf, hbit,
        Bool.or_false, Bool.or_true, Holds] at h ⊢ <;>
      push_cast at h ⊢ <;> (try constructor) <;> linarith
  · have hhalf : (2 * n + 1) / 2 = n := by omega
    have hbit : ((2 * n + 1) % 2 != 0) = true := by simp [Nat.add_mod]
    cases roundBit <;> cases stickyBit <;>
      simp only [ExtendedMantissa.shiftRightOne, ExtendedMantissa.accuracy, hhalf, hbit,
        Bool.or_false, Bool.or_true, Holds] at h ⊢ <;>
      push_cast at h ⊢ <;> (try constructor) <;> linarith

theorem shiftRight_succ (em : ExtendedMantissa) (n : Nat) :
    em >>> (n + 1) = (em >>> n).shiftRightOne := rfl

theorem holds_shiftRight {em : ExtendedMantissa} {q : ℚ} (h : Holds em.mantissa q em.accuracy)
    (n : Nat) : Holds (em >>> n).mantissa (q / 2 ^ n) (em >>> n).accuracy := by
  induction n with
  | zero =>
    rw [pow_zero, div_one]
    exact h
  | succ n ih =>
    rw [shiftRight_succ, pow_succ, ← div_div]
    exact holds_shiftRightOne ih

theorem shiftRight_mantissa (em : ExtendedMantissa) (n : Nat) :
    (em >>> n).mantissa = em.mantissa / 2 ^ n := by
  induction n with
  | zero => exact (Nat.div_one _).symm
  | succ n ih =>
    rw [shiftRight_succ, pow_succ, ← Nat.div_div_eq_div_mul, ← ih]
    rfl

/-- The notes suffice to round to the nearest significand. -/
theorem Holds.nearestNat {em : ExtendedMantissa} {q : ℚ} (h : Holds em.mantissa q em.accuracy) :
    NearestNat q em.roundedMantissa := by
  rw [ExtendedMantissa.roundedMantissa]
  generalize em.mantissa = m at h ⊢
  generalize em.accuracy = acc at h ⊢
  rcases acc with _ | (_ | _ | _) <;> simp only [Holds, Accuracy.roundToNearestEven] at h ⊢
  · exact nearestNat_of_lt (by linarith) (by linarith)
  · exact nearestNat_of_lt (by linarith) (by linarith)
  · -- A tie: an even significand stays and an odd one goes up.
    rcases Nat.mod_two_eq_zero_or_one m with hm | hm <;> rw [hm]
    · have heven : Even (m + 0) := Nat.even_iff.mpr hm
      exact ⟨⟨by push_cast; linarith, fun _ => heven⟩, by push_cast; linarith, fun _ => heven⟩
    · have heven : Even (m + 1) := Nat.even_iff.mpr (by omega)
      exact ⟨⟨by push_cast; linarith, fun _ => heven⟩, by push_cast; linarith, fun _ => heven⟩
  · exact nearestNat_of_lt (by push_cast; linarith) (by push_cast; linarith)

theorem roundedMantissa_bounds (em : ExtendedMantissa) :
    em.mantissa ≤ em.roundedMantissa ∧ em.roundedMantissa ≤ em.mantissa + 1 := by
  rw [ExtendedMantissa.roundedMantissa]
  rcases em.accuracy with _ | (_ | _ | _) <;> simp only [Accuracy.roundToNearestEven] <;> omega

/-! ## Shifts to an exponent -/

/-- The exponent that a number is rounded at: 52 below that of its leading bit, or the least. -/
theorem targetExponent_eq (m : Nat) (e : Int) :
    Format.binary64.targetExponent (totalExponent m e) = max (m.log2 + e - 52) (-1074) := by
  simp only [Format.targetExponent, totalExponent, Format.mantissaBits, Format.minExponent]
  omega

/-- A significand of 53 bits at an exponent that is not too small stays where it is. -/
theorem shiftToTargetExponent_stays {m : Nat} {e : Int} (hm : m < 2 ^ 53) (he : -1074 ≤ e) :
    shiftToTargetExponent .binary64 m e .exact = (⟨m, false, false⟩, e) := by
  have hlog : m.log2 ≤ 52 := by
    rcases Nat.eq_zero_or_pos m with rfl | hpos
    · decide
    · exact Nat.le_of_lt_succ ((Nat.log2_lt hpos.ne').mpr hm)
  have hzero : (Format.binary64.targetExponent (totalExponent m e) - e).toNat = 0 := by
    rw [targetExponent_eq]
    omega
  rw [shiftToTargetExponent, shiftToExponent, hzero]
  exact congrArg (Prod.mk _) (Int.add_zero e)

theorem shiftToTargetExponent_carries {e : Int} (he : -1074 ≤ e) :
    shiftToTargetExponent .binary64 (2 ^ 53) e .exact = (⟨2 ^ 52, false, false⟩, e + 1) := by
  have hone : (Format.binary64.targetExponent (totalExponent (2 ^ 53) e) - e).toNat = 1 := by
    rw [targetExponent_eq, Nat.log2_two_pow]
    omega
  rw [shiftToTargetExponent, shiftToExponent, hone]
  rfl

/-- The first shift brings a significand to at most 53 bits, and to fewer only at the least
exponent. -/
structure Shifted (q : ℚ) (e : Int) (shifted : ExtendedMantissa × Int) (k : Nat) : Prop where
  exponent : shifted.2 = (k : Int) - 1074
  holds : Holds shifted.1.mantissa (q * 2 ^ (e + 1074) / 2 ^ k) shifted.1.accuracy
  below : shifted.1.mantissa < 2 ^ 53
  normal : 0 < k → 2 ^ 52 ≤ shifted.1.mantissa

theorem shifted_exists {m : Nat} {e : Int} {acc : Accuracy} {q : ℚ} (hq : Holds m q acc)
    (hm : 52 ≤ m.log2 ∨ e ≤ -1074) :
    ∃ k, Shifted q e (shiftToTargetExponent .binary64 m e acc) k := by
  have htarget := targetExponent_eq m e
  obtain ⟨n, hn⟩ : ∃ n, (Format.binary64.targetExponent (totalExponent m e) - e).toNat = n :=
    ⟨_, rfl⟩
  obtain ⟨k, hk⟩ : ∃ k : Nat, e + n = (k : Int) - 1074 := ⟨(e + n + 1074).toNat, by omega⟩
  have hmantissa : (ExtendedMantissa.ofMantissaAndAccuracy m acc >>> n).mantissa = m / 2 ^ n := by
    rw [shiftRight_mantissa]
    rcases acc with _ | (_ | _ | _) <;> rfl
  refine ⟨k, ?_⟩
  rw [shiftToTargetExponent, shiftToExponent, hn]
  constructor
  · exact hk
  · have hscale : q * 2 ^ (e + 1074) / 2 ^ k = q / 2 ^ n := by
      rw [div_eq_div_iff (by positivity) (by positivity), mul_assoc, ← zpow_natCast (2 : ℚ) n,
        ← zpow_natCast (2 : ℚ) k, ← zpow_add₀ two_ne_zero]
      congr 2
      omega
    rw [hscale]
    exact holds_shiftRight (holds_ofMantissaAndAccuracy hq) n
  · rw [hmantissa, Nat.div_lt_iff_lt_mul (Nat.two_pow_pos n), ← pow_add]
    exact Nat.lt_log2_self.trans_le (Nat.pow_le_pow_right (by omega) (by omega))
  · intro hpos
    have hne : m ≠ 0 := by
      rintro rfl
      rw [Nat.log2_zero] at *
      omega
    rw [hmantissa, Nat.le_div_iff_mul_le (Nat.two_pow_pos n), ← pow_add]
    exact (Nat.pow_le_pow_right (by omega) (by omega)).trans (Nat.log2_self_le hne)

/-! ## Packing -/

def packed (u : UnpackedFloat) : Float := .ofModel (.pack u)

theorem toNat_packComponents (s : Sign) (e : BitVec 11) (m : BitVec 52) :
    (packComponents .binary64 s e m).toNat =
      s.toBitVec.toNat * 2 ^ 63 + e.toNat * 2 ^ 52 + m.toNat := by
  have he : e.toNat < 2 ^ 11 := e.isLt
  have hm : m.toNat < 2 ^ 52 := m.isLt
  rw [packComponents, BitVec.toNat_append, BitVec.toNat_append, ← Nat.shiftLeft_add_eq_or_of_lt he,
    ← Nat.shiftLeft_add_eq_or_of_lt hm, Nat.shiftLeft_eq, Nat.shiftLeft_eq]
  ring

theorem packed_components {u : UnpackedFloat} {s : Sign} {e : BitVec 11} {m : BitVec 52}
    (h : UnpackedFloat.pack .binary64 u = packComponents .binary64 s e m) :
    signOf (packed u) = s ∧ magnitude (packed u) = e.toNat * 2 ^ 52 + m.toNat := by
  have hbits : (packed u).toBits.toNat =
      s.toBitVec.toNat * 2 ^ 63 + e.toNat * 2 ^ 52 + m.toNat := by
    rw [← toNat_packComponents, ← h]
    rfl
  have he : e.toNat < 2 ^ 11 := e.isLt
  have hm : m.toNat < 2 ^ 52 := m.isLt
  have hbit : Decimal.Binary.signBit = 2 ^ 63 := rfl
  rw [signOf, magnitude, hbits, hbit]
  cases s with
  | positive =>
    have hs : Sign.positive.toBitVec.toNat = 0 := rfl
    rw [hs, if_pos (by omega)]
    exact ⟨rfl, by omega⟩
  | negative =>
    have hs : Sign.negative.toBitVec.toNat = 1 := rfl
    rw [hs, if_neg (by omega)]
    exact ⟨rfl, by omega⟩

theorem packed_infinity (s : Sign) :
    signOf (packed (.infinity s)) = s ∧ magnitude (packed (.infinity s)) = infinityWord :=
  packed_components (e := -1#11) (m := 0) rfl

theorem packed_zero (s : Sign) :
    signOf (packed (.zero s)) = s ∧ magnitude (packed (.zero s)) = 0 :=
  packed_components (e := 0) (m := 0) rfl

theorem pack_finite {s : Sign} {m k : Nat} {e : Int} {h : 0 < m} (he : e = (k : Int) - 1074) :
    UnpackedFloat.pack .binary64 (.finite s m e h) =
      if 2046 ≤ k then packedInfinity .binary64 s
      else if m.log2 + 1 = 53 then
        packComponents .binary64 s (BitVec.ofNat 11 (k + 1)) (BitVec.ofNat 52 m)
      else packComponents .binary64 s 0#11 (BitVec.ofNat 52 m) := by
  have hbiased : (e + (Format.binary64.exponentBias : Int)
      + (Format.binary64.mantissaBitsWithoutImplicit : Int)).toNat = k + 1 := by
    change (e + 1023 + 52).toNat = k + 1
    omega
  have hbig : 2 ^ Format.binary64.exponentBits ≤ k + 1 + 1 ↔ 2046 ≤ k := by
    change 2 ^ 11 ≤ k + 1 + 1 ↔ 2046 ≤ k
    omega
  simp only [UnpackedFloat.pack, hbiased, hbig]
  rfl

/-- A significand and an exponent are packed into the magnitude that they make up. -/
theorem packed_finite {s : Sign} {m k : Nat} {e : Int} {h : 0 < m} (hm : m < 2 ^ 53)
    (hk : 0 < k → 2 ^ 52 ≤ m) (he : e = (k : Int) - 1074) :
    signOf (packed (.finite s m e h)) = s ∧
      magnitude (packed (.finite s m e h)) = min (m + k * 2 ^ 52) infinityWord := by
  have hi : infinityWord = 2047 * 2 ^ 52 := rfl
  have hpack := pack_finite (s := s) (h := h) he
  have hnormal : m.log2 + 1 = 53 ↔ 2 ^ 52 ≤ m := by
    have hlog : m.log2 < 53 := (Nat.log2_lt h.ne').mpr hm
    rw [← Nat.le_log2 h.ne']
    omega
  by_cases hbig : 2046 ≤ k
  · rw [if_pos hbig] at hpack
    have hfull := hk (by omega)
    rw [min_eq_right (by omega)]
    exact packed_components hpack
  · rw [if_neg hbig] at hpack
    rw [min_eq_left (by omega)]
    by_cases hfull : 2 ^ 52 ≤ m
    · rw [if_pos (hnormal.mpr hfull)] at hpack
      obtain ⟨hsign, hmagnitude⟩ := packed_components hpack
      refine ⟨hsign, hmagnitude.trans ?_⟩
      rw [BitVec.toNat_ofNat, BitVec.toNat_ofNat]
      omega
    · rw [if_neg (mt hnormal.mp hfull)] at hpack
      obtain ⟨hsign, hmagnitude⟩ := packed_components hpack
      refine ⟨hsign, hmagnitude.trans ?_⟩
      rw [BitVec.toNat_ofNat, BitVec.toNat_ofNat]
      omega

/-- A word of a number makes that number. -/
theorem ofBits_components {w : UInt64} (h : w.toNat % Decimal.Binary.signBit ≤ infinityWord) :
    signOf (Float.ofBits w) =
        (if w.toNat < Decimal.Binary.signBit then .positive else .negative) ∧
      magnitude (Float.ofBits w) = w.toNat % Decimal.Binary.signBit := by
  have hreads := reads_word w
  have hi : infinityWord = 2047 * 2 ^ 52 := rfl
  change signOf (packed (UnpackedFloat.unpack .binary64 w.toBitVec)) = _ ∧
    magnitude (packed (UnpackedFloat.unpack .binary64 w.toBitVec)) = _
  generalize UnpackedFloat.unpack Format.binary64 w.toBitVec = u at *
  generalize w.toNat % Decimal.Binary.signBit = g at *
  cases hreads with
  | undefined hg => omega
  | infinite => exact packed_infinity _
  | zero => exact packed_zero _
  | finite k hg he hm hk hnormal =>
    obtain ⟨hsign, hmagnitude⟩ := packed_finite hm hnormal he
    exact ⟨hsign, hmagnitude.trans (by omega)⟩

/-! ## The rounded result -/

/-- A word with the sign `s` that is nearest to a number of units, or the infinity past it. -/
def RoundsTo (s : Sign) (q : ℚ) (x : Float) : Prop :=
  signOf x = s ∧ ∃ g, Nearest q g ∧ magnitude x = min g infinityWord

/-- The second shift only takes in a carry. -/
theorem packed_carried {s : Sign} {m k : Nat} (hm : m ≤ 2 ^ 53) (hk : 0 < k → 2 ^ 52 ≤ m) :
    let shifted := shiftToTargetExponent .binary64 m ((k : Int) - 1074) .exact
    let x := packed (if h : shifted.1.mantissa = 0 then .zero s
      else .finite s shifted.1.mantissa shifted.2 (Nat.pos_of_ne_zero h))
    signOf x = s ∧ magnitude x = min (m + k * 2 ^ 52) infinityWord := by
  rcases Nat.lt_or_ge m (2 ^ 53) with hlt | hge
  · rw [shiftToTargetExponent_stays hlt (by omega)]
    by_cases hzero : m = 0
    · obtain rfl : k = 0 := by omega
      subst hzero
      exact packed_zero s
    · simp only [dif_neg hzero]
      exact packed_finite hlt hk rfl
  · obtain rfl : m = 2 ^ 53 := by omega
    rw [shiftToTargetExponent_carries (by omega)]
    simp only [dif_neg (show 2 ^ 52 ≠ 0 by omega)]
    rw [show 2 ^ 53 + k * 2 ^ 52 = 2 ^ 52 + (k + 1) * 2 ^ 52 by omega]
    exact packed_finite (by omega) (fun _ => le_rfl) (by omega)

theorem holds_exact (m : Nat) : Holds m m .exact := rfl

theorem roundWithAccuracy_rounds {s : Sign} {m : Nat} {e : Int} {acc : Accuracy} {q : ℚ}
    (hq : Holds m q acc) (hm : 52 ≤ m.log2 ∨ e ≤ -1074) :
    RoundsTo s (q * 2 ^ (e + 1074)) (packed (roundWithAccuracy .binary64 s m e acc)) := by
  obtain ⟨k, hshifted⟩ := shifted_exists hq hm
  rw [roundWithAccuracy]
  generalize shiftToTargetExponent .binary64 m e acc = shifted at hshifted ⊢
  obtain ⟨em, t⟩ := shifted
  obtain ⟨rfl, hholds, hbelow, hnormal⟩ := hshifted
  simp only at hholds hbelow hnormal ⊢
  obtain ⟨hge, hle⟩ := roundedMantissa_bounds em
  obtain ⟨hlow, hhigh⟩ := hholds.bounds
  have hnear := hholds.nearestNat.packed
    (fun h => le_trans (by exact_mod_cast hnormal h) hlow)
    (hhigh.trans_le (by exact_mod_cast hbelow)) (by omega) (fun h => (hnormal h).trans hge)
  rw [div_mul_cancel₀ _ (by positivity)] at hnear
  obtain ⟨hsign, hmagnitude⟩ := packed_carried (s := s) (m := em.roundedMantissa) (k := k)
    (by omega) (fun h => (hnormal h).trans hge)
  exact ⟨hsign, _, hnear, hmagnitude⟩

end PerfGate.Number
