import PerfGate.Proofs.Number.Defined

/-!
# The two zeros

A value belongs to one number only, except for zero, which two numbers have. Sums and quotients
do not confuse the two: a number that negative zero is added to stays as it is, whichever zero it
may be, and so does a zero that is doubled or divided by a positive number.
-/

set_option autoImplicit false

namespace PerfGate.Number

open Float.Model (UnpackedFloat)

section
variable {x y : Float} {q : ℚ}

/-! ## Numbers of one value -/

theorem value_eq_zero_iff : value x = 0 ↔ magnitude x = 0 := by
  rw [← abs_eq_zero, abs_value, mul_eq_zero, or_iff_left least_pos.ne', Nat.cast_eq_zero]
  exact units_strictMono.injective.eq_iff' units_zero

/-- Only zero is signed either way. -/
theorem signOf_eq_of_place (h : place x = place y) (hne : place x ≠ 0) : signOf x = signOf y := by
  have hx : place x = (signOf x).apply (magnitude x) := rfl
  have hy : place y = (signOf y).apply (magnitude y) := rfl
  cases hsx : signOf x <;> cases hsy : signOf y <;>
    simp only [hsx, hsy, UnpackedFloat.Sign.apply] at * <;> omega

theorem eq_of_value_eq (h : value x = value y) (hne : value x ≠ 0) : x = y := by
  have hplace : place x = place y :=
    le_antisymm (value_le_iff_place.mp h.le) (value_le_iff_place.mp h.ge)
  have hx : place x ≠ 0 := fun hzero => hne (value_eq_zero hzero)
  apply eq_of_sign_magnitude
  · exact signOf_eq_of_place hplace hx
  · rw [magnitude_eq_natAbs_place, magnitude_eq_natAbs_place, hplace]

theorem eq_zero_of_value (h : value x = 0) : x = 0.0 ∨ x = -0.0 := by
  have hmagnitude := value_eq_zero_iff.mp h
  cases hs : signOf x with
  | positive =>
    left
    exact eq_of_sign_magnitude (hs.trans rfl) (hmagnitude.trans (by decide))
  | negative =>
    right
    exact eq_of_sign_magnitude (hs.trans rfl) (hmagnitude.trans (by decide))

/-- Two numbers of one value are one number, or the two zeros. -/
theorem eq_or_zeros (h : value x = value y) :
    x = y ∨ x = 0.0 ∧ y = -0.0 ∨ x = -0.0 ∧ y = 0.0 := by
  by_cases hzero : value x = 0
  · have hx := eq_zero_of_value hzero
    have hy := eq_zero_of_value (h ▸ hzero)
    rcases hx with rfl | rfl <;> rcases hy with rfl | rfl <;> simp
  · exact .inl (eq_of_value_eq h hzero)

/-- What is rounded to a number that is not zero is that number. -/
theorem Rounds.eq (hx : Rounds q x) (hy : y.isNaN = false) (h : value y = q) (hq : q ≠ 0) :
    x = y :=
  hx.unique (h ▸ rounds_value hy) hq

/-! ## Sums and quotients of zeros -/

theorem add_self_of_zero (h : value x = 0) : x + x = x := by
  rcases eq_zero_of_value h with rfl | rfl
  · decide
  · decide

/-- Negative zero leaves every number as it is that it is added to. -/
theorem negative_zero_add (hx : x.isFinite = true) : -0.0 + x = x := by
  by_cases hzero : value x = 0
  · rcases eq_zero_of_value hzero with rfl | rfl
    · decide
    · decide
  · have hrounds := add_rounds (show (-0.0 : Float).isFinite = true by decide) hx
    rw [value_eq_zero (show place (-0.0) = 0 by decide), zero_add] at hrounds
    exact hrounds.eq (isNaN_of_isFinite hx) rfl hzero

theorem unpack_of_zero (h : magnitude x = 0) : x.toModel.unpack = .zero (signOf x) := by
  have hreads := reads x
  rw [h] at hreads
  have hi : infinityWord = 2047 * 2 ^ 52 := rfl
  generalize x.toModel.unpack = u at *
  generalize hg : 0 = g at *
  cases hreads with
  | undefined => omega
  | infinite => omega
  | zero => rfl
  | finite k hk he hm hle hn => omega

theorem zero_div_of_pos (hx : value x = 0) (hy : y.isFinite = true) (hpos : 0 < value y) :
    x / y = x := by
  have hmagnitude := value_eq_zero_iff.mp hx
  have hpacked : packed (.zero (signOf x)) = x :=
    eq_of_sign_magnitude (packed_zero _).1 ((packed_zero _).2.trans hmagnitude.symm)
  obtain ⟨m, e, h, hdivisor⟩ := unpack_of_pos hy hpos
  change packed (UnpackedFloat.div .binary64 x.toModel.unpack y.toModel.unpack) = x
  rw [unpack_of_zero hmagnitude, hdivisor]
  refine Eq.trans ?_ hpacked
  cases signOf x <;> rfl

end

end PerfGate.Number
