import PerfGate.Proofs.Number.Defined

/-!
# Arithmetic keeps the order

Sums and quotients are monotone, also where they overflow: an infinity stands past all numbers on
its side, and what is finite cannot move it. A number that is added to itself is doubled exactly
unless that leads out of the range, so the middle of two numbers, taken as half of their sum,
lies between them whenever the sum is finite.
-/

set_option autoImplicit false

namespace PerfGate.Number

section
variable {x y a b : Float}

/-! ## The ends of the range -/

theorem natAbs_place_le (hx : x.isNaN = false) : (place x).natAbs ≤ infinityWord := by
  rw [← Bool.not_eq_true, isNaN_iff, magnitude_eq_natAbs_place] at hx
  omega

/-- An infinity that is not above a finite number is below every number. -/
theorem value_le_of_isInf (hx : x.isInf = true) (hy : y.isFinite = true)
    (h : value x ≤ value y) (ha : a.isNaN = false) : value x ≤ value a := by
  have hbound := natAbs_place_le ha
  rw [isInf_iff, magnitude_eq_natAbs_place] at hx
  rw [isFinite_iff, magnitude_eq_natAbs_place] at hy
  rw [value_le_iff_place] at h ⊢
  omega

/-- An infinity that is not below a finite number is above every number. -/
theorem le_value_of_isInf (hy : y.isInf = true) (hx : x.isFinite = true)
    (h : value x ≤ value y) (ha : a.isNaN = false) : value a ≤ value y := by
  have hbound := natAbs_place_le ha
  rw [isInf_iff, magnitude_eq_natAbs_place] at hy
  rw [isFinite_iff, magnitude_eq_natAbs_place] at hx
  rw [value_le_iff_place] at h ⊢
  omega

/-- Two operations that are in order on finite numbers, and leave infinities alone, are in order
on all numbers. -/
theorem value_le_of_absorbs {f g : Float → Float}
    (hfinite : ∀ {x y : Float}, x.isFinite = true → y.isFinite = true → value x ≤ value y →
      value (f x) ≤ value (g y))
    (hf : ∀ {x : Float}, x.isNaN = false → (f x).isNaN = false)
    (hg : ∀ {x : Float}, x.isNaN = false → (g x).isNaN = false)
    (hfinf : ∀ {x : Float}, x.isInf = true → f x = x)
    (hginf : ∀ {x : Float}, x.isInf = true → g x = x)
    (hx : x.isNaN = false) (hy : y.isNaN = false) (h : value x ≤ value y) :
    value (f x) ≤ value (g y) := by
  rcases isFinite_or_isInf hx with hxfinite | hxinf
  · rcases isFinite_or_isInf hy with hyfinite | hyinf
    · exact hfinite hxfinite hyfinite h
    · rw [hginf hyinf]
      exact le_value_of_isInf hyinf hxfinite h (hf hx)
  · rw [hfinf hxinf]
    rcases isFinite_or_isInf hy with hyfinite | hyinf
    · exact value_le_of_isInf hxinf hyfinite h (hg hy)
    · rwa [hginf hyinf]

/-! ## Sums and quotients -/

theorem add_value_le (hx : x.isNaN = false) (hy : y.isNaN = false) (ha : a.isFinite = true)
    (hb : b.isFinite = true) (hxy : value x ≤ value y) (hab : value a ≤ value b) :
    value (x + a) ≤ value (y + b) := by
  refine value_le_of_absorbs (f := (· + a)) (g := (· + b)) ?_ (fun h => add_isNaN h ha)
    (fun h => add_isNaN h hb) (fun h => add_of_isInf h ha) (fun h => add_of_isInf h hb) hx hy hxy
  intro x y hx hy h
  exact (add_rounds hx ha).value_le (add_rounds hy hb) (add_le_add h hab)

theorem sub_value_le (hx : x.isFinite = true) (hy : y.isFinite = true) (ha : a.isFinite = true)
    (hxy : value x ≤ value y) : value (x - a) ≤ value (y - a) :=
  (sub_rounds hx ha).value_le (sub_rounds hy ha) (sub_le_sub_right hxy _)

theorem div_value_le (hx : x.isNaN = false) (hy : y.isNaN = false) (ha : a.isFinite = true)
    (hpos : 0 < value a) (hxy : value x ≤ value y) : value (x / a) ≤ value (y / a) := by
  refine value_le_of_absorbs (f := (· / a)) (g := (· / a)) ?_ (fun h => div_isNaN h ha hpos)
    (fun h => div_isNaN h ha hpos) (fun h => div_of_isInf h ha hpos)
    (fun h => div_of_isInf h ha hpos) hx hy hxy
  intro x y hx hy h
  exact (div_rounds hx ha hpos.ne').value_le (div_rounds hy ha hpos.ne')
    ((div_le_div_iff_of_pos_right hpos).mpr h)

/-! ## Doubling and halving -/

theorem Rounds.value_eq {q : ℚ} (hx : Rounds q x) (hy : y.isNaN = false) (h : value y = q) :
    value x = q :=
  le_antisymm (h ▸ hx.value_le (rounds_value hy) h.ge) (h ▸ hx.le_value hy h.le)

theorem two_mul_units (g : Nat) : ∃ h, units h = 2 * units g := by
  obtain ⟨m, k, rfl, hm, hk⟩ := exists_packed g
  obtain ⟨h, hh⟩ := exists_units_mul_two_pow hm (k + 1)
  refine ⟨h, ?_⟩
  rw [hh, units_packed hm.le hk]
  ring

theorem add_self_value (hx : x.isFinite = true) (hsum : (x + x).isFinite = true) :
    value (x + x) = 2 * value x := by
  have hrounds := add_rounds hx hx
  rw [← two_mul] at hrounds
  obtain ⟨h, hh⟩ := two_mul_units (magnitude x)
  have habs : |2 * value x| = units h * least := by
    rw [abs_mul, abs_two, abs_value, hh, Nat.cast_mul, Nat.cast_two, mul_assoc]
  obtain ⟨g, hg, hmagnitude⟩ := hrounds.nearest
  rw [habs, mul_div_cancel_right₀ _ least_pos.ne'] at hg
  obtain rfl := hg.eq_of_eq_units rfl
  have hlt := isFinite_iff.mp hsum
  exact hrounds.value_eq_of_grid (by omega) habs

/-- A finite number that is not above a double is not above it before it is rounded. -/
theorem le_two_mul_value (hx : x.isFinite = true) (ha : a.isFinite = true)
    (h : value a ≤ value (x + x)) : value a ≤ 2 * value x := by
  by_contra! hlt
  have hrounds := add_rounds hx hx
  rw [← two_mul] at hrounds
  have hle := hrounds.value_le (rounds_value (isNaN_of_isFinite ha)) hlt.le
  rw [add_self_value hx (isFinite_between ha ha h hle)] at h
  exact absurd hlt (not_lt.mpr h)

theorem two_mul_value_le (hx : x.isFinite = true) (ha : a.isFinite = true)
    (h : value (x + x) ≤ value a) : 2 * value x ≤ value a := by
  by_contra! hlt
  have hrounds := add_rounds hx hx
  rw [← two_mul] at hrounds
  have hle := hrounds.le_value (isNaN_of_isFinite ha) hlt.le
  rw [add_self_value hx (isFinite_between ha ha hle h)] at h
  exact absurd hlt (not_lt.mpr h)

/-- Half of a finite sum lies wherever both summands lie. -/
theorem half_add_between {lo hi : Float} (hx : x.isFinite = true) (hy : y.isFinite = true)
    (hlo : lo.isFinite = true) (hhi : hi.isFinite = true)
    (hxs : value lo ≤ value x ∧ value x ≤ value hi)
    (hys : value lo ≤ value y ∧ value y ≤ value hi) (hsum : (x + y).isFinite = true)
    (ha : a.isFinite = true) (htwo : value a = 2) :
    value lo ≤ value ((x + y) / a) ∧ value ((x + y) / a) ≤ value hi := by
  have hnumber (z : Float) (hz : z.isFinite = true) := isNaN_of_isFinite hz
  have hlow := two_mul_value_le hlo hsum
    (add_value_le (hnumber lo hlo) (hnumber x hx) hlo hy hxs.1 hys.1)
  have hhigh := le_two_mul_value hhi hsum
    (add_value_le (hnumber x hx) (hnumber hi hhi) hy hhi hxs.2 hys.2)
  have hhalf := div_rounds hsum ha (by rw [htwo]; exact two_ne_zero)
  rw [htwo] at hhalf
  exact ⟨hhalf.le_value (hnumber lo hlo) (by linarith),
    hhalf.value_le (rounds_value (hnumber hi hhi)) (by linarith)⟩

end

end PerfGate.Number
