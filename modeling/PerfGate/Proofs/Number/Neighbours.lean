import PerfGate.Proofs.Number.Monotone
import PerfGate.Proofs.Number.Sign

/-!
# Neighbouring numbers

Above every number that is finite there is a next one. What is past the middle between the two
is rounded to the upper one or past it, and what is short of a number by less than a share of it
is rounded to it or past it. So a difference of numbers that are within a factor of two is not
rounded, and the quotient of two numbers is above one, one or below one as the first of them is
greater than the second, equal to it or less.
-/

set_option autoImplicit false

namespace PerfGate.Number

section
variable {x y : Float} {q : ℚ}

/-! ## The next number -/

structure Next (x y : Float) : Prop where
  above : x < y
  least : ∀ z, x < z → y ≤ z

theorem place_eq_magnitude (hx : x.isNaN = false) (hnonneg : 0 ≤ value x) :
    place x = magnitude x :=
  (rounds_value hx).place_of_nonneg hnonneg

theorem next_of_place (hx : x.isNaN = false) (hy : y.isNaN = false)
    (hplace : place y = place x + 1) : Next x y where
  above := by
    rw [lt_iff hx hy]
    omega
  least z hz := by
    have hnumber := (isNaN_of_lt hz).2
    rw [lt_iff hx hnumber] at hz
    rw [le_iff hy hnumber]
    omega

theorem exists_next (hx : x.isFinite = true) (hnonneg : 0 ≤ value x) : ∃ y, Next x y := by
  have hnumber := isNaN_of_isFinite hx
  have hlt : magnitude x < infinityWord := isFinite_iff.mp hx
  obtain ⟨y, hy, hplace⟩ := exists_place (Nat.succ_le_of_lt hlt)
  refine ⟨y, next_of_place hnumber hy ?_⟩
  rw [hplace, place_eq_magnitude hnumber hnonneg, Nat.cast_succ]

/-! ## Close to a number -/

/-- What is past the middle above a number is rounded past the number. -/
theorem Rounds.lt_value (hx : Rounds q x) (hy : y.isFinite = true) (hnonneg : 0 ≤ value y)
    (h : middle (magnitude y) * least < q) : value y < value x := by
  have hmiddle : 0 ≤ middle (magnitude y) := by
    rw [middle]
    positivity
  have hpos : 0 < q := (mul_nonneg hmiddle least_pos.le).trans_lt h
  obtain ⟨g, hg, hmagnitude⟩ := hx.nearest
  have hlt : magnitude y < g := by
    apply hg.lt_of_middle_lt
    rwa [abs_of_pos hpos, lt_div_iff₀ least_pos]
  have hfinite := isFinite_iff.mp hy
  rw [value_lt_iff_place, hx.place_of_nonneg hpos.le,
    place_eq_magnitude (isNaN_of_isFinite hy) hnonneg]
  omega

/-- What falls short of a number by less than a share of it is rounded to it, or past it. -/
theorem Rounds.le_value_of_close (hx : Rounds q x) (hy : y.isNaN = false) (hnonneg : 0 ≤ value y)
    (h : value y * (1 - 1 / 2 ^ 54) < q) : value y ≤ value x := by
  have hshare : (0 : ℚ) ≤ 1 - 1 / 2 ^ 54 := by norm_num
  have hpos : 0 < q := (mul_nonneg hnonneg hshare).trans_lt h
  rw [value_le_iff_place, hx.place_of_nonneg hpos.le, place_eq_magnitude hy hnonneg]
  rw [← abs_of_nonneg hnonneg, abs_value] at h
  rw [← Bool.not_eq_true, isNaN_iff] at hy
  obtain ⟨g, hg, hmagnitude⟩ := hx.nearest
  by_cases hzero : magnitude y = 0
  · omega
  · obtain ⟨p, hp⟩ : ∃ p, magnitude y = p + 1 := ⟨magnitude y - 1, by omega⟩
    have hlt : p < g := by
      apply hg.lt_of_middle_lt
      rw [abs_of_pos hpos, lt_div_iff₀ least_pos]
      rw [hp] at h
      have hbelow := mul_le_mul_of_nonneg_right (middle_le p) least_pos.le
      linarith
    omega

/-! ## Differences -/

theorem value_of_nonneg (h : 0 ≤ value x) : value x = units (magnitude x) * least := by
  rw [← abs_value, abs_of_nonneg h]

theorem units_le_units {n : Nat} (hx : 0 ≤ value x) (hy : 0 ≤ value y)
    (h : value x ≤ n * value y) : units (magnitude x) ≤ n * units (magnitude y) := by
  rw [value_of_nonneg hx, value_of_nonneg hy, ← mul_assoc, mul_le_mul_iff_left₀ least_pos] at h
  exact_mod_cast h

/-- A number at most twice as great as another one differs from it by a number. -/
theorem sub_value_of_le_double (hx : x.isFinite = true) (hy : y.isFinite = true)
    (hpos : 0 < value y) (hle : value y ≤ value x) (hdouble : value x ≤ 2 * value y) :
    value (x - y) = value x - value y := by
  have hxpos : 0 ≤ value x := hpos.le.trans hle
  have hunits : units (magnitude y) ≤ units (magnitude x) := by
    have hone := units_le_units (n := 1) hpos.le hxpos (by rwa [Nat.cast_one, one_mul])
    rwa [one_mul] at hone
  have htwice : units (magnitude x) ≤ 2 * units (magnitude y) :=
    units_le_units hxpos hpos.le hdouble
  -- The difference needs no more bits than the lesser number has, so it is on the grid.
  obtain ⟨j, hj⟩ := exists_units_sub (units_strictMono.le_iff_le.mp hunits) htwice
  have hrange : j ≤ infinityWord := by
    have hfinite := isFinite_iff.mp hy
    have hsmall : units j ≤ units (magnitude y) := by omega
    have := units_strictMono.le_iff_le.mp hsmall
    omega
  apply (sub_rounds hx hy).value_eq_of_grid hrange
  rw [abs_of_nonneg (sub_nonneg.mpr hle), hj, Nat.cast_sub hunits, sub_mul, ← value_of_nonneg hxpos,
    ← value_of_nonneg hpos.le]

/-- A difference that exceeds what was taken off, and exceeds it by a share of it, does so after
it has been rounded. -/
theorem lt_sub_value (hx : x.isFinite = true) (hy : y.isFinite = true) (hpos : 0 < value y)
    (hlt : value y < value x - value y)
    (hfar : value y * (1 + 1 / 2 ^ 52) ≤ value x - value y) : value y < value (x - y) := by
  have hxpos : 0 ≤ value x := by linarith
  have hunits : units (magnitude y) ≤ units (magnitude x) := by
    have hone := units_le_units (n := 1) hpos.le hxpos (by rw [Nat.cast_one, one_mul]; linarith)
    rwa [one_mul] at hone
  have hdifference :
      value x - value y = (units (magnitude x) - units (magnitude y) : Nat) * least := by
    rw [Nat.cast_sub hunits, sub_mul, ← value_of_nonneg hxpos, ← value_of_nonneg hpos.le]
  apply (sub_rounds hx hy).lt_value hy hpos.le
  rw [hdifference] at hlt hfar ⊢
  rw [value_of_nonneg hpos.le] at hlt hfar
  rw [mul_right_comm, mul_le_mul_iff_left₀ least_pos] at hfar
  rw [mul_lt_mul_iff_left₀ least_pos] at hlt ⊢
  exact middle_lt (by exact_mod_cast hlt) hfar

/-! ## Quotients -/

theorem middle_one : middle (magnitude (Float.ofBits 0x3ff0000000000000)) * least =
    1 + 1 / 2 ^ 53 := by
  have hmagnitude : magnitude (Float.ofBits 0x3ff0000000000000) = 2 ^ 52 + 1022 * 2 ^ 52 := by
    decide
  have hleast : (2 : ℚ) ^ 1022 * least = 1 / 2 ^ 52 := by
    rw [least, ← zpow_natCast, ← zpow_add₀ two_ne_zero]
    norm_num
  rw [hmagnitude, middle_packed (by omega) (fun _ => le_rfl), mul_assoc, hleast]
  norm_num

/-- The quotient of a greater number by a lesser one is greater than one. -/
theorem one_lt_div_value (hx : x.isNaN = false) (hy : y.isFinite = true) (hpos : 0 < value y)
    (hlt : value y < value x) : 1 < value (x / y) := by
  rcases isFinite_or_isInf hx with hfinite | hinf
  · rw [← value_one]
    apply (div_rounds hfinite hy hpos.ne').lt_value (by decide)
      (by rw [value_one]; exact one_pos.le)
    have hgap := value_le_gap (hpos.trans hlt) hlt.ne
    rw [abs_sub_comm, abs_of_pos (sub_pos.mpr hlt)] at hgap
    rw [middle_one, lt_div_iff₀ hpos]
    linarith
  · rw [div_of_isInf hinf hy hpos, ← value_one, value_lt_iff_place,
      place_eq_magnitude hx (hpos.trans hlt).le, isInf_iff.mp hinf]
    decide

theorem value_below_one : value (Float.ofBits 0x3fefffffffffffff) = 1 - 1 / 2 ^ 53 := by
  have hplace : place (Float.ofBits 0x3fefffffffffffff) =
      ((2 ^ 53 - 1) + 1021 * 2 ^ 52 : Nat) := by
    decide
  rw [value_packed hplace (by omega) (by omega)]
  norm_num

/-- The quotient of a lesser number by a greater one is less than one. -/
theorem div_value_lt_one (hx : x.isFinite = true) (hy : y.isFinite = true) (hpos : 0 < value y)
    (hlt : value x < value y) : value (x / y) < 1 := by
  have hgap := value_le_gap hpos hlt.ne
  rw [abs_sub_comm, abs_of_pos (sub_pos.mpr hlt)] at hgap
  have hquotient : value x / value y ≤ value (Float.ofBits 0x3fefffffffffffff) := by
    rw [value_below_one, div_le_iff₀ hpos]
    linarith
  have hle := (div_rounds hx hy hpos.ne').value_le (rounds_value (by decide)) hquotient
  rw [value_below_one] at hle
  linarith

theorem div_self_value (hx : x.isFinite = true) (hy : y.isFinite = true) (hpos : 0 < value y)
    (heq : value x = value y) : value (x / y) = 1 := by
  have hrounds := div_rounds hx hy hpos.ne'
  rw [heq, div_self hpos.ne'] at hrounds
  exact hrounds.value_eq (by decide) value_one

/-- A quotient is on the same side of one as the difference is of zero. -/
theorem sign_div_sub_one (hx : x.isFinite = true) (hy : y.isFinite = true) (hpos : 0 < value y) :
    SignType.sign (value (x / y) - 1) = SignType.sign (value x - value y) := by
  rcases lt_trichotomy (value x) (value y) with hlt | heq | hlt
  · have hbelow := div_value_lt_one hx hy hpos hlt
    rw [sign_neg (sub_neg.mpr hbelow), sign_neg (sub_neg.mpr hlt)]
  · rw [div_self_value hx hy hpos heq, heq, sub_self, sub_self]
  · have habove := one_lt_div_value (isNaN_of_isFinite hx) hy hpos hlt
    rw [sign_pos (sub_pos.mpr habove), sign_pos (sub_pos.mpr hlt)]

end

end PerfGate.Number
