import PerfGate.Decimal.Shortest
import PerfGate.Proofs.Number.Defined

/-!
# The shortest decimal reads back

A decimal inside of the interval of a number is nearer to it than to its neighbours, so the
number is what rounds it. The search for the coarsest grid always ends at such a decimal: the
points of the finest grid are closer together than a quarter of the least unit.
-/

set_option autoImplicit false

namespace PerfGate.Decimal

open Number

/-! ## Words taken apart -/

structure Parts (x : Float) (negative : Bool) (m k : Nat) : Prop where
  sign : signOf x = if negative then .negative else .positive
  magnitude : magnitude x = m + k * 2 ^ 52
  below : m < 2 ^ 53
  normal : 0 < k → 2 ^ 52 ≤ m

theorem ofFloat_finite {x : Float} (hx : x.isFinite = true) :
    ∃ (negative : Bool) (m k : Nat), Binary.ofFloat x = .finite negative m ((k : Int) - 1074) ∧
      Parts x negative m k := by
  have hlt := isFinite_iff.mp hx
  have hword : x.toBits.toNat < 2 ^ 64 := x.toBits.toNat_lt
  have hi : infinityWord = 2047 * 2 ^ 52 := rfl
  have hbit : Binary.signBit = 2 ^ 63 := rfl
  have hhidden : Binary.hiddenBit = 2 ^ 52 := rfl
  have hsign : signOf x =
      if x.toBits.toNat / 2 ^ 63 % 2 == 1 then .negative else .positive := by
    rw [signOf, hbit]
    by_cases hs : x.toBits.toNat < 2 ^ 63
    · rw [if_pos hs, if_neg (by simp only [beq_iff_eq]; omega)]
    · rw [if_neg hs, if_pos (by simp only [beq_iff_eq]; omega)]
  rw [magnitude, hbit] at hlt
  simp only [Binary.ofFloat, Binary.ofBits, hbit, hhidden]
  rw [if_neg (by omega)]
  by_cases hleast : x.toBits.toNat / 2 ^ 52 % 2048 = 0
  · rw [if_pos hleast]
    refine ⟨_, x.toBits.toNat % 2 ^ 52, 0, rfl, hsign, ?_, by omega, by omega⟩
    rw [magnitude, hbit]
    omega
  · rw [if_neg hleast]
    refine ⟨_, 2 ^ 52 + x.toBits.toNat % 2 ^ 52, x.toBits.toNat / 2 ^ 52 % 2048 - 1, ?_, hsign, ?_,
      by omega, by omega⟩
    · rw [Binary.leastExponent]
      congr 1
    · rw [magnitude, hbit]
      omega

theorem ofFloat_exceptional {x : Float} (hx : ¬ x.isFinite = true) :
    Binary.ofFloat x = .notANumber ∨ ∃ negative, Binary.ofFloat x = .infinite negative := by
  have hi : infinityWord = 2047 * 2 ^ 52 := rfl
  have hbit : Binary.signBit = 2 ^ 63 := rfl
  have hhidden : Binary.hiddenBit = 2 ^ 52 := rfl
  rw [isFinite_iff, magnitude, hbit] at hx
  simp only [Binary.ofFloat, Binary.ofBits, hhidden]
  rw [if_pos (by omega)]
  split
  · exact .inr ⟨_, rfl⟩
  · exact .inl rfl

/-! ## Scales -/

theorem powerRatio_ratio {base : Nat} (hbase : 0 < base) (e : Int) :
    ((powerRatio base e).1 : ℚ) = (powerRatio base e).2 * (base : ℚ) ^ e := by
  have hne : (base : ℚ) ≠ 0 := by exact_mod_cast hbase.ne'
  have hexponent : (e.toNat : Int) = (-e).toNat + e := by omega
  simp only [powerRatio, Nat.pow_eq]
  rw [Nat.cast_pow, Nat.cast_pow, ← zpow_natCast, ← zpow_natCast, ← zpow_add₀ hne, hexponent]

theorem powerRatio_pos {base : Nat} (hbase : 0 < base) (e : Int) :
    0 < (powerRatio base e).1 ∧ 0 < (powerRatio base e).2 :=
  ⟨Nat.pow_pos hbase, Nat.pow_pos hbase⟩

namespace Units

theorem quarter_pos (q j : Int) : 0 < (of q j).quarter :=
  Nat.mul_pos (powerRatio_pos two_pos _).1 (powerRatio_pos (by decide) _).2

theorem grid_pos (q j : Int) : 0 < (of q j).grid :=
  Nat.mul_pos (powerRatio_pos (by decide) _).1 (powerRatio_pos two_pos _).2

/-- A step of the grid, counted in quarter units. -/
theorem grid_div_quarter (q j : Int) :
    ((of q j).grid : ℚ) / (of q j).quarter = 10 ^ j / 2 ^ (q - 2) := by
  have hquarter : ((of q j).quarter : ℚ) ≠ 0 := by exact_mod_cast (quarter_pos q j).ne'
  rw [div_eq_div_iff hquarter (by positivity)]
  have hten := powerRatio_ratio (show 0 < 10 by decide) j
  have htwo := powerRatio_ratio two_pos (q - 2)
  simp only [of, Nat.cast_mul]
  rw [hten, htwo]
  push_cast
  ring

/-- On the finest grids a step is at most a quarter of a unit. -/
theorem grid_le_quarter {q : Int} {e : Nat} (hq : -1074 ≤ q) (he : 324 ≤ e) :
    (of q (-e)).grid ≤ (of q (-e)).quarter := by
  have hsmall : (-(q - 2)).toNat ≤ 1076 := by omega
  simp only [of, powerRatio, Nat.pow_eq, neg_neg, Int.toNat_natCast, Int.toNat_neg_natCast,
    pow_zero, one_mul]
  calc 2 ^ (-(q - 2)).toNat ≤ 2 ^ 1076 := pow_le_pow_right₀ one_le_two hsmall
    _ ≤ 10 ^ 324 := by decide +kernel
    _ ≤ 10 ^ e := pow_le_pow_right₀ (by decide) he
    _ ≤ 2 ^ (q - 2).toNat * 10 ^ e := Nat.le_mul_of_pos_left _ (by positivity)

end Units

/-! ## Intervals -/

/-- A number of quarter units between the bounds, and on one only if they belong to it. -/
structure Interval.Holds (i : Interval) (r : ℚ) : Prop where
  above : (i.lower : ℚ) ≤ r ∧ (i.lower = r → i.closed = true)
  below : r ≤ i.upper ∧ (r = i.upper → i.closed = true)

theorem Interval.holds_of_contains {i : Interval} {u : Units} {n : Nat} (hquarter : 0 < u.quarter)
    (h : i.contains u n = true) : i.Holds (n * (u.grid / u.quarter)) := by
  have hpos : (0 : ℚ) < u.quarter := by exact_mod_cast hquarter
  rw [← mul_div_assoc]
  rw [contains] at h
  cases hclosed : i.closed with
  | true =>
    rw [hclosed, if_pos rfl, Bool.and_eq_true, decide_eq_true_eq, decide_eq_true_eq] at h
    exact ⟨⟨(le_div_iff₀ hpos).mpr (by exact_mod_cast h.1), fun _ => hclosed⟩,
      (div_le_iff₀ hpos).mpr (by exact_mod_cast h.2), fun _ => hclosed⟩
  | false =>
    rw [hclosed, if_neg Bool.false_ne_true, Bool.and_eq_true, decide_eq_true_eq,
      decide_eq_true_eq] at h
    have hlow : (i.lower : ℚ) < n * u.grid / u.quarter :=
      (lt_div_iff₀ hpos).mpr (by exact_mod_cast h.1)
    have hhigh : (n * u.grid / u.quarter : ℚ) < i.upper :=
      (div_lt_iff₀ hpos).mpr (by exact_mod_cast h.2)
    exact ⟨⟨hlow.le, fun heq => absurd heq hlow.ne⟩, hhigh.le, fun heq => absurd heq hhigh.ne⟩

/-- The bounds of the interval are the middles to the neighbours. -/
theorem Interval.Holds.nearest {m k : Nat} {r : ℚ} (hm : m < 2 ^ 53) (hk : 0 < k → 2 ^ 52 ≤ m)
    (h : (Interval.around m ((k : Int) - 1074)).Holds r) :
    Nearest (r / 4 * 2 ^ k) (m + k * 2 ^ 52) := by
  have hpos : (0 : ℚ) < 2 ^ k := by positivity
  have hparity : m % 2 = 0 → Even (m + k * 2 ^ 52) := fun heven =>
    (Nat.even_iff.mpr heven).add (Even.mul_left (by decide) k)
  have hhidden : Binary.hiddenBit = 2 ^ 52 := rfl
  obtain ⟨⟨hlow, hlowclosed⟩, hhigh, hhighclosed⟩ := h
  simp only [around, beq_iff_eq, hhidden, Binary.leastExponent] at hlow hlowclosed hhigh hhighclosed
  constructor
  · intro p hp
    by_cases hleast : m = 2 ^ 52 ∧ (-1074 : Int) < (k : Int) - 1074
    · obtain ⟨k, rfl⟩ : ∃ l, k = l + 1 := ⟨k - 1, by omega⟩
      have hbound : ((4 * m - 1 : Nat) : ℚ) / 4 = 2 ^ 52 - 1 / 4 := by
        rw [hleast.1]
        norm_num
      rw [if_pos hleast] at hlow hlowclosed
      obtain rfl : p = 2 ^ 52 + (k + 1) * 2 ^ 52 - 1 := by omega
      rw [middle_packed_least, ← hbound]
      refine ⟨(mul_le_mul_iff_left₀ hpos).mpr (by linarith), fun heq => hparity (hlowclosed ?_)⟩
      have := mul_right_cancel₀ hpos.ne' heq
      linarith
    · have hbound : ((4 * m - 2 : Nat) : ℚ) / 4 = ((m - 1 : Nat) : ℚ) + 1 / 2 := by
        rw [Nat.cast_sub (by omega), Nat.cast_sub (by omega)]
        push_cast
        ring
      rw [if_neg hleast] at hlow hlowclosed
      obtain rfl : p = (m - 1) + k * 2 ^ 52 := by omega
      rw [middle_packed (by omega) (by omega), ← hbound]
      refine ⟨(mul_le_mul_iff_left₀ hpos).mpr (by linarith), fun heq => hparity (hlowclosed ?_)⟩
      have := mul_right_cancel₀ hpos.ne' heq
      linarith
  · have hbound : ((4 * m + 2 : Nat) : ℚ) / 4 = m + 1 / 2 := by
      push_cast
      ring
    rw [middle_packed hm hk, ← hbound]
    refine ⟨(mul_le_mul_iff_left₀ hpos).mpr (by linarith), fun heq => hparity (hhighclosed ?_)⟩
    have := mul_right_cancel₀ hpos.ne' heq
    linarith

/-! ## The search -/

section
variable (tie : Tie) {m : Nat} {q j : Int}

theorem contains_of_gridPoint {n : Nat} (h : gridPoint tie m q j = some n) :
    (Interval.around m q).contains (Units.of q j) n = true := by
  simp only [gridPoint] at h
  split at h
  next hbelow habove =>
    split at h
    · obtain rfl := Option.some.inj h
      exact hbelow
    · obtain rfl := Option.some.inj h
      exact habove
  next hbelow habove =>
    obtain rfl := Option.some.inj h
    exact hbelow
  next hbelow habove =>
    obtain rfl := Option.some.inj h
    exact habove
  next => cases h

theorem gridPoint_of_contains_below
    (h : (Interval.around m q).contains (Units.of q j)
      (4 * m * (Units.of q j).quarter / (Units.of q j).grid) = true) :
    ∃ n, gridPoint tie m q j = some n := by
  simp only [gridPoint, h]
  split
  next => split <;> exact ⟨_, rfl⟩
  next => exact ⟨_, rfl⟩
  next hfalse _ => cases hfalse
  next hfalse _ => cases hfalse

/-- Where the steps are short the point below the number is in its interval. -/
theorem gridPoint_of_fine (hm : 0 < m) (hfine : (Units.of q j).grid ≤ (Units.of q j).quarter) :
    ∃ n, gridPoint tie m q j = some n := by
  apply gridPoint_of_contains_below
  have hgrid := Units.grid_pos q j
  generalize hu : Units.of q j = u at *
  have hle : 4 * m * u.quarter / u.grid * u.grid ≤ 4 * m * u.quarter := Nat.div_mul_le_self _ _
  have hlt : 4 * m * u.quarter < 4 * m * u.quarter / u.grid * u.grid + u.grid :=
    Nat.lt_div_mul_add hgrid
  have hpoint : (Interval.around m q).lower * u.quarter <
        4 * m * u.quarter / u.grid * u.grid ∧
      4 * m * u.quarter / u.grid * u.grid < (Interval.around m q).upper * u.quarter := by
    have hlower : (Interval.around m q).lower ≤ 4 * m - 1 := by
      simp only [Interval.around]
      split <;> omega
    have hsteps : (4 * m - 1) * u.quarter + u.quarter = 4 * m * u.quarter := by
      rw [← Nat.succ_mul]
      congr 1
      omega
    have hbound := Nat.mul_le_mul_right u.quarter hlower
    have hupper : 4 * m * u.quarter < (4 * m + 2) * u.quarter :=
      Nat.mul_lt_mul_of_pos_right (by omega) (hgrid.trans_le hfine)
    exact ⟨by omega, hle.trans_lt hupper⟩
  rw [Interval.contains]
  split
  next => simp only [hpoint.1.le, hpoint.2.le, decide_true, Bool.and_self]
  next => simp only [hpoint.1, hpoint.2, decide_true, Bool.and_self]

/-- The search ends at a grid that has a point if it gets to a fine one. -/
theorem contains_coarsest (hm : 0 < m) (hfine : (Units.of q j).grid ≤ (Units.of q j).quarter)
    (fuel : Nat) (start : Int) (hstart : j ≤ start) (hfuel : start < j + fuel) :
    (coarsest tie m q fuel start).exponent ≤ start ∧
      (Interval.around m q).contains (Units.of q (coarsest tie m q fuel start).exponent)
        (coarsest tie m q fuel start).digits = true := by
  induction fuel generalizing start with
  | zero => omega
  | succ fuel ih =>
    rw [coarsest]
    cases hpoint : gridPoint tie m q start with
    | some n => exact ⟨le_rfl, contains_of_gridPoint tie hpoint⟩
    | none =>
      have hne : start ≠ j := by
        rintro rfl
        obtain ⟨n, hn⟩ := gridPoint_of_fine tie hm hfine
        rw [hn] at hpoint
        cases hpoint
      obtain ⟨hle, hcontains⟩ := ih (start - 1) (by omega) (by omega)
      exact ⟨hle.trans (by omega), hcontains⟩

end

/-! ## What the shortest decimal rounds to -/

def Scaled.value (s : Scaled) : ℚ := s.digits * 10 ^ s.exponent

theorem Scaled.value_nonneg (s : Scaled) : 0 ≤ s.value := by
  rw [value]
  positivity

theorem shortest_nearest (tie : Tie) {m k : Nat} (hm : m < 2 ^ 53) (hk : 0 < k → 2 ^ 52 ≤ m) :
    (shortest tie m ((k : Int) - 1074)).exponent ≤ 309 ∧
      Nearest ((shortest tie m ((k : Int) - 1074)).value / least) (m + k * 2 ^ 52) := by
  rw [shortest]
  by_cases hzero : m = 0
  · obtain rfl : k = 0 := by omega
    rw [if_pos hzero, hzero, Scaled.value]
    refine ⟨by decide, ?_⟩
    simpa using nearest_units 0
  · rw [if_neg hzero]
    obtain ⟨hle, hcontains⟩ := contains_coarsest tie (Nat.pos_of_ne_zero hzero)
      (Units.grid_le_quarter (q := (k : Int) - 1074) (by omega) (le_refl 324)) 634 309
      (by omega) (by omega)
    refine ⟨hle, ?_⟩
    generalize coarsest tie m ((k : Int) - 1074) 634 309 = s at *
    have hnearest := (Interval.holds_of_contains (Units.quarter_pos _ _) hcontains).nearest hm hk
    rw [Units.grid_div_quarter] at hnearest
    have hscale : (2 : ℚ) ^ ((k : Int) - 1074 - 2) = 2 ^ k * least / 4 := by
      rw [least, ← zpow_natCast, ← zpow_add₀ two_ne_zero, zpow_sub₀ two_ne_zero, ← sub_eq_add_neg]
      norm_num
    have hvalue : s.value / least =
        s.digits * (10 ^ s.exponent / 2 ^ ((k : Int) - 1074 - 2)) / 4 * 2 ^ k := by
      have hleast := least_pos.ne'
      rw [Scaled.value, hscale]
      field_simp
    rwa [hvalue]

/-- Zero has one shortest decimal. -/
theorem shortest_zero (tie : Tie) {m k : Nat} (hm : m < 2 ^ 53) (hk : 0 < k → 2 ^ 52 ≤ m)
    (h : (shortest tie m ((k : Int) - 1074)).digits = 0) :
    (shortest tie m ((k : Int) - 1074)).exponent = 0 := by
  obtain ⟨-, hnearest⟩ := shortest_nearest tie hm hk
  have hvanishes : m + k * 2 ^ 52 = 0 := hnearest.eq_of_eq_units (by simp [Scaled.value, h])
  rw [shortest, if_pos (by omega)]

/-- What rounds the shortest decimal of a number is that number, but for the sign. -/
theorem magnitude_of_rounds {x y : Float} {negative : Bool} {m k : Nat} {tie : Tie}
    (hx : x.isFinite = true) (hparts : Parts x negative m k)
    (hy : Rounds (shortest tie m ((k : Int) - 1074)).value y) : magnitude y = magnitude x := by
  have hlt := isFinite_iff.mp hx
  obtain ⟨-, hnearest⟩ := shortest_nearest tie hparts.below hparts.normal
  obtain ⟨g, hg, hmagnitude⟩ := hy.nearest
  rw [abs_of_nonneg (Scaled.value_nonneg _)] at hg
  have hsame : g = m + k * 2 ^ 52 := le_antisymm (hg.le hnearest le_rfl) (hnearest.le hg le_rfl)
  rw [hmagnitude, hsame, ← hparts.magnitude, min_eq_left hlt.le]

end PerfGate.Decimal
