import PerfGate.Proofs.Number.Order

/-!
# The grid of magnitudes

A magnitude stands for a multiple of the least positive number, and the step from one to the
next is a power of two. A rational that is not negative is rounded to the nearest point of this
grid; halfway between two points the even magnitude is taken. Rounding keeps the order, leaves
the points of the grid where they are, and never loses more than half of a whole number.
-/

set_option autoImplicit false

namespace PerfGate.Number

/-- What a magnitude stands for, in units of the least positive number. The grid goes on past
the largest number as if exponents had no bound. -/
def units (g : Nat) : Nat :=
  if g < 2 ^ 52 then g else (2 ^ 52 + g % 2 ^ 52) * 2 ^ (g / 2 ^ 52 - 1)

/-! ## Significands and exponents -/

/-- A significand may also be the one that carries into the next exponent. -/
theorem units_packed {m k : Nat} (hm : m ≤ 2 ^ 53) (hk : 0 < k → 2 ^ 52 ≤ m) :
    units (m + k * 2 ^ 52) = m * 2 ^ k := by
  rcases Nat.lt_or_ge m (2 ^ 52) with hsmall | hbig
  · obtain rfl : k = 0 := by omega
    rw [Nat.zero_mul, Nat.add_zero, pow_zero, Nat.mul_one, units, if_pos hsmall]
  · rw [units, if_neg (by omega)]
    rcases Nat.lt_or_ge m (2 ^ 53) with hlt | hge
    · rw [show (m + k * 2 ^ 52) % 2 ^ 52 = m - 2 ^ 52 by omega,
        show (m + k * 2 ^ 52) / 2 ^ 52 - 1 = k by omega, Nat.add_sub_cancel' hbig]
    · rw [show (m + k * 2 ^ 52) % 2 ^ 52 = 0 by omega,
        show (m + k * 2 ^ 52) / 2 ^ 52 - 1 = k + 1 by omega, show m = 2 ^ 53 by omega]
      ring

theorem exists_packed (g : Nat) :
    ∃ m k, g = m + k * 2 ^ 52 ∧ m < 2 ^ 53 ∧ (0 < k → 2 ^ 52 ≤ m) := by
  rcases Nat.lt_or_ge g (2 ^ 52) with h | h
  · exact ⟨g, 0, by omega, by omega, by omega⟩
  · exact ⟨2 ^ 52 + g % 2 ^ 52, g / 2 ^ 52 - 1, by omega, by omega, by omega⟩

theorem units_packed_succ {m k : Nat} (hm : m < 2 ^ 53) (hk : 0 < k → 2 ^ 52 ≤ m) :
    units (m + k * 2 ^ 52 + 1) = (m + 1) * 2 ^ k := by
  rw [show m + k * 2 ^ 52 + 1 = (m + 1) + k * 2 ^ 52 by omega]
  exact units_packed hm fun h => Nat.le_succ_of_le (hk h)

theorem units_strictMono : StrictMono units := by
  refine strictMono_nat_of_lt_succ fun g => ?_
  obtain ⟨m, k, rfl, hm, hk⟩ := exists_packed g
  rw [units_packed hm.le hk, units_packed_succ hm hk]
  exact Nat.mul_lt_mul_of_pos_right (Nat.lt_succ_self m) (Nat.two_pow_pos k)

/-- Two points are apart by at least a share of the greater one. -/
theorem units_le_gap {h g : Nat} (hlt : h < g) : units g ≤ 2 ^ 53 * (units g - units h) := by
  obtain ⟨p, rfl⟩ : ∃ p, g = p + 1 := ⟨g - 1, by omega⟩
  have hle : units h ≤ units p := units_strictMono.monotone (by omega)
  obtain ⟨m, k, rfl, hm, hk⟩ := exists_packed p
  rw [units_packed hm.le hk] at hle
  rw [units_packed_succ hm hk]
  have hstep : (m + 1) * 2 ^ k = m * 2 ^ k + 2 ^ k := Nat.succ_mul m (2 ^ k)
  have hgap : 2 ^ k ≤ (m + 1) * 2 ^ k - units h := by omega
  exact (Nat.mul_le_mul_right _ hm).trans (Nat.mul_le_mul_left _ hgap)

/-- Up from a point of some exponent, all points are whole multiples of its power of two. -/
theorem two_pow_dvd_units {m k g : Nat} (hm : m < 2 ^ 53) (hk : 0 < k → 2 ^ 52 ≤ m)
    (hle : m + k * 2 ^ 52 ≤ g) : 2 ^ k ∣ units g := by
  obtain ⟨n, l, rfl, hn, hl⟩ := exists_packed g
  rw [units_packed hn.le hl]
  have hexponent : k ≤ l := by omega
  exact Dvd.dvd.mul_left (Nat.pow_dvd_pow 2 hexponent) n

/-- Whatever a significand and an exponent make up is on the grid. -/
theorem exists_units_mul_two_pow {m : Nat} (hm : m < 2 ^ 53) (k : Nat) :
    ∃ g, units g = m * 2 ^ k := by
  rcases Nat.lt_or_ge (m * 2 ^ k) (2 ^ 52) with hsmall | hbig
  · exact ⟨m * 2 ^ k, by rw [units, if_pos hsmall]⟩
  · have hne : m ≠ 0 := by
      rintro rfl
      omega
    have hlog : m.log2 ≤ 52 := Nat.le_of_lt_succ ((Nat.log2_lt hne).mpr hm)
    have hk : 52 < m.log2 + 1 + k := by
      refine (Nat.pow_lt_pow_iff_right (le_refl 2)).mp (hbig.trans_lt ?_)
      rw [pow_add]
      exact Nat.mul_lt_mul_of_pos_right Nat.lt_log2_self (Nat.two_pow_pos k)
    -- The leading bit is brought to the place of a full significand.
    have hhigh : m * 2 ^ (52 - m.log2) ≤ 2 ^ 53 := by
      calc m * 2 ^ (52 - m.log2) ≤ 2 ^ (m.log2 + 1) * 2 ^ (52 - m.log2) :=
            Nat.mul_le_mul_right _ Nat.lt_log2_self.le
        _ = 2 ^ 53 := by rw [← pow_add]; congr 1; omega
    have hlow : 2 ^ 52 ≤ m * 2 ^ (52 - m.log2) := by
      calc 2 ^ 52 = 2 ^ m.log2 * 2 ^ (52 - m.log2) := by rw [← pow_add]; congr 1; omega
        _ ≤ m * 2 ^ (52 - m.log2) := Nat.mul_le_mul_right _ (Nat.log2_self_le hne)
    refine ⟨m * 2 ^ (52 - m.log2) + (k - (52 - m.log2)) * 2 ^ 52, ?_⟩
    rw [units_packed hhigh (fun _ => hlow), mul_assoc, ← pow_add]
    congr 2
    omega

/-- What exceeds a point by no more than the point itself exceeds it by a point. -/
theorem exists_units_sub {g h : Nat} (hle : h ≤ g) (hdouble : units g ≤ 2 * units h) :
    ∃ j, units j = units g - units h := by
  obtain ⟨m, k, rfl, hm, hk⟩ := exists_packed h
  obtain ⟨n, hn⟩ := two_pow_dvd_units hm hk hle
  have hpoint : units (m + k * 2 ^ 52) = 2 ^ k * m := by rw [units_packed hm.le hk, mul_comm]
  rw [hpoint, hn, Nat.mul_left_comm] at hdouble
  rw [hpoint, hn, ← Nat.mul_sub]
  have hsmall : n - m < 2 ^ 53 := by
    have hle := Nat.le_of_mul_le_mul_left hdouble (Nat.two_pow_pos k)
    omega
  obtain ⟨j, hj⟩ := exists_units_mul_two_pow hsmall k
  exact ⟨j, hj.trans (Nat.mul_comm _ _)⟩

/-! ## Rounding -/

def middle (g : Nat) : ℚ := (units g + units (g + 1)) / 2

theorem middle_strictMono : StrictMono middle := by
  refine strictMono_nat_of_lt_succ fun g => ?_
  have h1 : (units g : ℚ) < units (g + 1) := by exact_mod_cast units_strictMono g.lt_succ_self
  have h2 : (units (g + 1) : ℚ) < units (g + 2) := by
    exact_mod_cast units_strictMono (g + 1).lt_succ_self
  rw [middle, middle]
  linarith

/-- The middle below a point falls short of it by a share of it. -/
theorem middle_le (h : Nat) : middle h ≤ units (h + 1) * (1 - 1 / 2 ^ 54) := by
  have hlt : units h < units (h + 1) := units_strictMono h.lt_succ_self
  have hgap : (units (h + 1) : ℚ) ≤ 2 ^ 53 * (units (h + 1) - units h) := by
    rw [← Nat.cast_sub hlt.le]
    exact_mod_cast units_le_gap h.lt_succ_self
  rw [middle]
  linarith

/-- A whole number that exceeds a point, and exceeds it by a share of it, is past the middle. -/
theorem middle_lt {g n : Nat} (hlt : units g < n) (hfar : units g * (1 + 1 / 2 ^ 52) ≤ (n : ℚ)) :
    middle g < n := by
  obtain ⟨m, k, rfl, hm, hk⟩ := exists_packed g
  rw [middle, units_packed_succ hm hk]
  rw [units_packed hm.le hk] at hlt hfar ⊢
  by_cases hzero : k = 0
  · subst hzero
    have hstep : ((m * 2 ^ 0 : Nat) : ℚ) + 1 ≤ n := by exact_mod_cast hlt
    push_cast at hstep ⊢
    linarith
  · have hnormal : (2 : ℚ) ^ 52 ≤ m := by exact_mod_cast hk (Nat.pos_of_ne_zero hzero)
    have hpower : (0 : ℚ) < 2 ^ k := by positivity
    have hshare : (2 : ℚ) ^ 52 * 2 ^ k ≤ m * 2 ^ k := mul_le_mul_of_nonneg_right hnormal hpower.le
    push_cast at hfar ⊢
    linarith

/-- The magnitude that is nearest to a number of units; of two the even one. -/
structure Nearest (q : ℚ) (g : Nat) : Prop where
  above : ∀ h, g = h + 1 → middle h ≤ q ∧ (middle h = q → Even g)
  below : q ≤ middle g ∧ (q = middle g → Even g)

theorem Nearest.le {q r : ℚ} {g h : Nat} (hg : Nearest q g) (hh : Nearest r h) (hqr : q ≤ r) :
    g ≤ h := by
  by_contra hlt
  obtain ⟨p, rfl⟩ : ∃ p, g = p + 1 := ⟨g - 1, by omega⟩
  obtain ⟨hlow, hloweven⟩ := hg.above p rfl
  obtain ⟨hhigh, hhigheven⟩ := hh.below
  have hmiddle : middle h ≤ middle p := middle_strictMono.monotone (by omega)
  -- Both numbers are the one middle, so its two neighbours would both be even.
  have hp : middle p = q := le_antisymm hlow (by linarith)
  have hr : r = middle h := le_antisymm hhigh (by linarith)
  obtain rfl : p = h := middle_strictMono.injective (le_antisymm (by linarith) hmiddle)
  exact (Nat.even_add_one.mp (hloweven hp)) (hhigheven hr)

theorem nearest_units (g : Nat) : Nearest (units g) g where
  above h hg := by
    have hlt : (units h : ℚ) < units g := by exact_mod_cast units_strictMono (by omega)
    have hmiddle : middle h < units g := by rw [middle, ← hg]; linarith
    exact ⟨hmiddle.le, fun heq => absurd heq hmiddle.ne⟩
  below := by
    have hlt : (units g : ℚ) < units (g + 1) := by exact_mod_cast units_strictMono (by omega)
    have hmiddle : (units g : ℚ) < middle g := by rw [middle]; linarith
    exact ⟨hmiddle.le, fun heq => absurd heq hmiddle.ne⟩

section
variable {q : ℚ} {g h : Nat}

theorem Nearest.le_of_units_le (hg : Nearest q g) (hq : (units h : ℚ) ≤ q) : h ≤ g :=
  (nearest_units h).le hg hq

theorem Nearest.le_of_le_units (hg : Nearest q g) (hq : q ≤ units h) : g ≤ h :=
  hg.le (nearest_units h) hq

theorem Nearest.eq_of_eq_units (hg : Nearest q g) (hq : q = units h) : g = h :=
  le_antisymm (hg.le_of_le_units hq.le) (hg.le_of_units_le hq.ge)

/-- What is past the middle above a point is rounded past the point. -/
theorem Nearest.lt_of_middle_lt (hg : Nearest q g) (hq : middle h < q) : h < g := by
  by_contra hle
  have hmiddle : middle g ≤ middle h := middle_strictMono.monotone (not_lt.mp hle)
  exact absurd (hg.below.1.trans hmiddle) (not_le.mpr hq)

/-- Only what is at most half a unit is rounded to zero. -/
theorem Nearest.pos (hg : Nearest q g) (hq : 1 / 2 < q) : 0 < g := by
  refine Nat.pos_of_ne_zero fun hzero => ?_
  have hmiddle : middle 0 = 1 / 2 := by norm_num [middle, units]
  have hbelow := hg.below.1
  rw [hzero, hmiddle] at hbelow
  exact absurd hq (not_lt.mpr hbelow)

end

/-- Rounding a whole number loses less than half of it. -/
theorem Nearest.le_two_mul_units {n g : Nat} (hg : Nearest n g) : n ≤ 2 * units g := by
  rcases Nat.eq_zero_or_pos n with rfl | hn
  · exact Nat.zero_le _
  · obtain ⟨h, hh⟩ := exists_units_mul_two_pow (show 1 < 2 ^ 53 by omega) n.log2
    rw [one_mul] at hh
    have hlow : units h ≤ n := hh ▸ Nat.log2_self_le hn.ne'
    have hle : units h ≤ units g :=
      units_strictMono.monotone (hg.le_of_units_le (by exact_mod_cast hlow))
    have hhigh : n < 2 ^ (n.log2 + 1) := Nat.lt_log2_self
    rw [pow_succ, ← hh] at hhigh
    omega

structure NearestNat (q : ℚ) (m : Nat) : Prop where
  above : (m : ℚ) - 1 / 2 ≤ q ∧ ((m : ℚ) - 1 / 2 = q → Even m)
  below : q ≤ m + 1 / 2 ∧ (q = m + 1 / 2 → Even m)

theorem nearestNat_of_lt {q : ℚ} {m : Nat} (hlow : (m : ℚ) - 1 / 2 < q) (hhigh : q < m + 1 / 2) :
    NearestNat q m :=
  ⟨⟨hlow.le, fun heq => absurd heq hlow.ne⟩, ⟨hhigh.le, fun heq => absurd heq hhigh.ne⟩⟩

theorem middle_packed {m k : Nat} (hm : m < 2 ^ 53) (hk : 0 < k → 2 ^ 52 ≤ m) :
    middle (m + k * 2 ^ 52) = (m + 1 / 2) * 2 ^ k := by
  rw [middle, units_packed hm.le hk, units_packed_succ hm hk]
  push_cast
  ring

/-- The middle below the least significand of an exponent lies on the finer grid. -/
theorem middle_packed_least {k : Nat} :
    middle (2 ^ 52 + (k + 1) * 2 ^ 52 - 1) = (2 ^ 52 - 1 / 4) * 2 ^ (k + 1) := by
  rw [show 2 ^ 52 + (k + 1) * 2 ^ 52 - 1 = (2 ^ 53 - 1) + k * 2 ^ 52 by omega,
    middle_packed (by omega) (by omega)]
  push_cast
  ring

/-- To round at the exponent of a number is to round on the grid. -/
theorem NearestNat.packed {q : ℚ} {m k : Nat} (h : NearestNat q m) (hlow : 0 < k → 2 ^ 52 ≤ q)
    (hhigh : q < 2 ^ 53) (hm : m ≤ 2 ^ 53) (hk : 0 < k → 2 ^ 52 ≤ m) :
    Nearest (q * 2 ^ k) (m + k * 2 ^ 52) := by
  have hpos : (0 : ℚ) < 2 ^ k := by positivity
  have hparity : Even m → Even (m + k * 2 ^ 52) := fun heven =>
    heven.add (Even.mul_left (by decide) k)
  constructor
  · intro p hp
    by_cases hleast : 0 < k ∧ m = 2 ^ 52
    · obtain ⟨hkpos, rfl⟩ := hleast
      obtain ⟨k, rfl⟩ : ∃ j, k = j + 1 := ⟨k - 1, by omega⟩
      obtain rfl : p = 2 ^ 52 + (k + 1) * 2 ^ 52 - 1 := by omega
      have hq := hlow hkpos
      have hlt : middle (2 ^ 52 + (k + 1) * 2 ^ 52 - 1) < q * 2 ^ (k + 1) := by
        rw [middle_packed_least]
        exact (mul_lt_mul_iff_left₀ hpos).mpr (by linarith)
      exact ⟨hlt.le, fun heq => absurd heq hlt.ne⟩
    · obtain rfl : p = (m - 1) + k * 2 ^ 52 := by omega
      have hcast : ((m - 1 : ℕ) : ℚ) + 1 / 2 = m - 1 / 2 := by
        rw [Nat.cast_sub (by omega)]
        norm_num
        ring
      rw [middle_packed (by omega) (by omega), hcast]
      exact ⟨(mul_le_mul_iff_left₀ hpos).mpr h.above.1,
        fun heq => hparity (h.above.2 (mul_right_cancel₀ hpos.ne' heq))⟩
  · rcases Nat.lt_or_ge m (2 ^ 53) with hm53 | hm53
    · rw [middle_packed hm53 hk]
      exact ⟨(mul_le_mul_iff_left₀ hpos).mpr h.below.1,
        fun heq => hparity (h.below.2 (mul_right_cancel₀ hpos.ne' heq))⟩
    · obtain rfl : m = 2 ^ 53 := by omega
      have hlt : q * 2 ^ k < middle (2 ^ 53 + k * 2 ^ 52) := by
        rw [show 2 ^ 53 + k * 2 ^ 52 = 2 ^ 52 + (k + 1) * 2 ^ 52 by omega,
          middle_packed (by omega) (fun _ => le_rfl), pow_succ (2 : ℚ) k]
        have hcarry : q * 2 ^ k < 2 ^ 53 * 2 ^ k := (mul_lt_mul_iff_left₀ hpos).mpr hhigh
        push_cast
        linarith
      exact ⟨hlt.le, fun heq => absurd heq hlt.ne⟩

end PerfGate.Number
