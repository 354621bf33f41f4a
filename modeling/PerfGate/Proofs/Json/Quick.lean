import PerfGate.Proofs.Json.Numerals
import PerfGate.Proofs.Number.Error

/-!
# Quick readings

The quick reading takes the digits that fit a word and multiplies or divides them by a power of
ten. It finds the nearest number if the digits and the power are numbers themselves. Otherwise a
few roundings come together, and what is read is within a small share of what the numeral stands
for.
-/

set_option autoImplicit false

open PerfGate.Number (Rounds signOf value Close Inside Within close_refl step)

namespace PerfGate.Json

/-! ## Digits and powers that are numbers -/

/-- Digits that fit the word are all taken. -/
theorem leadingDigits_eq {m : Nat} {ds : List Char}
    (h : m * 10 ^ ds.length + digitsValue ds < unsignedLimit) :
    leadingDigits m ds = (m * 10 ^ ds.length + digitsValue ds, ds.length) := by
  induction ds generalizing m with
  | nil => simp [leadingDigits, digitsValue]
  | cons d ds ih =>
    have hvalue : m * 10 ^ (d :: ds).length + digitsValue (d :: ds) =
        (m * 10 + (d.toNat - 48)) * 10 ^ ds.length + digitsValue ds := by
      rw [← foldl_digits, ← foldl_digits, List.foldl_cons]
    rw [hvalue] at h ⊢
    have hnext : m * 10 + (d.toNat - 48) < unsignedLimit :=
      ((Nat.le_mul_of_pos_right _ (by positivity)).trans (Nat.le_add_right _ _)).trans_lt h
    rw [leadingDigits, ih h]
    simp [hnext]

theorem leading_eq {n : Numeral}
    (h : digitsValue (n.whole ++ n.fraction.getD []) < unsignedLimit) :
    n.leading = (digitsValue (n.whole ++ n.fraction.getD []),
      n.power - (n.fraction.getD []).length) := by
  rw [digitsValue_append] at h ⊢
  have hwhole : 0 * 10 ^ n.whole.length + digitsValue n.whole < unsignedLimit := by
    rw [Nat.zero_mul, Nat.zero_add]
    exact ((Nat.le_mul_of_pos_right _ (by positivity)).trans (Nat.le_add_right _ _)).trans_lt h
  rw [Numeral.leading, leadingDigits_eq hwhole]
  simp only [Nat.zero_mul, Nat.zero_add, leadingDigits_eq h, Nat.sub_self, Prod.mk.injEq, true_and]
  omega

theorem powerOfTen_exact {e : Nat} (he : e ≤ 22) :
    (powerOfTen e).isFinite = true ∧ Number.value (powerOfTen e) = 10 ^ e := by
  obtain ⟨hfinite, hvalue⟩ := Number.powers_exact
    (show e < Float.exactlyRepresentablePowersOfTen.size from Nat.lt_succ_of_le he)
  have hround : Rounds ((1 : Nat) * 10 ^ e) (powerOfTen e) :=
    Number.exact_rounds false (by decide) he
  rw [Nat.cast_one, one_mul, ← hvalue] at hround
  have hsame := hround.unique (Number.rounds_value (Number.isNaN_of_isFinite hfinite))
    (by rw [hvalue]; positivity)
  rw [hsame]
  exact ⟨hfinite, hvalue⟩

/-- Few digits and a small power are numbers, so that one operation rounds once. -/
theorem quickFloat_eq {m : Nat} {e : Int} (hm : m < 2 ^ 53) (he : e.natAbs ≤ 22) :
    (decimalFloat m e).isFinite = true ∧ quickFloat m e = some (decimalFloat m e) := by
  have hnearest := decimalFloat_rounds (m := m) (e := e) (by omega)
  rw [quickFloat]
  by_cases hzero : m = 0
  · have hword : decimalFloat m e = 0.0 := by rw [decimalFloat, if_pos (.inl hzero)]
    rw [if_pos hzero, hword]
    exact ⟨by decide, rfl⟩
  · have hpos : 0 < m := Nat.pos_of_ne_zero hzero
    obtain ⟨hvalue, hwhole⟩ := (Number.ofNat_rounds m).value_eq_natCast hm
    obtain ⟨hpower, hten⟩ := powerOfTen_exact he
    rw [if_neg hzero]
    rcases lt_or_ge e 0 with hneg | hnonneg
    · obtain ⟨k, rfl⟩ : ∃ k : Nat, e = -k := ⟨(-e).toNat, by omega⟩
      rw [Int.natAbs_neg, Int.natAbs_natCast] at *
      have hround := Number.div_rounds hwhole hpower (by rw [hten]; positivity)
      rw [hvalue, hten, div_eq_mul_inv, ← zpow_natCast, ← zpow_neg] at hround
      have hfinite := Number.div_isFinite hwhole hpower
        (by rw [hten]; exact one_le_pow₀ (by norm_num))
      rw [if_pos hneg, dividedBy, if_pos (he.trans (by decide)),
        ← hround.unique hnearest (by positivity)]
      exact ⟨hfinite, rfl⟩
    · obtain ⟨k, rfl⟩ : ∃ k : Nat, e = k := ⟨e.toNat, by omega⟩
      rw [Int.natAbs_natCast] at *
      have hround := Number.mul_rounds hwhole hpower
      rw [hvalue, hten, ← zpow_natCast] at hround
      have hword : m * 10 ^ k ≤ 1 * 2 ^ 127 := by
        calc m * 10 ^ k ≤ 2 ^ 53 * 10 ^ 22 :=
              Nat.mul_le_mul hm.le (Nat.pow_le_pow_right (by decide) he)
          _ ≤ 1 * 2 ^ 127 := by decide
      have hbound : |(m : ℚ) * 10 ^ (k : Int)| ≤ (1 : Nat) * 2 ^ (((1201 : Nat) : ℤ) - 1074) := by
        rw [abs_of_nonneg (by positivity), zpow_natCast,
          show ((1201 : Nat) : ℤ) - 1074 = (127 : Nat) from rfl, zpow_natCast]
        exact_mod_cast hword
      have hfinite := hround.isFinite_of_le (by omega) (by omega) hbound
      rw [if_neg (by omega), if_neg (by simp only [greatestPower]; omega)]
      simp only [Int.toNat_natCast, hfinite, if_true, ← hround.unique hnearest (by positivity)]
      exact ⟨trivial, trivial⟩

def Numeral.signedExact (n : Numeral) : ℚ :=
  if n.negative then -n.exact else n.exact

theorem signedExact_of_integer {n : Numeral} {i : Int} (h : n.integer? = some i) :
    n.signedExact = i ∧ i.natAbs < 2 ^ 64 := by
  have hlimit : unsignedLimit = 2 ^ 64 := rfl
  have hsigned : signedLimit = 2 ^ 63 := rfl
  obtain ⟨negative, whole, fraction, exponent⟩ := n
  rw [Numeral.integer?] at h
  dsimp only at h
  split_ifs at h with hbroken hnegative hrange hrange
  · obtain ⟨rfl, rfl⟩ : fraction = none ∧ exponent = none := by simpa using hbroken
    obtain rfl := Option.some.inj h
    exact ⟨by simp [Numeral.signedExact, Numeral.exact, Numeral.power, hnegative], by omega⟩
  · obtain ⟨rfl, rfl⟩ : fraction = none ∧ exponent = none := by simpa using hbroken
    obtain rfl := Option.some.inj h
    exact ⟨by simp [Numeral.signedExact, Numeral.exact, Numeral.power, hnegative], by omega⟩

/-! ## Leading digits -/

theorem digitsValue_lt {ds : List Char} (h : ∀ c ∈ ds, isDigit c = true) :
    digitsValue ds < 10 ^ ds.length := by
  induction ds with
  | nil => exact Nat.one_pos
  | cons d ds ih =>
    obtain ⟨hd, hds⟩ := List.forall_mem_cons.mp h
    have hdigit : d.toNat ≤ 57 := by
      simp only [isDigit, Bool.and_eq_true, decide_eq_true_eq] at hd
      exact hd.2
    have hfirst : digitsValue [d] = d.toNat - 48 := Nat.zero_add _
    rw [← List.singleton_append, digitsValue_append, hfirst, List.length_append,
      List.length_singleton, pow_add, pow_one]
    calc (d.toNat - 48) * 10 ^ ds.length + digitsValue ds
        < (d.toNat - 48) * 10 ^ ds.length + 10 ^ ds.length := Nat.add_lt_add_left (ih hds) _
      _ = (d.toNat - 48 + 1) * 10 ^ ds.length := (Nat.succ_mul _ _).symm
      _ ≤ 10 * 10 ^ ds.length := Nat.mul_le_mul_right _ (by omega)

/-- The digits that lead a number on, and what they lead it to. -/
structure Taken (a : Nat) (ds : List Char) (m count : Nat) : Prop where
  count_le : count ≤ ds.length
  value : m = (ds.take count).foldl (fun n d => n * 10 + (d.toNat - 48)) a
  fits : a < unsignedLimit → m < unsignedLimit
  full : count = ds.length ∨ unsignedLimit ≤ m * 10 + 9

theorem leadingDigits_taken {ds : List Char} (h : ∀ c ∈ ds, isDigit c = true) (a : Nat) :
    Taken a ds (leadingDigits a ds).1 (leadingDigits a ds).2 := by
  induction ds generalizing a with
  | nil => exact ⟨le_rfl, rfl, fun h => h, .inl rfl⟩
  | cons d ds ih =>
    obtain ⟨hd, hds⟩ := List.forall_mem_cons.mp h
    have hdigit : d.toNat ≤ 57 := by
      simp only [isDigit, Bool.and_eq_true, decide_eq_true_eq] at hd
      exact hd.2
    rw [leadingDigits]
    by_cases hnext : a * 10 + (d.toNat - 48) < unsignedLimit
    · rw [if_pos hnext]
      obtain ⟨hcount, hvalue, hfits, hfull⟩ := ih hds (a * 10 + (d.toNat - 48))
      exact ⟨Nat.succ_le_succ hcount, hvalue, fun _ => hfits hnext,
        hfull.imp (congrArg Nat.succ) id⟩
    · rw [if_neg hnext]
      refine ⟨Nat.zero_le _, rfl, fun h => h, .inr ?_⟩
      change unsignedLimit ≤ a * 10 + 9
      omega

/-- Two rationals with the same whole part, which is great, are a step apart. -/
theorem close_of_floor {m : Nat} {s q r : ℚ} (hs : 0 < s) (hm : 2 ^ 60 ≤ m) (hq : m * s ≤ q)
    (hq' : q < (m + 1) * s) (hr : m * s ≤ r) (hr' : r < (m + 1) * s) : Close 1 q r := by
  have hgreat : (2 : ℚ) ^ 60 ≤ m := by exact_mod_cast hm
  have hstep : (m + 1) * s ≤ m * s * step ^ 1 := by
    rw [pow_one, mul_right_comm]
    refine mul_le_mul_of_nonneg_right ?_ hs.le
    rw [step, mul_div_assoc', le_div_iff₀ (by norm_num)]
    linarith
  have hpositive : 0 ≤ step ^ 1 := pow_nonneg Number.step_pos.le 1
  exact ⟨hq'.le.trans (hstep.trans (mul_le_mul_of_nonneg_right hr hpositive)),
    hr'.le.trans (hstep.trans (mul_le_mul_of_nonneg_right hq hpositive))⟩

/-- The digits taken are the whole part of all of them. -/
theorem Taken.bounds {a m count : Nat} {ds : List Char} (h : Taken a ds m count)
    (hds : ∀ c ∈ ds, isDigit c = true) :
    m * 10 ^ (ds.length - count) ≤ a * 10 ^ ds.length + digitsValue ds ∧
      a * 10 ^ ds.length + digitsValue ds < (m + 1) * 10 ^ (ds.length - count) := by
  have hdropped : digitsValue (ds.drop count) < 10 ^ (ds.drop count).length :=
    digitsValue_lt fun c hc => hds c (List.mem_of_mem_drop hc)
  have hall := foldl_digits ds a
  rw [← List.take_append_drop count ds, List.foldl_append, ← h.value, foldl_digits,
    List.take_append_drop, List.length_drop] at hall
  rw [List.length_drop] at hdropped
  rw [← hall, Nat.succ_mul]
  exact ⟨Nat.le_add_right _ _, Nat.add_lt_add_left hdropped _⟩

/-- Further digits stay below the next whole number. -/
theorem Taken.start {a m count : Nat} {ds : List Char} (h : Taken a ds m count)
    (hds : ∀ c ∈ ds, isDigit c = true) :
    (a : ℚ) ≤ m / 10 ^ count ∧ (m : ℚ) / 10 ^ count < a + 1 := by
  have htaken : digitsValue (ds.take count) < 10 ^ (ds.take count).length :=
    digitsValue_lt fun c hc => hds c (List.mem_of_mem_take hc)
  have hvalue := h.value
  rw [foldl_digits] at hvalue
  rw [List.length_take, Nat.min_eq_left h.count_le] at hvalue htaken
  have hcast : (m : ℚ) = a * 10 ^ count + digitsValue (ds.take count) := by exact_mod_cast hvalue
  have hlt : (digitsValue (ds.take count) : ℚ) < 10 ^ count := by exact_mod_cast htaken
  have hnonneg : (0 : ℚ) ≤ digitsValue (ds.take count) := Nat.cast_nonneg _
  rw [le_div_iff₀ (by positivity), div_lt_iff₀ (by positivity), hcast]
  constructor <;> linarith

/-- The digits taken, and one more in the last place, have all digits between them. -/
theorem Taken.around {a m count : Nat} {ds : List Char} (h : Taken a ds m count)
    (hds : ∀ c ∈ ds, isDigit c = true) :
    (m : ℚ) / 10 ^ count ≤ a + digitsValue ds / 10 ^ ds.length ∧
      a + digitsValue ds / 10 ^ ds.length < ((m : ℚ) + 1) / 10 ^ count := by
  obtain ⟨hlow, hhigh⟩ := h.bounds hds
  have hlow : (m : ℚ) * 10 ^ (ds.length - count) ≤ a * 10 ^ ds.length + digitsValue ds := by
    exact_mod_cast hlow
  have hhigh : (a : ℚ) * 10 ^ ds.length + digitsValue ds <
      (m + 1) * 10 ^ (ds.length - count) := by
    exact_mod_cast hhigh
  have hpower : (10 : ℚ) ^ ds.length = 10 ^ (ds.length - count) * 10 ^ count := by
    rw [← pow_add, Nat.sub_add_cancel h.count_le]
  have hwhole : (a : ℚ) + digitsValue ds / 10 ^ ds.length =
      (a * 10 ^ ds.length + digitsValue ds) / 10 ^ ds.length := by
    field_simp
  rw [hwhole, div_le_div_iff₀ (by positivity) (by positivity),
    div_lt_div_iff₀ (by positivity) (by positivity)]
  have hpos : (0 : ℚ) < 10 ^ count := by positivity
  constructor
  · calc (m : ℚ) * 10 ^ ds.length = m * 10 ^ (ds.length - count) * 10 ^ count := by
          rw [hpower, mul_assoc]
      _ ≤ _ := mul_le_mul_of_nonneg_right hlow hpos.le
  · calc (a * 10 ^ ds.length + digitsValue ds) * (10 : ℚ) ^ count
        < (m + 1) * 10 ^ (ds.length - count) * 10 ^ count := mul_lt_mul_of_pos_right hhigh hpos
      _ = (m + 1) * 10 ^ ds.length := by rw [hpower, mul_assoc]

theorem two_pow_le_of_full {m : Nat} (h : unsignedLimit ≤ m * 10 + 9) : 2 ^ 60 ≤ m := by
  rw [unsignedLimit] at h
  omega

/-- If all digits before the point are taken, those after it are taken as far as they fit. -/
theorem Taken.fraction_close {m k places : Nat} {ds : List Char} (h : Taken m ds k places)
    (hds : ∀ c ∈ ds, isDigit c = true) :
    Close 1 ((m : ℚ) + digitsValue ds / 10 ^ ds.length) (k / 10 ^ places) := by
  obtain ⟨hlow, hhigh⟩ := h.around hds
  simp only [div_eq_mul_inv] at hlow hhigh ⊢
  have hpos : (0 : ℚ) < (10 ^ places)⁻¹ := by positivity
  rcases h.full with rfl | hfull
  · obtain ⟨hle, hlt⟩ := h.bounds hds
    rw [Nat.sub_self, pow_zero, Nat.mul_one] at hle hlt
    have hsame : k = m * 10 ^ ds.length + digitsValue ds := by omega
    have hvalue : (k : ℚ) * (10 ^ ds.length)⁻¹ = m + digitsValue ds * (10 ^ ds.length)⁻¹ := by
      rw [hsame]
      push_cast
      field_simp
    refine Number.close_of_abs_sub_le (by positivity) ?_
    rw [← hvalue, sub_self, abs_zero]
    positivity
  · refine close_of_floor hpos (two_pow_le_of_full hfull) hlow hhigh le_rfl ?_
    exact mul_lt_mul_of_pos_right (lt_add_one _) hpos

/-- If digits before the point do not fit, those that do stand for almost all. -/
theorem Taken.whole_close {m count k places : Nat} {ds es : List Char} (h : Taken 0 ds m count)
    (hds : ∀ c ∈ ds, isDigit c = true) (hfull : unsignedLimit ≤ m * 10 + 9)
    (hk : Taken m es k places) (hes : ∀ c ∈ es, isDigit c = true) :
    Close 1 ((digitsValue ds : ℚ) + digitsValue es / 10 ^ es.length)
      (k / 10 ^ places * 10 ^ (ds.length - count)) := by
  obtain ⟨hlow, hhigh⟩ := h.bounds hds
  rw [Nat.zero_mul, Nat.zero_add] at hlow hhigh
  obtain ⟨hstart, hend⟩ := hk.start hes
  have hpos : (0 : ℚ) < 10 ^ (ds.length - count) := by positivity
  have hlow : (m : ℚ) * 10 ^ (ds.length - count) ≤ digitsValue ds := by exact_mod_cast hlow
  have hhigh : (digitsValue ds : ℚ) + 1 ≤ (m + 1) * 10 ^ (ds.length - count) := by
    exact_mod_cast hhigh
  have hfraction : (digitsValue es : ℚ) / 10 ^ es.length < 1 := by
    rw [div_lt_one (by positivity)]
    exact_mod_cast digitsValue_lt hes
  have hnonneg : (0 : ℚ) ≤ digitsValue es / 10 ^ es.length := by positivity
  exact close_of_floor hpos (two_pow_le_of_full hfull) (by linarith) (by linarith)
    (mul_le_mul_of_nonneg_right hstart hpos.le) (mul_lt_mul_of_pos_right hend hpos)

section
variable {n : Numeral}

structure Numeral.Proper (n : Numeral) : Prop where
  whole : ∀ c ∈ n.whole, isDigit c = true
  fraction : ∀ c ∈ n.fraction.getD [], isDigit c = true

theorem FractionSpells.digits_getD {fraction : Option (List Char)} {s : List Char}
    (h : FractionSpells fraction s) : ∀ c ∈ fraction.getD [], isDigit c = true := by
  cases h with
  | without => exact List.forall_mem_nil _
  | digits h => exact h.digits

theorem Numeral.Spells.proper {s : List Char} (h : n.Spells s) : n.Proper := by
  cases h with
  | unsigned digits _ hf _ => exact ⟨digits.digits, hf.digits_getD⟩
  | negative digits _ hf _ => exact ⟨digits.digits, hf.digits_getD⟩

theorem Numeral.exact_eq (n : Numeral) :
    n.exact = (digitsValue n.whole + digitsValue (n.fraction.getD []) /
      10 ^ (n.fraction.getD []).length) * 10 ^ n.power := by
  rw [Numeral.exact, digitsValue_append, zpow_sub₀ (by norm_num), zpow_natCast]
  push_cast
  field_simp

/-- The leading digits of a numeral stand for almost all of it. -/
theorem leading_close (h : n.Proper) : Close 1 n.exact (n.leading.1 * 10 ^ n.leading.2) := by
  have hwhole := leadingDigits_taken h.whole 0
  have hfraction := leadingDigits_taken h.fraction (leadingDigits 0 n.whole).1
  rw [Numeral.leading, Numeral.exact_eq]
  dsimp only
  generalize leadingDigits 0 n.whole = first at hwhole hfraction ⊢
  obtain ⟨m, count⟩ := first
  dsimp only at hwhole hfraction ⊢
  generalize leadingDigits m (n.fraction.getD []) = second at hfraction ⊢
  obtain ⟨k, places⟩ := second
  dsimp only at hfraction ⊢
  have hsplit : (k : ℚ) * 10 ^ (((n.whole.length - count : Nat) : ℤ) - places + n.power) =
      k / 10 ^ places * 10 ^ (n.whole.length - count) * 10 ^ n.power := by
    rw [zpow_add₀ (by norm_num), zpow_sub₀ (by norm_num), zpow_natCast, zpow_natCast]
    ring
  rw [hsplit]
  refine Close.mul (j := 0) ?_ (close_refl _) (by positivity) (by positivity) (by positivity)
    (by positivity)
  rcases hwhole.full with rfl | hfull
  · obtain ⟨hlow, hhigh⟩ := hwhole.bounds h.whole
    rw [Nat.sub_self, pow_zero, Nat.zero_mul, Nat.zero_add] at hlow hhigh
    rw [Nat.sub_self, pow_zero, mul_one, show digitsValue n.whole = m by omega]
    exact hfraction.fraction_close h.fraction
  · exact hwhole.whole_close h.whole hfull hfraction h.fraction

theorem leading_lt (h : n.Proper) : n.leading.1 < unsignedLimit :=
  (leadingDigits_taken h.fraction _).fits
    ((leadingDigits_taken h.whole 0).fits (by decide))

end

/-! ## Multiplied or divided -/

theorem ten_pow_308 : (10 : ℚ) ^ 308 = 10 * 10 ^ 307 := by rw [← pow_succ']

theorem inside_of_one_le {q : ℚ} (hlow : 1 ≤ q) (hhigh : q ≤ 10 ^ 308) : Inside q := by
  have hpower : (5 : ℚ) ≤ 10 ^ 307 := le_trans (by norm_num) (pow_le_pow_right₀ (by norm_num)
    (show 1 ≤ 307 by norm_num))
  rw [ten_pow_308] at hhigh
  constructor
  · rw [div_le_iff₀ (by positivity), ten_pow_308]
    generalize (10 : ℚ) ^ 307 = power at hpower
    nlinarith
  · generalize (10 : ℚ) ^ 307 = power at hpower hhigh ⊢
    linarith

theorem powerOfTen_within {e : Nat} (he : e ≤ 308) : Within 1 (10 ^ e) (powerOfTen e) := by
  have hrounds := Number.ofScientific_rounds (m := 1) (e := e) (by omega) (by omega)
  rw [Nat.cast_one, one_mul, zpow_natCast, Int.natAbs_natCast,
    decide_eq_false (by omega)] at hrounds
  refine hrounds.within_one (inside_of_one_le (one_le_pow₀ (by norm_num)) ?_)
  exact pow_le_pow_right₀ (by norm_num) he

theorem cast_le_of_lt_unsignedLimit {m : Nat} (hm : m < unsignedLimit) : (m : ℚ) ≤ 10 ^ 20 := by
  rw [unsignedLimit] at hm
  exact_mod_cast (show m ≤ 10 ^ 20 by omega)

theorem ofNat_within {m : Nat} (hpos : 0 < m) (hm : m < unsignedLimit) :
    Within 1 (m : ℚ) (Float.ofNat m) := by
  have hone : (1 : ℚ) ≤ m := by exact_mod_cast hpos
  refine (Number.ofNat_rounds m).within_one (inside_of_one_le hone ?_)
  exact (cast_le_of_lt_unsignedLimit hm).trans (pow_le_pow_right₀ (by norm_num) (by norm_num))

/-- What is not too small after a division by a power had no great power divided out. -/
theorem power_lt {m e : Nat} (hm : m < unsignedLimit) (hinside : Inside ((m : ℚ) / 10 ^ e)) :
    e < 328 := by
  have hlow := hinside.low
  rw [div_le_div_iff₀ (by positivity) (by positivity)] at hlow
  have hpower : (10 : ℚ) ^ e < 10 ^ 328 := by
    calc (10 : ℚ) ^ e < 5 * 10 ^ e := lt_mul_of_one_lt_left (by positivity) (by norm_num)
      _ ≤ m * 10 ^ 308 := hlow
      _ ≤ 10 ^ 20 * 10 ^ 308 :=
        mul_le_mul_of_nonneg_right (cast_le_of_lt_unsignedLimit hm) (by positivity)
      _ = 10 ^ 328 := by rw [← pow_add]
  exact (pow_lt_pow_iff_right₀ (by norm_num)).mp hpower

theorem power_lt_of_inside {m e : Nat} (hpos : 0 < m) (hinside : Inside ((m : ℚ) * 10 ^ e)) :
    e < 309 := by
  have hone : (1 : ℚ) ≤ m := by exact_mod_cast hpos
  have hpower : (10 : ℚ) ^ e < 10 ^ 309 := by
    calc (10 : ℚ) ^ e ≤ m * 10 ^ e := le_mul_of_one_le_left (by positivity) hone
      _ ≤ 15 * 10 ^ 307 := hinside.high
      _ < 10 ^ 2 * 10 ^ 307 := mul_lt_mul_of_pos_right (by norm_num) (by positivity)
      _ = 10 ^ 309 := by rw [← pow_add]
  exact (pow_lt_pow_iff_right₀ (by norm_num)).mp hpower

/-- A great power is divided out in two steps. -/
theorem dividedBy_within {m e : Nat} (hpos : 0 < m) (hm : m < unsignedLimit)
    (hinside : Inside ((m : ℚ) / 10 ^ e)) :
    ∃ k ≤ 5, Within k ((m : ℚ) / 10 ^ e) (dividedBy 4 (Float.ofNat m) e) := by
  have hmpos : (0 : ℚ) < m := by exact_mod_cast hpos
  have hwhole := ofNat_within hpos hm
  rw [dividedBy]
  by_cases he : e ≤ greatestPower
  · rw [if_pos he]
    exact ⟨3, by omega, hwhole.div (powerOfTen_within he) hmpos (by positivity) hinside (by omega)⟩
  · rw [if_neg he, dividedBy]
    rw [greatestPower, not_le] at he
    have hlt := power_lt hm hinside
    have hrest : e - greatestPower ≤ greatestPower := by
      simp only [greatestPower]
      omega
    rw [if_pos hrest]
    have hsplit : (m : ℚ) / 10 ^ e = m / 10 ^ 308 / 10 ^ (e - 308) := by
      rw [div_div, ← pow_add, Nat.add_sub_cancel' he.le]
    have hfirst : Inside ((m : ℚ) / 10 ^ 308) := by
      constructor
      · exact hinside.low.trans
          (div_le_div_of_nonneg_left hmpos.le (by positivity)
            (pow_le_pow_right₀ (by norm_num) he.le))
      · exact ((div_le_one (by positivity)).mpr ((cast_le_of_lt_unsignedLimit hm).trans
          (pow_le_pow_right₀ (by norm_num) (by norm_num)))).trans
            (one_le_mul_of_one_le_of_one_le (by norm_num) (one_le_pow₀ (by norm_num)))
    have hquotient := hwhole.div (powerOfTen_within le_rfl) hmpos (by positivity) hfirst (by omega)
    rw [hsplit] at hinside ⊢
    exact ⟨5, le_rfl, hquotient.div (powerOfTen_within hrest) (by positivity) (by positivity)
      hinside (by omega)⟩

/-- Digits that fit a word are read quickly with a few roundings. -/
theorem quickFloat_within {m : Nat} {e : Int} (hpos : 0 < m) (hm : m < unsignedLimit)
    (hinside : Inside (m * 10 ^ e)) :
    ∃ x, quickFloat m e = some x ∧ ∃ k ≤ 5, Within k (m * 10 ^ e) x := by
  have hmpos : (0 : ℚ) < m := by exact_mod_cast hpos
  rw [quickFloat, if_neg hpos.ne']
  rcases lt_or_ge e 0 with hneg | hnonneg
  · obtain ⟨k, rfl⟩ : ∃ k : Nat, e = -k := ⟨(-e).toNat, by omega⟩
    rw [if_pos hneg, Int.natAbs_neg, Int.natAbs_natCast]
    rw [zpow_neg, zpow_natCast, ← div_eq_mul_inv] at hinside ⊢
    exact ⟨_, rfl, dividedBy_within hpos hm hinside⟩
  · obtain ⟨k, rfl⟩ : ∃ k : Nat, e = k := ⟨e.toNat, by omega⟩
    rw [zpow_natCast] at hinside ⊢
    have hk : k ≤ 308 := Nat.le_of_lt_succ (power_lt_of_inside hpos hinside)
    have hproduct := (ofNat_within hpos hm).mul (powerOfTen_within hk) hmpos (by positivity) hinside
      (by omega)
    rw [if_neg hnonneg.not_gt, if_neg (by simp only [greatestPower]; omega)]
    simp only [Int.toNat_natCast, hproduct.finite, if_true]
    exact ⟨_, rfl, 3, by omega, hproduct⟩

end PerfGate.Json
