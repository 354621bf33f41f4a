import PerfGate.Proofs.Decimal.Shortest
import PerfGate.Proofs.Json.Printing
import PerfGate.Proofs.Number.Scientific

/-!
# Numerals and what they stand for

The text of a number is a numeral whose digits, point and exponent together stand for the
shortest decimal of the number, whichever of the three layouts it has. The nearest number to
that decimal is the number itself. A count is printed as the digits of a whole number.
-/

set_option autoImplicit false

open PerfGate.Decimal (Scaled Style digitsOf zeros)
open PerfGate.Number (Rounds signOf magnitude)

namespace PerfGate.Json

/-! ## Digits -/

theorem foldl_digits (ds : List Char) (a : Nat) :
    ds.foldl (fun n d => n * 10 + (d.toNat - 48)) a = a * 10 ^ ds.length + digitsValue ds := by
  rw [digitsValue]
  induction ds generalizing a with
  | nil => simp
  | cons d ds ih =>
    rw [List.foldl_cons, List.foldl_cons, ih, ih (0 * 10 + _), List.length_cons, pow_succ]
    ring

theorem digitsValue_append (ds es : List Char) :
    digitsValue (ds ++ es) = digitsValue ds * 10 ^ es.length + digitsValue es := by
  rw [digitsValue, List.foldl_append, foldl_digits es]
  rfl

@[simp] theorem digitsValue_zeros (k : Nat) : digitsValue (zeros k) = 0 := by
  induction k with
  | zero => rfl
  | succ k ih =>
    rw [zeros, List.replicate_succ, ← List.singleton_append, digitsValue_append, ← zeros, ih,
      Nat.add_zero]
    exact Nat.zero_mul _

@[simp] theorem digitsValue_digitsOf (n : Nat) : digitsValue (digitsOf n) = n := by
  have hfold := Nat.ofDigitChars_ten_toDigits (n := n)
  simp only [Nat.ofDigitChars, Nat.mul_comm 10] at hfold
  exact hfold

theorem isDigit_of_mem_digitsOf {n : Nat} {c : Char} (h : c ∈ digitsOf n) : isDigit c = true :=
  Nat.isDigit_of_mem_toDigits (by decide) (by decide) h

theorem digits_digitsOf (n : Nat) : Digits (digitsOf n) :=
  ⟨Nat.toDigits_ne_nil, fun _ => isDigit_of_mem_digitsOf⟩

theorem isDigit_of_mem_zeros {k : Nat} {c : Char} (h : c ∈ zeros k) : isDigit c = true := by
  rw [List.eq_of_mem_replicate h]
  rfl

/-- Only zero itself starts with a zero. -/
theorem digitsOf_head {n : Nat} (h : (digitsOf n).head? = some '0') : n = 0 := by
  induction n using Nat.strong_induction_on with
  | _ n ih =>
    rw [digitsOf, Nat.toDigits_eq_if (by decide)] at h
    split at h
    next hsmall =>
      interval_cases n <;> first | rfl | exact absurd h (by decide)
    next hbig =>
      rw [List.head?_append_of_ne_nil _ Nat.toDigits_ne_nil] at h
      have hzero := ih (n / 10) (by omega) h
      omega

/-! ## What numerals stand for -/

/-- A decimal becomes the number that is nearest to it. -/
theorem decimalFloat_rounds {m : Nat} {e : Int} (he : e ≤ 400) :
    Rounds (m * 10 ^ e) (decimalFloat m e) := by
  rw [decimalFloat]
  split
  next hvanishes =>
    rcases hvanishes with rfl | hlow
    · rw [Nat.cast_zero, zero_mul]
      exact Number.rounds_zero le_rfl (half_pos Number.least_pos)
    · exact Number.rounds_zero (by positivity) (Number.scaled_lt_least hlow)
  next hscaled =>
    rw [not_or, not_lt] at hscaled
    rw [if_neg (not_lt.mpr he)]
    exact Number.ofScientific_rounds hscaled.2 he

theorem decimalFloat_positive {m : Nat} {e : Int} (he : e ≤ 400) :
    signOf (decimalFloat m e) = .positive := by
  rcases Nat.eq_zero_or_pos m with rfl | hpos
  · rw [decimalFloat, if_pos (.inl rfl), signOf, if_pos (by decide)]
  · exact (decimalFloat_rounds he).positive (by positivity)

/-- The number that a numeral stands for without its sign. -/
def Numeral.exact (n : Numeral) : ℚ :=
  digitsValue (n.whole ++ n.fraction.getD []) * 10 ^ (n.power - (n.fraction.getD []).length)

structure Numeral.StandsFor (n : Numeral) (q : ℚ) : Prop where
  broken : (n.fraction.isSome || n.exponent.isSome) = true
  exact : n.exact = q
  moderate : n.power - (n.fraction.getD []).length ≤ 400

theorem Numeral.StandsFor.rounds {n : Numeral} {q : ℚ} (h : n.StandsFor q) :
    Rounds q n.nearest :=
  h.exact ▸ decimalFloat_rounds h.moderate

theorem Numeral.StandsFor.positive {n : Numeral} {q : ℚ} (h : n.StandsFor q) :
    signOf n.nearest = .positive :=
  decimalFloat_positive h.moderate

def Numeral.withSign (negative : Bool) (n : Numeral) : Numeral :=
  { n with negative := negative }

theorem Numeral.Spells.withSign {n : Numeral} {s : List Char} (h : n.Spells s)
    (hn : n.negative = false) (negative : Bool) :
    (n.withSign negative).Spells (Decimal.signed negative s) := by
  cases h with
  | unsigned digits zero hf he =>
    cases negative with
    | false => exact .unsigned digits zero hf he
    | true => exact .negative digits zero hf he
  | negative => cases hn

theorem Numeral.Spells.pointed {whole fraction : List Char} (digits : Digits whole)
    (zero : whole.head? = some '0' → whole = ['0']) (hf : Digits fraction) :
    Numeral.Spells ⟨false, whole, some fraction, none⟩ (whole ++ '.' :: fraction) := by
  have h := Numeral.Spells.unsigned digits zero (.digits hf) .without
  rwa [List.append_nil] at h

/-! ## The layouts of a decimal -/

def PrintsDecimal (s : List Char) (q : ℚ) : Prop :=
  ∃ n : Numeral, n.negative = false ∧ n.Spells s ∧ n.StandsFor q

/-- A whole number in full, with a zero after the point. -/
theorem printsDecimal_whole {n e : Nat} (hzero : n = 0 → e = 0) :
    PrintsDecimal (digitsOf n ++ zeros e ++ ['.', '0']) (n * 10 ^ e) := by
  have hwhole : Digits (digitsOf n ++ zeros e) :=
    ⟨List.append_ne_nil_of_left_ne_nil Nat.toDigits_ne_nil _, fun c hc =>
      (List.mem_append.mp hc).elim isDigit_of_mem_digitsOf isDigit_of_mem_zeros⟩
  have hdigits : digitsValue (digitsOf n ++ zeros e ++ ['0']) = n * 10 ^ e * 10 := by
    rw [digitsValue_append, digitsValue_append, digitsValue_zeros, digitsValue_digitsOf]
    simp [zeros, digitsValue]
  refine ⟨⟨false, digitsOf n ++ zeros e, some ['0'], none⟩, rfl,
    .pointed hwhole ?_ (digits_digitsOf 0), rfl, ?_, ?_⟩
  · intro hhead
    rw [List.head?_append_of_ne_nil _ (digits_digitsOf n).some_digit] at hhead
    obtain rfl := digitsOf_head hhead
    rw [hzero rfl]
    rfl
  · simp only [Numeral.exact, Option.getD_some, hdigits, Numeral.power, List.length_singleton]
    push_cast
    rw [zpow_neg_one]
    field_simp
  · simp [Numeral.power]

/-- A number in full, with all of its places after the point. -/
theorem printsDecimal_places {n places : Nat} (hpos : 0 < places) :
    let padded := zeros (places + 1 - (digitsOf n).length) ++ digitsOf n
    PrintsDecimal (padded.take (padded.length - places) ++
      '.' :: padded.drop (padded.length - places)) (n * 10 ^ (-places : Int)) := by
  intro padded
  have hlength : padded.length = max (places + 1) (digitsOf n).length := by
    simp only [padded, zeros, List.length_append, List.length_replicate]
    omega
  have hdigits : ∀ c ∈ padded, isDigit c = true := fun c hc =>
    (List.mem_append.mp hc).elim isDigit_of_mem_zeros isDigit_of_mem_digitsOf
  have hvalue : digitsValue padded = n := by simp [padded, digitsValue_append]
  have hwhole : (padded.take (padded.length - places)).length = padded.length - places := by
    rw [List.length_take]
    omega
  have hplaces : (padded.drop (padded.length - places)).length = places := by
    rw [List.length_drop]
    omega
  refine ⟨⟨false, padded.take (padded.length - places),
    some (padded.drop (padded.length - places)), none⟩, rfl,
    .pointed ⟨?_, fun c hc => hdigits c (List.mem_of_mem_take hc)⟩ ?_
      ⟨?_, fun c hc => hdigits c (List.mem_of_mem_drop hc)⟩, rfl, ?_, ?_⟩
  · exact List.ne_nil_of_length_pos (by omega)
  · -- Either the zeros fill up to one digit before the point, or there are none.
    intro hhead
    rcases Nat.lt_or_ge places (digitsOf n).length with hlong | hshort
    · have hpadded : padded = digitsOf n := by
        simp only [padded, show places + 1 - (digitsOf n).length = 0 by omega]
        rfl
      rw [List.head?_take, if_neg (by omega), hpadded] at hhead
      obtain rfl := digitsOf_head hhead
      change places < 1 at hlong
      omega
    · obtain ⟨k, hk⟩ : ∃ k, places + 1 - (digitsOf n).length = k + 1 :=
        ⟨places - (digitsOf n).length, by omega⟩
      rw [show padded.length - places = 1 by omega]
      simp only [padded, hk, zeros, List.replicate_succ, List.cons_append, List.take_succ_cons,
        List.take_zero]
  · exact List.ne_nil_of_length_pos (by omega)
  · simp only [Numeral.exact, Option.getD_some, List.take_append_drop, hvalue, hplaces,
      Numeral.power, zero_sub]
  · simp only [Numeral.power, Option.getD_some, hplaces]
    omega

theorem exponentSpells (e : Int) :
    ExponentSpells (some (decide (e < 0), digitsOf e.natAbs))
      ('e' :: (if e < 0 then '-' else '+') :: digitsOf e.natAbs) := by
  split
  next h =>
    rw [decide_eq_true h]
    exact .minus (.inl rfl) (digits_digitsOf _)
  next h =>
    rw [decide_eq_false h]
    exact .plus (.inl rfl) (digits_digitsOf _)

theorem power_exponent (e : Int) (whole : List Char) (fraction : Option (List Char)) :
    Numeral.power ⟨false, whole, fraction, some (decide (e < 0), digitsOf e.natAbs)⟩ = e := by
  simp only [Numeral.power, digitsValue_digitsOf, decide_eq_true_eq]
  split <;> omega

/-- One digit before the point, and an exponent. -/
theorem printsDecimal_scientific {n : Nat} {e : Int} (he : e ≤ 400) :
    PrintsDecimal (Style.scientific (digitsOf n) (e + ((digitsOf n).length - 1 : Nat)))
      (n * 10 ^ e) := by
  have hall := digits_digitsOf n
  have hvalue := digitsValue_digitsOf n
  generalize hfirst : e + ((digitsOf n).length - 1 : Nat) = first
  generalize digitsOf n = d at *
  match d with
  | [] => exact absurd rfl hall.some_digit
  | [c] =>
    obtain rfl : e = first := by simpa using hfirst
    refine ⟨_, rfl, .unsigned hall (fun hhead => ?_) .without (exponentSpells e), rfl, ?_, ?_⟩
    · exact congrArg (fun c => [c]) (Option.some.inj hhead)
    · simp only [Numeral.exact, Option.getD_none, List.append_nil, hvalue, power_exponent,
        List.length_nil, Nat.cast_zero, sub_zero]
    · simp only [Option.getD_none, power_exponent, List.length_nil, Nat.cast_zero, sub_zero]
      exact he
  | c :: c' :: rest =>
    have hplaces : first - ((c' :: rest).length : Nat) = e := by
      rw [← hfirst, List.length_cons, Nat.add_sub_cancel]
      omega
    have hwhole : Digits [c] :=
      ⟨by simp, fun x hx => hall.digits x (List.mem_cons.mpr (.inl (List.mem_singleton.mp hx)))⟩
    have hfraction : Digits (c' :: rest) :=
      ⟨by simp, fun x hx => hall.digits x (List.mem_cons_of_mem c hx)⟩
    refine ⟨_, rfl, .unsigned hwhole (fun hhead => ?_) (.digits hfraction) (exponentSpells first),
      rfl, ?_, ?_⟩
    · exact congrArg (fun c => [c]) (Option.some.inj hhead)
    · simp only [Numeral.exact, Option.getD_some, List.singleton_append, hvalue, power_exponent,
        hplaces]
    · simp only [Option.getD_some, power_exponent, hplaces]
      exact he

/-- Whatever the layout of a decimal is, its text stands for it. -/
theorem digits_printsDecimal {n : Scaled} (hzero : n.digits = 0 → n.exponent = 0)
    (hexponent : n.exponent ≤ 400) : PrintsDecimal (Decimal.json.digits n) n.value := by
  obtain ⟨digits, e⟩ := n
  simp only [Style.digits, Style.full, Scaled.value, Decimal.json, if_true] at *
  split
  next =>
    split
    next hnonneg =>
      obtain ⟨k, rfl⟩ : ∃ k : Nat, e = k := ⟨e.toNat, by omega⟩
      rw [zpow_natCast]
      exact printsDecimal_whole fun h => by exact_mod_cast hzero h
    next hneg =>
      obtain ⟨k, rfl⟩ : ∃ k : Nat, e = -k := ⟨(-e).toNat, by omega⟩
      rw [neg_neg, Int.toNat_natCast]
      exact printsDecimal_places (by omega)
  next => exact printsDecimal_scientific hexponent

/-! ## Numbers read back -/

theorem Numeral.StandsFor.numberBy {n : Numeral} {q : ℚ} (h : n.StandsFor q)
    (hfinite : n.nearest.isFinite = true) (negative : Bool) :
    (n.withSign negative).numberBy .nearest =
      .ok (.real (if negative then -n.nearest else n.nearest)) := by
  have hnone : (n.withSign negative).integer? = none := if_pos h.broken
  have hnearest : (n.withSign negative).nearest = n.nearest := rfl
  simp only [Numeral.numberBy, hnone, Numeral.float?, hnearest, hfinite, if_true, Option.map_some]
  rfl

/-- A finite number is printed as a numeral that is read as this number. -/
theorem real_readable {x : Float} (hx : x.isFinite = true) :
    (Number.real x).Readable .nearest := by
  obtain ⟨negative, m, k, hword, hparts⟩ := Decimal.ofFloat_finite hx
  have hchars : numberChars (Number.real x) = Decimal.signed negative
      (Decimal.json.digits (Decimal.shortest .even m ((k : Int) - 1074))) := by
    rw [numberChars, numberText, hword]
    exact String.toList_ofList
  obtain ⟨hexponent, -⟩ := Decimal.shortest_nearest .even hparts.below hparts.normal
  obtain ⟨n, hn, hspells, hstands⟩ := digits_printsDecimal
    (Decimal.shortest_zero .even hparts.below hparts.normal) (hexponent.trans (by decide))
  have hmagnitude := Decimal.magnitude_of_rounds hx hparts hstands.rounds
  have hfinite : n.nearest.isFinite = true := by
    rw [Number.isFinite_iff, hmagnitude]
    exact Number.isFinite_iff.mp hx
  refine ⟨n.withSign negative, hchars ▸ hspells.withSign hn negative, ?_⟩
  rw [hstands.numberBy hfinite]
  congr 2
  cases negative with
  | false => exact Number.eq_of_sign_magnitude (hstands.positive.trans hparts.sign.symm) hmagnitude
  | true =>
    obtain ⟨hsign, hopposite⟩ := Number.neg_components hfinite
    rw [hstands.positive] at hsign
    exact Number.eq_of_sign_magnitude (hsign.trans hparts.sign.symm) (hopposite.trans hmagnitude)

theorem numberText_of_not_finite {x : Float} (hx : ¬ x.isFinite = true) :
    numberText x = "null" := by
  rw [numberText]
  rcases Decimal.ofFloat_exceptional hx with h | ⟨negative, h⟩ <;> rw [h]

/-- What is printed as a numeral is finite. -/
theorem isFinite_of_readable {r : Rounding} {x : Float} (h : (Number.real x).Readable r) :
    x.isFinite = true := by
  by_contra hx
  obtain ⟨n, hspells, -⟩ := h
  obtain ⟨c, more, hchars, hc⟩ := hspells.head
  rw [numberChars, numberText_of_not_finite hx] at hchars
  obtain ⟨rfl, -⟩ : 'n' = c ∧ ['u', 'l', 'l'] = more := List.cons.inj hchars
  exact absurd hc (by decide)

theorem count_spells (n : Nat) :
    Numeral.Spells ⟨false, digitsOf n, none, none⟩ (numberChars (Number.integer n)) := by
  have hchars : numberChars (Number.integer n) = digitsOf n := String.toList_ofList
  have hspells := Numeral.Spells.unsigned (digits_digitsOf n)
    (fun h => by rw [digitsOf_head h]; rfl) .without .without
  rw [List.append_nil, List.append_nil] at hspells
  exact hchars ▸ hspells

/-- A count of at most 64 bits is printed as a numeral that is read as this count. -/
theorem count_readable (r : Rounding) {n : Nat} (hn : n < unsignedLimit) :
    (Number.integer n).Readable r := by
  have hinteger : Numeral.integer? ⟨false, digitsOf n, none, none⟩ = some (n : Int) := by
    simp [Numeral.integer?, hn]
  refine ⟨⟨false, digitsOf n, none, none⟩, count_spells n, ?_⟩
  rw [Numeral.numberBy, hinteger]

end PerfGate.Json
