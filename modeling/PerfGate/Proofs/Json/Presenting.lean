import PerfGate.Proofs.Json.Quick

/-!
# Numbers that documents present

A numeral presents the number that is nearest to what it stands for. A short numeral is read
quickly as the number that it presents. What is read for any other numeral in the normal range is
within a small share of the number that it presents.
-/

set_option autoImplicit false

open PerfGate.Number (Rounds signOf value magnitude Close Inside Within)

namespace PerfGate.Json

/-- The document is a numeral, and the number is the finite one that is nearest to it and has its
sign. -/
def Node.Presents (node : Node) (x : Float) : Prop :=
  ∃ n, node = .numeral n ∧ Rounds n.signedExact x ∧ x.isFinite = true ∧
    signOf x = if n.negative then .negative else .positive

/-- A whole number of 64 bits, a zero, or a numeral with few digits and a small power. -/
def Numeral.Short (n : Numeral) : Prop :=
  n.integer?.isSome = true ∨ n.exact = 0 ∨
    digitsValue (n.whole ++ n.fraction.getD []) < 2 ^ 53 ∧
      (n.power - (n.fraction.getD []).length).natAbs ≤ 22

/-- A zero, or a numeral in the range of normal numbers. -/
def Numeral.Ranged (n : Numeral) : Prop :=
  n.exact = 0 ∨ 1 / 10 ^ 307 ≤ n.exact ∧ n.exact ≤ 10 ^ 308

def Presented (kind : Numeral → Prop) (node : Node) (x : Float) : Prop :=
  node.Presents x ∧ ∀ n, node = .numeral n → kind n

structure Near (x y : Float) : Prop where
  finite : y.isFinite = true
  sign : signOf y = signOf x
  share : |value y - value x| ≤ |value x| / 2 ^ 50

/-! ## Signs -/

section
variable {x y : Float} {q : ℚ}

/-- A number is told by its sign and by what it rounds. -/
theorem unique_of_rounds (hx : Rounds q x) (hy : Rounds q y) (hsign : signOf x = signOf y) :
    x = y :=
  Number.eq_of_sign_magnitude hsign
    (le_antisymm (hx.magnitude_le hy le_rfl) (hy.magnitude_le hx le_rfl))

theorem abs_value_neg (hx : x.isFinite = true) : |value (-x)| = |value x| := by
  rw [Number.abs_value, Number.abs_value, (Number.neg_components hx).2]

theorem abs_value_sub (hsign : signOf y = signOf x) :
    |value y - value x| = |(|value y|) - (|value x|)| := by
  cases hs : signOf x with
  | positive =>
    rw [hs] at hsign
    rw [abs_of_nonneg (Number.value_nonneg_of_positive hs),
      abs_of_nonneg (Number.value_nonneg_of_positive hsign)]
  | negative =>
    rw [hs] at hsign
    rw [abs_of_nonpos (Number.value_nonpos_of_negative hs),
      abs_of_nonpos (Number.value_nonpos_of_negative hsign), neg_sub_neg, abs_sub_comm]

theorem near_refl (hx : x.isFinite = true) : Near x x := by
  refine ⟨hx, rfl, ?_⟩
  rw [sub_self, abs_zero]
  positivity

end

/-! ## What is read -/

section
variable {n : Numeral} {x : Float}

theorem Numeral.exact_nonneg (n : Numeral) : 0 ≤ n.exact := by
  rw [Numeral.exact]
  positivity

theorem Numeral.abs_signedExact (n : Numeral) : |n.signedExact| = n.exact := by
  rw [Numeral.signedExact]
  split
  · rw [abs_neg, abs_of_nonneg n.exact_nonneg]
  · exact abs_of_nonneg n.exact_nonneg

theorem Node.Presents.unique {node : Node} {y : Float} (hx : node.Presents x)
    (hy : node.Presents y) : x = y := by
  obtain ⟨n, rfl, hrounds, -, hsign⟩ := hx
  obtain ⟨m, hm, hrounds', -, hsign'⟩ := hy
  obtain rfl := Node.numeral.inj hm
  exact unique_of_rounds hrounds hrounds' (hsign.trans hsign'.symm)

theorem Node.Presents.finite {node : Node} (h : node.Presents x) : x.isFinite = true := by
  obtain ⟨-, -, -, hfinite, -⟩ := h
  exact hfinite

theorem Node.Presents.sign (h : (Node.numeral n).Presents x) :
    signOf x = if n.negative then .negative else .positive := by
  obtain ⟨m, hm, -, -, hsign⟩ := h
  obtain rfl := Node.numeral.inj hm
  exact hsign

def Numeral.withSignOf (n : Numeral) (x : Float) : Float := if n.negative then -x else x

theorem signOf_withSignOf (hfinite : x.isFinite = true) (hsign : signOf x = .positive) :
    signOf (n.withSignOf x) = if n.negative then .negative else .positive := by
  rw [Numeral.withSignOf]
  cases n.negative with
  | false => exact hsign
  | true =>
    rw [if_pos rfl, (Number.neg_components hfinite).1, hsign]
    rfl

theorem withSignOf_isFinite (hfinite : x.isFinite = true) :
    (n.withSignOf x).isFinite = true := by
  rw [Numeral.withSignOf]
  split
  · exact Number.neg_isFinite hfinite
  · exact hfinite

theorem abs_value_withSignOf (hfinite : x.isFinite = true) :
    |value (n.withSignOf x)| = |value x| := by
  rw [Numeral.withSignOf]
  split
  · exact abs_value_neg hfinite
  · rfl

/-- A number without a sign that rounds the numeral without its sign. -/
theorem presents_withSignOf (hrounds : Rounds n.exact x) (hfinite : x.isFinite = true)
    (hsign : signOf x = .positive) : (Node.numeral n).Presents (n.withSignOf x) := by
  refine ⟨n, rfl, ?_, withSignOf_isFinite hfinite, signOf_withSignOf hfinite hsign⟩
  rw [Numeral.signedExact, Numeral.withSignOf]
  split
  · exact hrounds.neg hfinite
  · exact hrounds

/-- A decimal presents the number that it is rounded to. -/
theorem presents_nearest (hmoderate : n.power - (n.fraction.getD []).length ≤ 400)
    (hfinite : n.nearest.isFinite = true) :
    (Node.numeral n).Presents (n.withSignOf n.nearest) :=
  presents_withSignOf (decimalFloat_rounds hmoderate) hfinite (decimalFloat_positive hmoderate)

/-- What is read for a numeral that is no whole number of 64 bits. -/
theorem isReal_of_quickFloat (hinteger : n.integer? = none)
    (hquick : quickFloat n.leading.1 n.leading.2 = some x) :
    Node.IsReal .quick (.numeral n) (n.withSignOf x) := by
  refine ⟨n, .real (n.withSignOf x), rfl, ?_, rfl⟩
  simp only [Numeral.numberBy, hinteger, Numeral.float?, hquick, Option.map_some]
  rfl

theorem negative_of_integer {i : Int} (h : n.integer? = some i) : n.negative = true ↔ i < 0 := by
  obtain ⟨negative, whole, fraction, exponent⟩ := n
  rw [Numeral.integer?] at h
  dsimp only at h ⊢
  split_ifs at h with hbroken hnegative hrange hrange
  · obtain rfl := Option.some.inj h
    exact iff_of_true hnegative (by omega)
  · obtain rfl := Option.some.inj h
    exact iff_of_false hnegative (by omega)

theorem presents_of_integer {i : Int} (h : n.integer? = some i) :
    (Node.numeral n).Presents (Float.ofInt i) := by
  obtain ⟨hexact, hword⟩ := signedExact_of_integer h
  have hrounds := Number.ofInt_rounds hword
  refine ⟨n, rfl, hexact ▸ hrounds, Number.ofInt_isFinite hword, ?_⟩
  rcases lt_trichotomy i 0 with hneg | rfl | hpos
  · rw [if_pos ((negative_of_integer h).mpr hneg)]
    exact hrounds.negative (by exact_mod_cast hneg)
  · rw [if_neg (mt (negative_of_integer h).mp (lt_irrefl 0))]
    rfl
  · rw [if_neg (mt (negative_of_integer h).mp hpos.not_gt)]
    exact hrounds.positive (by exact_mod_cast hpos)

theorem Numeral.Short.quick (h : n.Short) (hinteger : n.integer? = none) :
    ∃ x, quickFloat n.leading.1 n.leading.2 = some x ∧ Rounds n.exact x ∧ x.isFinite = true ∧
      signOf x = .positive := by
  rcases h with hsome | hzero | ⟨hdigits, hpower⟩
  · rw [hinteger] at hsome
    exact absurd hsome Bool.false_ne_true
  · have hdigits : digitsValue (n.whole ++ n.fraction.getD []) = 0 := by
      rw [Numeral.exact] at hzero
      exact_mod_cast (mul_eq_zero.mp hzero).resolve_right (zpow_ne_zero _ (by norm_num))
    rw [leading_eq (hdigits.trans_lt (by decide)), hdigits, hzero]
    refine ⟨0.0, if_pos rfl, Number.rounds_zero le_rfl (half_pos Number.least_pos), rfl, rfl⟩
  · obtain ⟨hfinite, hquick⟩ := quickFloat_eq hdigits hpower
    rw [leading_eq (hdigits.trans (by decide))]
    exact ⟨_, hquick, decimalFloat_rounds (by omega), hfinite, decimalFloat_positive (by omega)⟩

/-- A short numeral is read as the number that it presents. -/
theorem Numeral.Short.reads (h : n.Short) :
    ∃ y, Node.IsReal .quick (.numeral n) y ∧ (Node.numeral n).Presents y := by
  cases hinteger : n.integer? with
  | some i =>
    exact ⟨_, ⟨n, _, rfl, numberBy_of_integer hinteger _, rfl⟩, presents_of_integer hinteger⟩
  | none =>
    obtain ⟨x, hquick, hrounds, hfinite, hsign⟩ := h.quick hinteger
    exact ⟨_, isReal_of_quickFloat hinteger hquick, presents_withSignOf hrounds hfinite hsign⟩

/-- A share that is lost leaves a normal number normal. -/
theorem inside_of_close {q r : ℚ} (hlow : 1 / 10 ^ 307 ≤ q) (hhigh : q ≤ 10 ^ 308)
    (h : Close 1 q r) (hr : 0 ≤ r) : Inside r := by
  have hq : 0 ≤ q := le_trans (by positivity) hlow
  obtain ⟨hmore, hless⟩ := abs_sub_le_iff.mp (h.abs_sub_le (by omega) hq hr)
  rw [ten_pow_308] at hhigh
  constructor
  · rw [ten_pow_308, div_mul_eq_div_div]
    rw [div_eq_mul_inv] at hlow ⊢
    have hpower : (0 : ℚ) < (10 ^ 307)⁻¹ := by positivity
    generalize ((10 : ℚ) ^ 307)⁻¹ = power at hlow hpower ⊢
    linarith
  · have hpower : (0 : ℚ) < 10 ^ 307 := by positivity
    generalize (10 : ℚ) ^ 307 = power at hhigh hpower ⊢
    linarith

/-- The digits that are read quickly, and their power, are within a few steps of the numeral. -/
theorem quick_within (hlow : 1 / 10 ^ 307 ≤ n.exact) (hhigh : n.exact ≤ 10 ^ 308)
    (hproper : n.Proper) :
    ∃ x, quickFloat n.leading.1 n.leading.2 = some x ∧ ∃ k ≤ 6, Within k n.exact x := by
  have hclose := leading_close hproper
  have hinside := inside_of_close hlow hhigh hclose (by positivity)
  have hpos : 0 < n.leading.1 := by
    by_contra! hzero
    have hnone := hinside.pos
    rw [Nat.le_zero.mp hzero, Nat.cast_zero, zero_mul] at hnone
    exact lt_irrefl _ hnone
  obtain ⟨x, hquick, k, hk, hwithin⟩ := quickFloat_within hpos (leading_lt hproper) hinside
  exact ⟨x, hquick, 1 + k, by omega, hwithin.finite, hclose.trans hwithin.close⟩

/-- The number that a numeral in the normal range presents is one step away. -/
theorem presents_close (hlow : 1 / 10 ^ 307 ≤ n.exact) (h : (Node.numeral n).Presents x) :
    Close 1 n.exact |value x| := by
  obtain ⟨m, hm, hrounds, hfinite, -⟩ := h
  obtain rfl := Node.numeral.inj hm
  have hnormal : Number.leastNormal ≤ n.exact := by
    refine Number.leastNormal_le.trans (le_trans ?_ hlow)
    rw [ten_pow_308, div_mul_eq_div_div]
    exact div_le_div_of_nonneg_right (by norm_num) (by positivity)
  have hshare := hrounds.abs_sub_le (n.abs_signedExact ▸ hnormal) hfinite
  rw [n.abs_signedExact] at hshare
  exact Number.close_of_abs_sub_le n.exact_nonneg hshare

/-- A numeral in the normal range is read as a number near the one that it presents. -/
theorem Numeral.Ranged.reads (h : n.Ranged) (hproper : n.Proper) :
    ∃ y, Node.IsReal .quick (.numeral n) y ∧ ∀ x, (Node.numeral n).Presents x → Near x y := by
  by_cases hshort : n.Short
  · obtain ⟨y, hreal, hpresents⟩ := hshort.reads
    exact ⟨y, hreal, fun x hx => hpresents.unique hx ▸ near_refl hpresents.finite⟩
  · obtain ⟨hinteger, hzero, -⟩ : ¬ n.integer?.isSome = true ∧ n.exact ≠ 0 ∧ _ := by
      simpa only [Numeral.Short, not_or] using hshort
    obtain ⟨hlow, hhigh⟩ := h.resolve_left hzero
    obtain ⟨y, hquick, k, hk, hwithin⟩ := quick_within hlow hhigh hproper
    have hpos : 0 < value y := hwithin.pos (lt_of_lt_of_le (by positivity) hlow)
    have hsign : signOf y = .positive := by
      cases hs : signOf y with
      | positive => rfl
      | negative => exact absurd (Number.value_nonpos_of_negative hs) hpos.not_ge
    refine ⟨_, isReal_of_quickFloat (Option.not_isSome_iff_eq_none.mp hinteger) hquick,
      fun x hx => ?_⟩
    have hsame : signOf (n.withSignOf y) = signOf x :=
      (signOf_withSignOf hwithin.finite hsign).trans hx.sign.symm
    have hclose : Close (1 + k) |value x| (value y) :=
      (presents_close hlow hx).symm.trans hwithin.close
    refine ⟨withSignOf_isFinite hwithin.finite, hsame, ?_⟩
    rw [abs_value_sub hsame, abs_value_withSignOf hwithin.finite, abs_of_pos hpos]
    exact hclose.abs_sub_le (by omega) (abs_nonneg _) hpos.le

theorem Presented.short {node : Node} (h : Presented Numeral.Short node x) :
    node.IsReal .quick x := by
  obtain ⟨hpresents, hkind⟩ := h
  obtain ⟨n, rfl, -⟩ := id hpresents
  obtain ⟨y, hreal, hy⟩ := (hkind n rfl).reads
  exact hpresents.unique hy ▸ hreal

theorem Presented.ranged {node : Node} {s : List Char} (h : Presented Numeral.Ranged node x)
    (hspells : node.Spells s) : ∃ y, node.IsReal .quick y ∧ Near x y := by
  obtain ⟨hpresents, hkind⟩ := h
  obtain ⟨n, rfl, -⟩ := id hpresents
  cases hspells with
  | numeral hn =>
    obtain ⟨y, hreal, hnear⟩ := (hkind n rfl).reads hn.proper
    exact ⟨y, hreal, hnear x hpresents⟩

end

end PerfGate.Json
