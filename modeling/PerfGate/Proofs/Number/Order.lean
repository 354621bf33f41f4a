import PerfGate.Decimal.Binary
import Mathlib

/-!
# The order of binary64 numbers

A word is a sign and a magnitude, and a magnitude is a significand above an exponent field. As
the field holds no more than its own share of the word, the order of numbers is the order of
signed magnitudes. All comparisons, and the classes of words, are read off that one integer.
-/

set_option autoImplicit false

namespace PerfGate.Number

open Float.Model (UnpackedFloat Format)
open Float.Model.UnpackedFloat

/-- The magnitude of the two infinities; greater ones belong to no number. -/
def infinityWord : Nat := 0x7ff0000000000000

def magnitude (x : Float) : Nat := x.toBits.toNat % Decimal.Binary.signBit

def signOf (x : Float) : Sign :=
  if x.toBits.toNat < Decimal.Binary.signBit then .positive else .negative

/-- The signed magnitude of a word; both zeros have the place zero. -/
def place (x : Float) : Int := (signOf x).apply (magnitude x)

theorem eq_of_toBits {x y : Float} (h : x.toBits = y.toBits) : x = y := by
  obtain ⟨⟨v, _⟩⟩ := x
  obtain ⟨⟨w, _⟩⟩ := y
  obtain rfl : v = w := h
  rfl

/-! ## Words and what they unpack to -/

inductive Reads (s : Sign) : Nat → UnpackedFloat → Prop where
  | undefined {g : Nat} (h : infinityWord < g) : Reads s g .notANumber
  | infinite : Reads s infinityWord (.infinity s)
  | zero : Reads s 0 (.zero s)
  | finite {g m : Nat} {e : Int} {h : 0 < m} (k : Nat) (hg : g = m + k * 2 ^ 52)
      (he : e = k - 1074) (hm : m < 2 ^ 53) (hk : k ≤ 2045) (normal : 0 < k → 2 ^ 52 ≤ m) :
      Reads s g (.finite s m e h)

theorem exponent_toNat (w : BitVec 64) :
    (@unpackExponent .binary64 w).toNat = w.toNat / 2 ^ 52 % 2048 := by
  simp [unpackExponent, Nat.shiftRight_eq_div_pow]

theorem mantissa_toNat (w : BitVec 64) :
    (@unpackMantissa .binary64 w).toNat = w.toNat % 2 ^ 52 := by
  simp [unpackMantissa]

theorem sign_ofBits (w : BitVec 64) :
    Sign.ofBitVec (@unpackSign .binary64 w) =
      if w.toNat < Decimal.Binary.signBit then .positive else .negative := by
  have hlt : w.toNat < 2 ^ 64 := w.isLt
  have ht : (@unpackSign .binary64 w).toNat = w.toNat / 2 ^ 63 % 2 := by
    simp [unpackSign, Nat.shiftRight_eq_div_pow]
  have hz : @unpackSign .binary64 w = 0#1 ↔ w.toNat < Decimal.Binary.signBit := by
    rw [← BitVec.toNat_inj, ht, Decimal.Binary.signBit]
    change w.toNat / 2 ^ 63 % 2 = 0 ↔ _
    omega
  simp [Sign.ofBitVec, hz]

/-- The hidden bit stands above the fraction. -/
theorem significand_toNat (m : BitVec 52) : (1#1 ++ m).toNat = 2 ^ 52 + m.toNat := by
  rw [BitVec.toNat_append, Nat.shiftLeft_eq]
  change 1 * 2 ^ 52 ||| _ = _
  rw [Nat.or_comm, one_mul, Nat.or_two_pow_eq_add_of_lt m.isLt]
  omega

section
variable {w : BitVec 64}

/-- The greatest exponent field belongs to the infinities and to what is no number. -/
theorem reads_full (h : w.toNat / 2 ^ 52 % 2048 = 2047) :
    Reads (Sign.ofBitVec (@unpackSign .binary64 w)) (w.toNat % 2 ^ 63) (unpack .binary64 w) := by
  have hword : infinityWord = 2047 * 2 ^ 52 := rfl
  have hm := mantissa_toNat w
  have hfull : @unpackExponent .binary64 w = -1#11 :=
    BitVec.eq_of_toNat_eq ((exponent_toNat w).trans h)
  unfold unpack
  simp only
  rw [if_pos hfull]
  split
  next empty =>
    have hempty : w.toNat % 2 ^ 52 = 0 := by rw [← hm, empty]; rfl
    have hinfinite : w.toNat % 2 ^ 63 = infinityWord := by omega
    rw [hinfinite]
    exact .infinite
  next marked =>
    have hmarked : w.toNat % 2 ^ 52 ≠ 0 := fun h => marked (BitVec.eq_of_toNat_eq (hm.trans h))
    exact .undefined (by omega)

/-- The least exponent field belongs to the zeros and to the numbers without the hidden bit. -/
theorem reads_least (h : w.toNat / 2 ^ 52 % 2048 = 0) :
    Reads (Sign.ofBitVec (@unpackSign .binary64 w)) (w.toNat % 2 ^ 63) (unpack .binary64 w) := by
  have hm := mantissa_toNat w
  have hleast : @unpackExponent .binary64 w = 0#11 :=
    BitVec.eq_of_toNat_eq ((exponent_toNat w).trans h)
  have hbelow : @unpackExponent .binary64 w ≠ -1#11 := by rw [hleast]; decide
  unfold unpack
  simp only
  rw [if_neg hbelow, if_pos hleast]
  split
  next empty =>
    have hempty : w.toNat % 2 ^ 52 = 0 := by rw [← hm, empty]; rfl
    have hzero : w.toNat % 2 ^ 63 = 0 := by omega
    rw [hzero]
    exact .zero
  next marked =>
    exact .finite 0 (by omega) (by rw [hleast]; rfl) (by omega) (by omega) (by omega)

/-- Any other exponent field belongs to numbers with the hidden bit. -/
theorem reads_normal (hfull : w.toNat / 2 ^ 52 % 2048 ≠ 2047)
    (hleast : w.toNat / 2 ^ 52 % 2048 ≠ 0) :
    Reads (Sign.ofBitVec (@unpackSign .binary64 w)) (w.toNat % 2 ^ 63) (unpack .binary64 w) := by
  have hlt : w.toNat < 2 ^ 64 := w.isLt
  have he := exponent_toNat w
  have hm := mantissa_toNat w
  have hn := significand_toNat (@unpackMantissa .binary64 w)
  have hbelow : @unpackExponent .binary64 w ≠ -1#11 := fun h => hfull (by rw [← he, h]; rfl)
  have habove : @unpackExponent .binary64 w ≠ 0#11 := fun h => hleast (by rw [← he, h]; rfl)
  unfold unpack
  simp only
  rw [if_neg hbelow, if_neg habove]
  refine .finite (w.toNat / 2 ^ 52 % 2048 - 1) ?_ ?_ ?_ ?_ ?_
  · omega
  · rw [he]
    change ((w.toNat / 2 ^ 52 % 2048 : ℕ) : ℤ) - (1023 + 52) = _
    omega
  · omega
  · omega
  · omega

end

/-- A word that unpacks to a sign and a magnitude, whichever number it belongs to. -/
theorem reads_word (w : UInt64) :
    Reads (if w.toNat < Decimal.Binary.signBit then .positive else .negative)
      (w.toNat % Decimal.Binary.signBit) (unpack .binary64 w.toBitVec) := by
  rw [← UInt64.toNat_toBitVec, ← sign_ofBits, Decimal.Binary.signBit]
  by_cases hfull : w.toBitVec.toNat / 2 ^ 52 % 2048 = 2047
  · exact reads_full hfull
  by_cases hleast : w.toBitVec.toNat / 2 ^ 52 % 2048 = 0
  · exact reads_least hleast
  · exact reads_normal hfull hleast

theorem reads (x : Float) : Reads (signOf x) (magnitude x) x.toModel.unpack :=
  reads_word x.toBits

/-! ## Comparisons of magnitudes -/

theorem some_lt {a b : Int} (h : a < b) : some Ordering.lt = some (compare a b) := by
  rw [Int.compare_eq_lt.mpr h]

theorem some_gt {a b : Int} (h : b < a) : some Ordering.gt = some (compare a b) := by
  rw [Int.compare_eq_gt.mpr h]

theorem compare_neg_neg (a b : Int) : compare (-a) (-b) = compare b a := by
  rcases Int.lt_trichotomy a b with h | h | h
  · rw [Int.compare_eq_gt.mpr h, Int.compare_eq_gt.mpr (by omega)]
  · rw [Int.compare_eq_eq.mpr h.symm, Int.compare_eq_eq.mpr (by omega)]
  · rw [Int.compare_eq_lt.mpr h, Int.compare_eq_lt.mpr (by omega)]

/-- First by the exponent and then by the significand is by the magnitude. -/
theorem compare_packed {g h m n k l : Nat} (hg : g = m + k * 2 ^ 52) (hh : h = n + l * 2 ^ 52)
    (hm : m < 2 ^ 53) (hn : n < 2 ^ 53) (hk : 0 < k → 2 ^ 52 ≤ m) (hl : 0 < l → 2 ^ 52 ≤ n) :
    (compare ((k : Int) - 1074) (l - 1074)).then (compare m n) = compare (g : Int) h := by
  rcases Nat.lt_trichotomy k l with hkl | hkl | hkl
  · rw [Int.compare_eq_lt.mpr (show (k : Int) - 1074 < l - 1074 by omega)]
    exact (Int.compare_eq_lt.mpr (by omega)).symm
  · subst hkl
    rw [Int.compare_eq_eq.mpr rfl]
    rcases Nat.lt_trichotomy m n with hmn | hmn | hmn
    · rw [Nat.compare_eq_lt.mpr hmn]
      exact (Int.compare_eq_lt.mpr (by omega)).symm
    · rw [Nat.compare_eq_eq.mpr hmn]
      exact (Int.compare_eq_eq.mpr (by omega)).symm
    · rw [Nat.compare_eq_gt.mpr hmn]
      exact (Int.compare_eq_gt.mpr (by omega)).symm
  · rw [Int.compare_eq_gt.mpr (show (l : Int) - 1074 < k - 1074 by omega)]
    exact (Int.compare_eq_gt.mpr (by omega)).symm

theorem compare_infinite_finite {s t : Sign} {g m : Nat} {e : Int} {h : 0 < m}
    (hv : Reads t g (.finite t m e h)) :
    (UnpackedFloat.infinity s).compare (.finite t m e h) =
        some (compare (s.apply infinityWord) (t.apply g)) ∧
      (UnpackedFloat.finite t m e h).compare (.infinity s) =
        some (compare (t.apply g) (s.apply infinityWord)) := by
  cases hv with
  | finite k hg he hm hk hn =>
    have hi : infinityWord = 2047 * 2 ^ 52 := rfl
    cases s with
    | negative =>
      have hlt : Sign.negative.apply infinityWord < t.apply g := by
        cases t <;> simp only [Sign.apply] <;> omega
      exact ⟨some_lt hlt, by cases t <;> exact some_gt hlt⟩
    | positive =>
      have hlt : t.apply g < Sign.positive.apply infinityWord := by
        cases t <;> simp only [Sign.apply] <;> omega
      exact ⟨some_gt hlt, by cases t <;> exact some_lt hlt⟩

theorem compare_zero_finite {s t : Sign} {g m : Nat} {e : Int} {h : 0 < m}
    (hv : Reads t g (.finite t m e h)) :
    (UnpackedFloat.zero s).compare (.finite t m e h) =
        some (compare (s.apply (0 : Nat)) (t.apply g)) ∧
      (UnpackedFloat.finite t m e h).compare (.zero s) =
        some (compare (t.apply g) (s.apply (0 : Nat))) := by
  cases hv with
  | finite k hg he hm hk hn =>
    cases t with
    | negative =>
      have hlt : Sign.negative.apply g < s.apply (0 : Nat) := by
        cases s <;> simp only [Sign.apply] <;> omega
      exact ⟨by cases s <;> exact some_gt hlt, some_lt hlt⟩
    | positive =>
      have hlt : s.apply (0 : Nat) < Sign.positive.apply g := by
        cases s <;> simp only [Sign.apply] <;> omega
      exact ⟨by cases s <;> exact some_lt hlt, some_gt hlt⟩

theorem compare_finite_finite {s t : Sign} {g g' m n : Nat} {e f : Int} {h : 0 < m}
    {h' : 0 < n} (hu : Reads s g (.finite s m e h)) (hv : Reads t g' (.finite t n f h')) :
    (UnpackedFloat.finite s m e h).compare (.finite t n f h') =
      some (compare (s.apply g) (t.apply g')) := by
  cases hu with
  | finite k hg he hm hk hkn =>
    cases hv with
    | finite l hg' hf hn hl hln =>
      subst he hf
      have hc := compare_packed hg hg' hm hn hkn hln
      cases s <;> cases t
      · simp only [UnpackedFloat.compare, Sign.apply, Option.some.injEq]
        rw [hc, compare_neg_neg, Int.compare_swap]
      · exact some_lt (by simp only [Sign.apply]; omega)
      · exact some_gt (by simp only [Sign.apply]; omega)
      · exact congrArg some hc

theorem compare_reads {s t : Sign} {g h : Nat} {u v : UnpackedFloat} (hu : Reads s g u)
    (hv : Reads t h v) (hg : g ≤ infinityWord) (hh : h ≤ infinityWord) :
    u.compare v = some (compare (s.apply g) (t.apply h)) := by
  have hleft := hu
  have hright := hv
  cases hu with
  | undefined hu => omega
  | infinite =>
    cases hv with
    | undefined hv => omega
    | infinite => cases s <;> cases t <;> rfl
    | zero => cases s <;> cases t <;> rfl
    | finite => exact (compare_infinite_finite hright).1
  | zero =>
    cases hv with
    | undefined hv => omega
    | infinite => cases s <;> cases t <;> rfl
    | zero => cases s <;> cases t <;> rfl
    | finite => exact (compare_zero_finite hright).1
  | finite =>
    cases hv with
    | undefined hv => omega
    | infinite => exact (compare_infinite_finite hleft).2
    | zero => exact (compare_zero_finite hleft).2
    | finite => exact compare_finite_finite hleft hright

/-! ## Classes of words -/

section
variable {s : Sign} {g : Nat} {u : UnpackedFloat}

theorem Reads.isNaN_iff (h : Reads s g u) : u.isNaN = true ↔ infinityWord < g := by
  have hi : infinityWord = 2047 * 2 ^ 52 := rfl
  cases h <;> simp only [UnpackedFloat.isNaN, true_iff, Bool.false_eq_true, false_iff] <;> omega

theorem Reads.isInf_iff (h : Reads s g u) : u.isInf = true ↔ g = infinityWord := by
  have hi : infinityWord = 2047 * 2 ^ 52 := rfl
  cases h <;> simp only [UnpackedFloat.isInf, Bool.false_eq_true, false_iff] <;> omega

theorem Reads.isFinite_iff (h : Reads s g u) : u.isFinite = true ↔ g < infinityWord := by
  have hi : infinityWord = 2047 * 2 ^ 52 := rfl
  cases h <;> simp only [UnpackedFloat.isFinite, true_iff, Bool.false_eq_true, false_iff] <;> omega

end

section
variable {x y : Float}

theorem isNaN_iff : x.isNaN = true ↔ infinityWord < magnitude x := (reads x).isNaN_iff

theorem isInf_iff : x.isInf = true ↔ magnitude x = infinityWord := (reads x).isInf_iff

theorem isFinite_iff : x.isFinite = true ↔ magnitude x < infinityWord := (reads x).isFinite_iff

/-- A word that is not finite is undefined or infinite. -/
theorem not_isFinite_iff : ¬ x.isFinite = true ↔ x.isNaN = true ∨ x.isInf = true := by
  rw [isFinite_iff, isNaN_iff, isInf_iff]
  omega

/-! ## Comparisons of numbers -/

theorem compare_eq (hx : x.isNaN = false) (hy : y.isNaN = false) :
    x.toModel.unpack.compare y.toModel.unpack = some (compare (place x) (place y)) := by
  rw [← Bool.not_eq_true, isNaN_iff] at hx hy
  exact compare_reads (reads x) (reads y) (by omega) (by omega)

theorem lt_iff_compare : x < y ↔ x.toModel.unpack.compare y.toModel.unpack = some .lt := by
  change (decide ((x.toModel.unpack.compare y.toModel.unpack == some .lt) = true) = true) ↔ _
  rw [decide_eq_true_iff, beq_iff_eq]

/-- Only numbers are less than anything. -/
theorem isNaN_of_lt (h : x < y) : x.isNaN = false ∧ y.isNaN = false := by
  have hcompare := lt_iff_compare.mp h
  change x.toModel.unpack.isNaN = false ∧ y.toModel.unpack.isNaN = false
  cases hx : x.toModel.unpack <;> cases hy : y.toModel.unpack <;>
    simp_all [UnpackedFloat.compare, UnpackedFloat.isNaN]

theorem lt_iff (hx : x.isNaN = false) (hy : y.isNaN = false) : x < y ↔ place x < place y := by
  rw [lt_iff_compare, compare_eq hx hy, ← Int.compare_eq_lt, Option.some.injEq]

theorem le_iff_compare :
    x ≤ y ↔ (x.toModel.unpack.compare y.toModel.unpack).any (·.isLE) = true := by
  change (decide ((x.toModel.unpack.compare y.toModel.unpack).any (·.isLE) = true) = true) ↔ _
  rw [decide_eq_true_iff]

/-- Only numbers are compared with anything. -/
theorem isNaN_of_le (h : x ≤ y) : x.isNaN = false ∧ y.isNaN = false := by
  have hcompare := le_iff_compare.mp h
  change x.toModel.unpack.isNaN = false ∧ y.toModel.unpack.isNaN = false
  cases hx : x.toModel.unpack <;> cases hy : y.toModel.unpack <;>
    simp_all [UnpackedFloat.compare, UnpackedFloat.isNaN]

theorem le_iff (hx : x.isNaN = false) (hy : y.isNaN = false) : x ≤ y ↔ place x ≤ place y := by
  rw [le_iff_compare, compare_eq hx hy, ← not_lt, ← Int.compare_eq_gt]
  cases compare (place x) (place y) <;> decide

theorem beq_iff (hx : x.isNaN = false) (hy : y.isNaN = false) :
    (x == y) = true ↔ place x = place y := by
  change (x.toModel.unpack.compare y.toModel.unpack == some .eq) = true ↔ _
  rw [beq_iff_eq, compare_eq hx hy, Option.some.injEq, Int.compare_eq_eq]

theorem not_le_iff_lt (hx : x.isNaN = false) (hy : y.isNaN = false) : ¬ x ≤ y ↔ y < x := by
  rw [le_iff hx hy, lt_iff hy hx, not_le]

end

end PerfGate.Number
