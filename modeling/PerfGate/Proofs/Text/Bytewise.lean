import Mathlib.Data.String.Basic
import Mathlib.Tactic

/-!
# Bytewise order

Texts are compared character by character. In the encoding of a character the first byte is
greater the more bytes follow it, and each byte that follows holds six bits, the highest first;
so texts are in the order of their characters exactly if they are in that of their bytes.
-/

set_option autoImplicit false

namespace PerfGate.Bytewise

def bytes (s : String) : List UInt8 := s.toByteArray.data.toList

/-! ## The encoding of a character -/

def width (v : Nat) : Nat :=
  if v ≤ 0x7f then 0 else if v ≤ 0x7ff then 1 else if v ≤ 0xffff then 2 else 3

def mark : Nat → Nat
  | 0 => 0
  | 1 => 0xc0
  | 2 => 0xe0
  | _ => 0xf0

def lead (v : Nat) : Nat := v / 64 ^ width v + mark (width v)

def following (v : Nat) : Nat → List UInt8
  | 0 => []
  | k + 1 => UInt8.ofNat (v / 64 ^ k % 64 + 0x80) :: following v k

theorem toNat_lt (c : Char) : c.val.toNat < 0x110000 := by
  rcases c.valid with h | ⟨-, h⟩
  · exact Nat.lt_trans h (by omega)
  · exact h

theorem encode_eq (c : Char) :
    String.utf8EncodeChar c =
      UInt8.ofNat (lead c.val.toNat) :: following c.val.toNat (width c.val.toNat) := by
  have hc : c.val.toNat < 0x110000 := toNat_lt c
  rw [String.utf8EncodeChar]
  generalize c.val.toNat = v at *
  simp only [lead, width]
  split
  next => simp [mark, following]
  next =>
    split
    next =>
      have hbits : v / 64 % 32 = v / 64 := by omega
      simp [mark, following, hbits]
    next =>
      split
      next =>
        have hbits : v / 4096 % 16 = v / 4096 := by omega
        simp [mark, following, hbits]
      next =>
        have hbits : v / 262144 % 8 = v / 262144 := by omega
        simp [mark, following, hbits]

theorem ofNat_lt {a b : Nat} (hb : b < 256) (h : a < b) : UInt8.ofNat a < UInt8.ofNat b := by
  rw [UInt8.lt_iff_toNat_lt, UInt8.toNat_ofNat_of_lt' (h.trans hb), UInt8.toNat_ofNat_of_lt' hb]
  exact h

theorem following_lt {v w k : Nat} (hvw : v < w) (hhigh : v / 64 ^ k = w / 64 ^ k)
    (l l' : List UInt8) : following v k ++ l < following w k ++ l' := by
  induction k with
  | zero =>
    rw [pow_zero, Nat.div_one, Nat.div_one] at hhigh
    omega
  | succ k ih =>
    rw [pow_succ, ← Nat.div_div_eq_div_mul, ← Nat.div_div_eq_div_mul] at hhigh
    have hle : v / 64 ^ k ≤ w / 64 ^ k := Nat.div_le_div_right hvw.le
    rw [following, following, List.cons_append, List.cons_append, List.cons_lt_cons_iff]
    rcases hle.lt_or_eq with hlt | heq
    · exact .inl (ofNat_lt (by omega) (by omega))
    · exact .inr ⟨by rw [heq], ih heq⟩

theorem lead_lt_of_width {v w : Nat} (hvw : v < w) (hw : w < 0x110000)
    (h : width v ≠ width w) : lead v < lead w := by
  simp only [lead, width] at *
  split_ifs at * <;> simp only [mark] at * <;> omega

theorem lead_lt {w : Nat} (hw : w < 0x110000) : lead w < 256 := by
  simp only [lead, width]
  split_ifs <;> simp only [mark] <;> omega

/-- Whatever follows, a lesser character makes a lesser text. -/
theorem encode_lt {c d : Char} (h : c < d) (l l' : List UInt8) :
    String.utf8EncodeChar c ++ l < String.utf8EncodeChar d ++ l' := by
  have hvw : c.val.toNat < d.val.toNat := h
  have hd : d.val.toNat < 0x110000 := toNat_lt d
  rw [encode_eq, encode_eq]
  generalize c.val.toNat = v at *
  generalize d.val.toNat = w at *
  rw [List.cons_append, List.cons_append, List.cons_lt_cons_iff]
  by_cases hwidth : width v = width w
  · rcases (Nat.div_le_div_right hvw.le : v / 64 ^ width w ≤ w / 64 ^ width w).lt_or_eq
      with hlt | heq
    · have hlead : lead v < lead w := by
        rw [lead, lead, hwidth]
        omega
      exact .inl (ofNat_lt (lead_lt hd) hlead)
    · have hlead : lead v = lead w := by rw [lead, lead, hwidth, heq]
      rw [hwidth]
      exact .inr ⟨by rw [hlead], following_lt hvw heq l l'⟩
  · exact .inl (ofNat_lt (lead_lt hd) (lead_lt_of_width hvw hd hwidth))

/-! ## Texts -/

theorem bytes_eq (s : String) : bytes s = s.toList.flatMap String.utf8EncodeChar := by
  rw [bytes, ← String.utf8Encode_toList, List.utf8Encode, List.data_toByteArray]

theorem flatMap_encode_lt {l l' : List Char} (h : l < l') :
    l.flatMap String.utf8EncodeChar < l'.flatMap String.utf8EncodeChar := by
  induction l generalizing l' with
  | nil =>
    cases l' with
    | nil => exact absurd h (List.lt_irrefl _)
    | cons d l' =>
      rw [List.flatMap_nil, List.flatMap_cons, encode_eq, List.cons_append]
      exact List.nil_lt_cons _ _
  | cons c l ih =>
    cases l' with
    | nil => exact absurd h (List.not_lt_nil _)
    | cons d l' =>
      rw [List.flatMap_cons, List.flatMap_cons]
      rcases List.cons_lt_cons_iff.mp h with hlt | ⟨rfl, hlt⟩
      · exact encode_lt hlt _ _
      · exact List.append_left_lt (ih hlt)

theorem bytes_lt_bytes_iff {s t : String} : bytes s < bytes t ↔ s < t := by
  have hlt : ∀ {s t : String}, s < t → bytes s < bytes t := fun h => by
    rw [bytes_eq, bytes_eq]
    exact flatMap_encode_lt h
  refine ⟨fun h => ?_, hlt⟩
  rcases lt_trichotomy s t with hst | rfl | hst
  · exact hst
  · exact absurd h (List.lt_irrefl _)
  · exact absurd h (List.lt_asymm (hlt hst))

end PerfGate.Bytewise
