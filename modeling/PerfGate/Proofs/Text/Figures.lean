import PerfGate.Decimal.Style
import PerfGate.Text.Thousands
import Mathlib.Tactic

/-!
# How numbers are written

A number in a report is written with digits, a sign, a point, commas, and the letters of the names
of exceptional values, and with nothing else.
-/

set_option autoImplicit false

namespace PerfGate.Figures

def isFigure (c : Char) : Bool := c.isDigit || "-.,NaNinf".toList.contains c

section
variable {c : Char}

theorem of_mem_toDigits {n : Nat} (h : c ∈ Nat.toDigits 10 n) : isFigure c = true := by
  rw [isFigure, Nat.isDigit_of_mem_toDigits (by decide) (by decide) h, Bool.true_or]

theorem of_mem_signed {negative : Bool} {text : List Char}
    (htext : ∀ c ∈ text, isFigure c = true) (h : c ∈ Decimal.signed negative text) :
    isFigure c = true := by
  cases negative with
  | false => exact htext c h
  | true =>
    rcases List.mem_cons.mp h with rfl | h
    · decide
    · exact htext c h

theorem of_mem_pointed {digits places : Nat} (h : c ∈ Decimal.pointed digits places) :
    isFigure c = true := by
  have hpadded : ∀ c ∈ Decimal.zeros (places + 1 - (Nat.toDigits 10 digits).length) ++
      Nat.toDigits 10 digits, isFigure c = true := by
    intro c hc
    rcases List.mem_append.mp hc with hc | hc
    · obtain rfl := List.eq_of_mem_replicate hc
      decide
    · exact of_mem_toDigits hc
  rw [Decimal.pointed] at h
  simp only [Decimal.digitsOf] at h
  split at h
  · exact hpadded c h
  · rcases List.mem_append.mp h with h | h
    · exact hpadded c (List.mem_of_mem_take h)
    · rcases List.mem_cons.mp h with rfl | h
      · decide
      · exact hpadded c (List.mem_of_mem_drop h)

theorem of_mem_fixed {places : Nat} {x : Float} (h : c ∈ (Decimal.fixed places x).toList) :
    isFigure c = true := by
  rw [Decimal.fixed, String.toList_ofList] at h
  cases hx : Decimal.Binary.ofFloat x with
  | notANumber =>
    have hname : ∀ c ∈ "NaN".toList, isFigure c = true := by
      simp [isFigure]
    rw [hx] at h
    exact hname c h
  | infinite negative =>
    have hname : ∀ c ∈ "inf".toList, isFigure c = true := by
      simp [isFigure]
    rw [hx] at h
    exact of_mem_signed hname h
  | finite negative m q =>
    rw [hx] at h
    exact of_mem_signed (fun _ => of_mem_pointed) h

theorem mem_grouped {digits : List Char} (h : c ∈ Text.grouped digits) :
    c = ',' ∨ c ∈ digits := by
  induction digits using Text.grouped.induct with
  | case1 => exact absurd h List.not_mem_nil
  | case2 d => exact .inr h
  | case3 d rest hrest hthree ih =>
    rw [Text.grouped, if_pos hthree] at h
    · simp only [List.mem_cons] at h ⊢
      rcases h with rfl | rfl | h
      · exact .inr (.inl rfl)
      · exact .inl rfl
      · exact (ih h).imp_right .inr
    · exact hrest
  | case4 d rest hrest hthree ih =>
    rw [Text.grouped, if_neg hthree] at h
    · simp only [List.mem_cons] at h ⊢
      rcases h with rfl | h
      · exact .inr (.inl rfl)
      · exact (ih h).imp_right .inr
    · exact hrest

theorem of_mem_groupThousands {n : Int} (h : c ∈ (Text.groupThousands n).toList) :
    isFigure c = true := by
  have hdigits : ∀ c ∈ Text.grouped (Nat.toDigits 10 n.natAbs), isFigure c = true := by
    intro c hc
    rcases mem_grouped hc with rfl | hc
    · decide
    · exact of_mem_toDigits hc
  rw [Text.groupThousands, String.toList_ofList, Text.thousandsChars] at h
  split at h
  · rcases List.mem_cons.mp h with rfl | h
    · decide
    · exact hdigits c h
  · exact hdigits c h

end

end PerfGate.Figures
