import PerfGate.Text.Pattern
import Mathlib.Tactic

/-!
# Occurrences in texts

A pattern is found in a text exactly if the text reads as some front, the pattern, and some back.
-/

set_option autoImplicit false

namespace PerfGate.Occurrence

open Text

def Occurs (pattern s : String) : Prop := ∃ front back, s = front ++ pattern ++ back

theorem occursIn_iff {pattern text : List Char} :
    occursIn pattern text = true ↔ pattern <:+: text := by
  induction text with
  | nil => simp [occursIn]
  | cons c rest ih =>
    rw [occursIn, Bool.or_eq_true, ih, List.isPrefixOf_iff_prefix, List.infix_cons_iff]

theorem contains_iff {s pattern : String} :
    contains s pattern = true ↔ Occurs pattern s := by
  rw [contains, occursIn_iff]
  constructor
  · rintro ⟨front, back, h⟩
    refine ⟨String.ofList front, String.ofList back, String.toList_inj.mp ?_⟩
    simp [← h]
  · rintro ⟨front, back, rfl⟩
    exact ⟨front.toList, back.toList, by simp⟩

theorem occurs_iff_toList {pattern s : String} :
    Occurs pattern s ↔ pattern.toList <:+: s.toList := by
  rw [← contains_iff, contains, occursIn_iff]

/-- Where a pattern stands, so does every beginning of it. -/
theorem Occurs.of_append {pattern more s : String} (h : Occurs (pattern ++ more) s) :
    Occurs pattern s := by
  obtain ⟨front, back, rfl⟩ := h
  exact ⟨front, more ++ back, by simp [String.append_assoc]⟩

end PerfGate.Occurrence
