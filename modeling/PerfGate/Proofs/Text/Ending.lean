import PerfGate.Text.Pattern
import Mathlib.Tactic

/-!
# Endings of texts

A text ends with another exactly if it is some stem with that ending, and the stem is the text
that is found in front of it.
-/

set_option autoImplicit false

namespace PerfGate.Ending

open Text

theorem endsWith_iff {s ending : String} :
    endsWith s ending = true ↔ ∃ stem, s = stem ++ ending := by
  rw [endsWith, List.isSuffixOf_iff_suffix]
  constructor
  · rintro ⟨front, h⟩
    refine ⟨String.ofList front, String.toList_inj.mp ?_⟩
    rw [String.toList_append, String.toList_ofList, h]
  · rintro ⟨stem, rfl⟩
    exact ⟨stem.toList, (String.toList_append).symm⟩

theorem stem?_append (stem ending : String) : stem? (stem ++ ending) ending = some stem := by
  rw [stem?, if_pos (endsWith_iff.mpr ⟨stem, rfl⟩), String.toList_append]
  simp

theorem stem?_eq_some_iff {s ending stem : String} :
    stem? s ending = some stem ↔ s = stem ++ ending := by
  constructor
  · intro h
    by_cases hends : endsWith s ending = true
    · obtain ⟨front, rfl⟩ := endsWith_iff.mp hends
      rw [stem?_append] at h
      rw [Option.some.inj h]
    · rw [stem?, if_neg hends] at h
      exact nomatch h
  · rintro rfl
    exact stem?_append stem ending

end PerfGate.Ending
