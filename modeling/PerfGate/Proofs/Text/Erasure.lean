import PerfGate.Proofs.Text.Occurrence

/-!
# Texts without a pattern

Leaving out a pattern keeps the rest of a text in its order, and keeps all of it exactly if the
pattern does not occur. A pattern whose first character does not come again in it has no two
occurrences that overlap, so where it ends a text it is left out on its own.
-/

set_option autoImplicit false

namespace PerfGate.Erasure

open Text Occurrence

section
variable {pattern rest cs : List Char} {c : Char}

theorem without_sublist (pattern : List Char) (skip : Nat) (cs : List Char) :
    (without pattern skip cs).Sublist cs := by
  induction cs generalizing skip with
  | nil =>
    rw [without]
  | cons c rest ih =>
    cases skip with
    | succ skip => exact (ih skip).cons c
    | zero =>
      rw [without]
      split
      · exact (ih _).cons c
      · exact (ih 0).cons_cons c

theorem without_of_length_le {skip : Nat} (h : cs.length ≤ skip) :
    without pattern skip cs = [] := by
  induction cs generalizing skip with
  | nil => rw [without]
  | cons c rest ih =>
    obtain ⟨skip, rfl⟩ := Nat.exists_eq_add_of_lt (Nat.zero_lt_of_lt h)
    rw [Nat.zero_add, without]
    exact ih (by simpa using h)

/-- An occurrence that does not start at the end starts and ends before it. -/
theorem prefix_of_prefix_append (hc : c ∉ rest) (hne : cs ≠ [])
    (h : c :: rest <+: cs ++ c :: rest) : c :: rest <+: cs := by
  rcases List.prefix_or_prefix_of_prefix h (List.prefix_append cs (c :: rest)) with hle | hlt
  · exact hle
  obtain ⟨d, ds, rfl⟩ := List.exists_cons_of_ne_nil hne
  obtain ⟨rfl, after, rfl⟩ := List.cons_prefix_cons.mp hlt
  rw [List.cons_append, List.cons_prefix_cons, List.prefix_append_right_inj] at h
  cases after with
  | nil => simp
  | cons e after =>
    obtain ⟨rfl, -⟩ := List.cons_prefix_cons.mp h.2
    exact absurd (by simp) hc

theorem without_append (hc : c ∉ rest) {skip : Nat} (hskip : skip ≤ cs.length) :
    without (c :: rest) skip (cs ++ c :: rest) = without (c :: rest) skip cs := by
  induction cs generalizing skip with
  | nil =>
    obtain rfl : skip = 0 := Nat.le_zero.mp hskip
    have hall : (c :: rest).isPrefixOf (c :: rest) = true := by simp
    have hnone : without (c :: rest) 0 [] = [] := without_of_length_le (Nat.zero_le _)
    rw [List.nil_append, hnone, without, if_pos hall]
    exact without_of_length_le (by simp)
  | cons d ds ih =>
    cases skip with
    | succ skip => exact ih (by simpa using hskip)
    | zero =>
      rw [List.cons_append, without, without]
      by_cases h : c :: rest <+: d :: ds
      · have hlength : rest.length ≤ ds.length := by simpa using h.length_le
        have hmore : c :: rest <+: d :: (ds ++ c :: rest) := h.trans (List.prefix_append _ _)
        rw [if_pos (List.isPrefixOf_iff_prefix.mpr hmore),
          if_pos (List.isPrefixOf_iff_prefix.mpr h)]
        exact ih (by simpa using hlength)
      · have hmore : ¬ c :: rest <+: d :: (ds ++ c :: rest) :=
          fun hmore => h (prefix_of_prefix_append hc (List.cons_ne_nil d ds) hmore)
        rw [if_neg (mt List.isPrefixOf_iff_prefix.mp hmore),
          if_neg (mt List.isPrefixOf_iff_prefix.mp h), ih (Nat.zero_le _)]

theorem without_eq_self_iff (hne : pattern ≠ []) :
    without pattern 0 cs = cs ↔ ¬ pattern <:+: cs := by
  induction cs with
  | nil => simp [without, hne]
  | cons c rest ih =>
    rw [without, List.infix_cons_iff, not_or, ← List.isPrefixOf_iff_prefix]
    by_cases h : pattern.isPrefixOf (c :: rest) = true
    · have hshort := (without_sublist pattern (pattern.length - 1) rest).length_le
      rw [if_pos h]
      refine iff_of_false (fun heq => ?_) fun hnone => hnone.1 h
      rw [heq, List.length_cons] at hshort
      omega
    · rw [if_neg h, List.cons_inj_right, ih]
      exact (and_iff_right h).symm

end

/-! ## Texts -/

theorem mem_of_mem_erase {s pattern : String} {c : Char} (h : c ∈ (erase s pattern).toList) :
    c ∈ s.toList := by
  rw [erase, String.toList_ofList] at h
  exact (without_sublist _ _ _).subset h

theorem erase_eq_self_iff {s pattern : String} (hne : pattern ≠ "") :
    erase s pattern = s ↔ ¬ Occurs pattern s := by
  have hchars : pattern.toList ≠ [] := fun h => hne (String.toList_inj.mp h)
  rw [occurs_iff_toList, ← without_eq_self_iff hchars, erase, ← String.toList_inj,
    String.toList_ofList]

/-- A pattern at the end is left out on its own. -/
theorem erase_append {pattern : String} {c : Char} {rest : List Char}
    (hpattern : pattern.toList = c :: rest) (hc : c ∉ rest) (s : String) :
    erase (s ++ pattern) pattern = erase s pattern := by
  rw [erase, erase, String.toList_append, hpattern, without_append hc (Nat.zero_le _)]

end PerfGate.Erasure
