import PerfGate.Workspace.Wildcard
import Mathlib.Tactic

/-!
# What patterns stand for

A pattern fits a text that can be cut into pieces, one for each part: any text for a star, and one
character that is allowed for every other part. A text that is quoted fits itself alone.
-/

set_option autoImplicit false

namespace PerfGate.Wildcard

def Part.Takes : Part → List Char → Prop
  | .exactly c, piece => piece = [c]
  | .any, piece => ∃ c, piece = [c]
  | .anyText, _ => True
  | .oneOf negative members, piece => ∃ c, piece = [c] ∧ contains negative members c = true

def StandsFor (ps : List Part) (text : List Char) : Prop :=
  ∃ pieces : List (List Char), List.Forall₂ Part.Takes ps pieces ∧ pieces.flatten = text

variable {p : Part} {ps : List Part} {text : List Char}

theorem standsFor_nil : StandsFor [] text ↔ text = [] := by
  constructor
  · rintro ⟨pieces, hpieces, rfl⟩
    obtain rfl := List.forall₂_nil_left_iff.mp hpieces
    rfl
  · rintro rfl
    exact ⟨[], .nil, rfl⟩

theorem standsFor_cons : StandsFor (p :: ps) text ↔
    ∃ piece rest, text = piece ++ rest ∧ p.Takes piece ∧ StandsFor ps rest := by
  constructor
  · rintro ⟨pieces, hpieces, rfl⟩
    obtain ⟨piece, others, htakes, hothers, rfl⟩ := List.forall₂_cons_left_iff.mp hpieces
    exact ⟨piece, others.flatten, rfl, htakes, others, hothers, rfl⟩
  · rintro ⟨piece, rest, rfl, htakes, others, hothers, rfl⟩
    exact ⟨piece :: others, .cons htakes hothers, rfl⟩

theorem someRest_iff {q : List Char → Bool} :
    someRest q text = true ↔ ∃ piece rest, text = piece ++ rest ∧ q rest = true := by
  induction text with
  | nil =>
    constructor
    · exact fun h => ⟨[], [], rfl, h⟩
    · rintro ⟨piece, rest, heq, h⟩
      obtain ⟨-, rfl⟩ := List.append_eq_nil_iff.mp heq.symm
      exact h
  | cons c text ih =>
    rw [someRest, Bool.or_eq_true, ih]
    constructor
    · rintro (h | ⟨piece, rest, rfl, h⟩)
      · exact ⟨[], c :: text, rfl, h⟩
      · exact ⟨c :: piece, rest, rfl, h⟩
    · rintro ⟨piece, rest, heq, h⟩
      cases piece with
      | nil => exact .inl (heq ▸ h)
      | cons d piece =>
        obtain ⟨-, rfl⟩ := List.cons.inj heq
        exact .inr ⟨piece, rest, rfl, h⟩

/-- A part that is no star takes one character. -/
theorem standsFor_one (allowed : Char → Prop)
    (h : ∀ piece, p.Takes piece ↔ ∃ c, piece = [c] ∧ allowed c) :
    StandsFor (p :: ps) text ↔ ∃ c rest, text = c :: rest ∧ allowed c ∧ StandsFor ps rest := by
  rw [standsFor_cons]
  constructor
  · rintro ⟨piece, rest, rfl, htakes, hrest⟩
    obtain ⟨c, rfl, hallowed⟩ := (h piece).mp htakes
    exact ⟨c, rest, rfl, hallowed, hrest⟩
  · rintro ⟨c, rest, rfl, hallowed, hrest⟩
    exact ⟨[c], rest, rfl, (h [c]).mpr ⟨c, rfl, hallowed⟩, hrest⟩

theorem fits_iff : fits ps text = true ↔ StandsFor ps text := by
  induction ps generalizing text with
  | nil => rw [fits, standsFor_nil, List.isEmpty_iff]
  | cons p ps ih =>
    cases p with
    | anyText =>
      rw [fits, someRest_iff, standsFor_cons]
      simp only [ih, Part.Takes, true_and]
    | exactly d =>
      rw [standsFor_one (· = d) fun piece => by simp [Part.Takes]]
      cases text <;> simp [fits, ih]
    | any =>
      rw [standsFor_one (fun _ => True) fun piece => by simp [Part.Takes]]
      cases text <;> simp [fits, ih]
    | oneOf negative members =>
      rw [standsFor_one (fun c => contains negative members c = true)
        fun piece => by simp [Part.Takes]]
      cases text <;> simp [fits, ih]

/-! ## Quoted texts -/

theorem parts_quoted (cs : List Char) {fuel : Nat} (h : cs.length < fuel) :
    parts fuel (cs.map fun c => (c, true)) = cs.map .exactly := by
  induction cs generalizing fuel with
  | nil =>
    obtain ⟨fuel, rfl⟩ := Nat.exists_eq_succ_of_ne_zero (Nat.ne_zero_of_lt h)
    rfl
  | cons c cs ih =>
    obtain ⟨fuel, rfl⟩ := Nat.exists_eq_succ_of_ne_zero (Nat.ne_zero_of_lt h)
    rw [List.map_cons, parts, if_pos rfl, ih (Nat.lt_of_succ_lt_succ h), List.map_cons]

theorem standsFor_exactly (cs : List Char) : StandsFor (cs.map .exactly) text ↔ text = cs := by
  induction cs generalizing text with
  | nil => exact standsFor_nil
  | cons c cs ih =>
    rw [List.map_cons, standsFor_one (· = c) fun piece => by simp [Part.Takes]]
    simp [ih]

theorem quoted_fits_iff (cs : List Char) :
    fits (ofInked (cs.map fun c => (c, true))) text = true ↔ text = cs := by
  rw [fits_iff, ofInked, parts_quoted cs (by simp), standsFor_exactly]

end PerfGate.Wildcard
