import PerfGate.Text.Thousands
import Mathlib

/-!
# Numbers with thousands separators

A number with separators is a sign or none, one to three digits, and groups of three digits that
have a comma before each. How a list of digits divides into such groups is settled by its length
alone, so among the texts of this form the written number is the only one that has its digits.
Without the commas it is the plain decimal, and no two numbers are written alike.
-/

set_option autoImplicit false

namespace PerfGate.Thousands

open Text (grouped groupThousands thousandsChars)

structure Separated where
  negative : Bool
  first : List Char
  groups : List (List Char)
  first_ne_nil : first ≠ []
  first_length : first.length ≤ 3
  groups_length : ∀ group ∈ groups, group.length = 3
  isDigit : ∀ c ∈ first ++ groups.flatten, c.isDigit = true

def sign (negative : Bool) : List Char := if negative then ['-'] else []

def Separated.digits (p : Separated) : List Char := p.first ++ p.groups.flatten

def Separated.text (p : Separated) : String :=
  String.ofList (sign p.negative ++ (p.first ++ p.groups.flatMap (',' :: ·)))

def plain (s : String) : String := String.ofList (s.toList.filter (· != ','))

/-! ## Groups of digits -/

section
variable {d : Char} {rest first : List Char} {groups : List (List Char)}

theorem grouped_cons (h : rest.length % 3 ≠ 0) : grouped (d :: rest) = d :: grouped rest := by
  cases rest with
  | nil => exact absurd rfl h
  | cons e rest => rw [grouped, if_neg h]; simp

theorem grouped_cons_of_dvd (hne : rest ≠ []) (h : rest.length % 3 = 0) :
    grouped (d :: rest) = d :: ',' :: grouped rest := by
  rw [grouped, if_pos h]
  exact hne

theorem grouped_first (hne : first ≠ []) (hlength : first.length ≤ 3) :
    grouped first = first := by
  induction first with
  | nil => exact absurd rfl hne
  | cons d first ih =>
    rw [List.length_cons] at hlength
    by_cases hnil : first = []
    · subst hnil
      rfl
    · have hpos : 0 < first.length := List.length_pos_iff.mpr hnil
      rw [grouped_cons (by omega), ih hnil (by omega)]

/-- Before whole groups a comma follows what is left over. -/
theorem grouped_append (hne : first ≠ []) (hlength : first.length ≤ 3) (hrest : rest ≠ [])
    (h : rest.length % 3 = 0) : grouped (first ++ rest) = first ++ ',' :: grouped rest := by
  induction first with
  | nil => exact absurd rfl hne
  | cons d first ih =>
    rw [List.length_cons] at hlength
    by_cases hnil : first = []
    · subst hnil
      exact grouped_cons_of_dvd hrest h
    · have hpos : 0 < first.length := List.length_pos_iff.mpr hnil
      have hover : (first ++ rest).length % 3 ≠ 0 := by
        rw [List.length_append]
        omega
      rw [List.cons_append, grouped_cons hover, ih hnil (by omega), List.cons_append]

theorem flatten_length (h : ∀ group ∈ groups, group.length = 3) :
    groups.flatten.length = 3 * groups.length := by
  induction groups with
  | nil => rfl
  | cons group groups ih =>
    obtain ⟨hgroup, hgroups⟩ := List.forall_mem_cons.mp h
    rw [List.flatten_cons, List.length_append, hgroup, ih hgroups, List.length_cons]
    ring

theorem grouped_flatten (hne : first ≠ []) (hlength : first.length ≤ 3)
    (h : ∀ group ∈ groups, group.length = 3) :
    grouped (first ++ groups.flatten) = first ++ groups.flatMap (',' :: ·) := by
  induction groups generalizing first with
  | nil =>
    rw [List.flatten_nil, List.flatMap_nil, List.append_nil]
    exact grouped_first hne hlength
  | cons group groups ih =>
    obtain ⟨hgroup, hgroups⟩ := List.forall_mem_cons.mp h
    have hgroupne : group ≠ [] := by
      rintro rfl
      exact nomatch hgroup
    have hwhole : (group ++ groups.flatten).length % 3 = 0 := by
      rw [List.length_append, hgroup, flatten_length hgroups]
      omega
    rw [List.flatten_cons, grouped_append hne hlength (by simp [hgroupne]) hwhole,
      ih hgroupne hgroup.le hgroups, List.flatMap_cons, List.cons_append]

/-- Any digits can be divided from the right into groups of three. -/
theorem exists_groups {digits : List Char} (hne : digits ≠ []) :
    ∃ (first : List Char) (groups : List (List Char)), digits = first ++ groups.flatten ∧
      first ≠ [] ∧ first.length ≤ 3 ∧ ∀ group ∈ groups, group.length = 3 := by
  induction digits with
  | nil => exact absurd rfl hne
  | cons d digits ih =>
    by_cases hnil : digits = []
    · exact ⟨[d], [], by simp [hnil], by simp, by simp, by simp⟩
    obtain ⟨first, groups, hdigits, hfirst, hlength, hgroups⟩ := ih hnil
    by_cases hfull : first.length = 3
    · exact ⟨[d], first :: groups, by simp [hdigits], by simp, by simp,
        List.forall_mem_cons.mpr ⟨hfull, hgroups⟩⟩
    · exact ⟨d :: first, groups, by simp [hdigits], by simp, by simp; omega, hgroups⟩

end

/-! ## Written numbers -/

theorem filter_eq_self {digits : List Char} (h : ∀ c ∈ digits, c.isDigit = true) :
    digits.filter (· != ',') = digits := by
  apply List.filter_eq_self.mpr
  intro c hc
  rw [bne_iff_ne]
  rintro rfl
  exact absurd (h ',' hc) (by decide)

theorem plain_text (p : Separated) :
    plain p.text = String.ofList (sign p.negative ++ p.digits) := by
  have hsign : (sign p.negative).filter (· != ',') = sign p.negative := by
    cases p.negative <;> rfl
  have hdigits := filter_eq_self p.isDigit
  have hgroups : (p.groups.flatMap (',' :: ·)).filter (· != ',') =
      p.groups.flatten.filter (· != ',') := by
    induction p.groups with
    | nil => rfl
    | cons group groups ih => simp [ih]
  rw [plain, Separated.text, String.toList_ofList, List.filter_append, hsign, List.filter_append,
    hgroups, ← List.filter_append, hdigits, Separated.digits]

theorem toString_eq (n : Int) :
    toString n = String.ofList (sign (decide (n < 0)) ++ Nat.toDigits 10 n.natAbs) := by
  rw [Int.toString_eq_repr, Int.repr_eq_if]
  by_cases hn : n < 0
  · rw [if_neg (not_le.mpr hn), decide_eq_true hn, Nat.repr_eq_ofList_toDigits,
      show (-n).toNat = n.natAbs by omega, String.ofList_append]
    rfl
  · rw [if_pos (not_lt.mp hn), decide_eq_false hn, Nat.repr_eq_ofList_toDigits,
      show n.toNat = n.natAbs by omega]
    rfl

theorem groupThousands_eq (n : Int) :
    groupThousands n =
      String.ofList (sign (decide (n < 0)) ++ grouped (Nat.toDigits 10 n.natAbs)) := by
  rw [groupThousands, thousandsChars, sign]
  by_cases hn : n < 0
  · simp [hn]
  · simp [hn]

/-- The sign and the digits settle the rest of the text. -/
theorem text_eq_groupThousands {p : Separated} {n : Int} (hsign : p.negative = decide (n < 0))
    (hdigits : p.digits = Nat.toDigits 10 n.natAbs) : p.text = groupThousands n := by
  rw [groupThousands_eq, ← hsign, ← hdigits, Separated.digits,
    grouped_flatten p.first_ne_nil p.first_length p.groups_length, Separated.text]

theorem isDigit_decimal {n : Nat} : ∀ c ∈ Nat.toDigits 10 n, c.isDigit = true := fun _ =>
  Nat.isDigit_of_mem_toDigits (by decide) (by decide)

theorem exists_separated (n : Int) :
    ∃ p : Separated, p.negative = decide (n < 0) ∧ p.digits = Nat.toDigits 10 n.natAbs := by
  obtain ⟨first, groups, hdigits, hfirst, hlength, hgroups⟩ :=
    exists_groups (Nat.toDigits_ne_nil (n := n.natAbs) (b := 10))
  have hdecimal : ∀ c ∈ first ++ groups.flatten, c.isDigit = true := hdigits ▸ isDigit_decimal
  exact ⟨⟨decide (n < 0), first, groups, hfirst, hlength, hgroups, hdecimal⟩, rfl, hdigits.symm⟩

theorem plain_groupThousands (n : Int) : plain (groupThousands n) = toString n := by
  obtain ⟨p, hsign, hdigits⟩ := exists_separated n
  rw [← text_eq_groupThousands hsign hdigits, plain_text, toString_eq, hsign, hdigits]

theorem groupThousands_injective : Function.Injective groupThousands := by
  intro m n h
  have hdecimal : toString m = toString n := by
    rw [← plain_groupThousands, h, plain_groupThousands]
  rwa [Int.toString_eq_repr, Int.toString_eq_repr, Int.repr_inj] at hdecimal

/-- Digits do not begin with a sign. -/
theorem sign_append_inj {a b : Bool} {cs ds : List Char} (hcs : ∀ c ∈ cs, c.isDigit = true)
    (hds : ∀ d ∈ ds, d.isDigit = true) (h : sign a ++ cs = sign b ++ ds) : a = b ∧ cs = ds := by
  cases a <;> cases b <;>
    simp only [sign, Bool.false_eq_true, if_true, if_false, List.nil_append, List.cons_append] at h
  · exact ⟨rfl, h⟩
  · exact absurd (hcs '-' (h ▸ List.mem_cons_self)) (by decide)
  · exact absurd (hds '-' (h ▸ List.mem_cons_self)) (by decide)
  · exact ⟨rfl, List.tail_eq_of_cons_eq h⟩

theorem text_eq_of_plain {p : Separated} {n : Int} (h : plain p.text = toString n) :
    p.text = groupThousands n := by
  rw [plain_text, toString_eq, String.ofList_inj] at h
  obtain ⟨hsign, hdigits⟩ := sign_append_inj p.isDigit isDigit_decimal h
  exact text_eq_groupThousands hsign hdigits

/-- A number is written as a sign, if it is negative, one to three digits, and groups of three
digits after commas. Without the commas that is its decimal, and nothing else of this form is; so
different numbers are written differently. -/
theorem thousands_faithful :
    (∀ n : Int, plain (groupThousands n) = toString n) ∧
    (∀ n : Int, ∃ p : Separated, groupThousands n = p.text ∧ (p.negative = true ↔ n < 0)) ∧
    (∀ (p : Separated) (n : Int), plain p.text = toString n → p.text = groupThousands n) ∧
    Function.Injective groupThousands := by
  refine ⟨plain_groupThousands, ?_, fun p n => text_eq_of_plain, groupThousands_injective⟩
  intro n
  obtain ⟨p, hsign, hdigits⟩ := exists_separated n
  exact ⟨p, (text_eq_groupThousands hsign hdigits).symm, by rw [hsign, decide_eq_true_iff]⟩

/-- The least number of 64 bits and a sign, whose opposite has none. -/
theorem thousands_faithful_least :
    ∃ p : Separated, plain p.text = toString (-9223372036854775808 : Int) ∧
      p.text = "-9,223,372,036,854,775,808" ∧
      groupThousands (-9223372036854775808) = "-9,223,372,036,854,775,808" := by
  let p : Separated := {
    negative := true
    first := ['9']
    groups := [['2', '2', '3'], ['3', '7', '2'], ['0', '3', '6'], ['8', '5', '4'],
      ['7', '7', '5'], ['8', '0', '8']]
    first_ne_nil := by decide
    first_length := by decide
    groups_length := by decide
    isDigit := by simp }
  have hdecimal : plain p.text = toString (-9223372036854775808 : Int) := by decide
  have htext : p.text = "-9,223,372,036,854,775,808" := by decide
  exact ⟨p, hdecimal, htext, (thousands_faithful.2.2.1 p _ hdecimal).symm.trans htext⟩

end PerfGate.Thousands
