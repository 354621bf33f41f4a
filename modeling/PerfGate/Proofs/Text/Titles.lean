import PerfGate.Text.TitleCase
import Mathlib

/-!
# Titles

All that a title remembers of what it has read is whether that ended in a letter. So a text that is
cut where no word goes on is titled in parts. On characters of seven bits the tables of letters
are the letters of the alphabet and their two cases, each character has one image, and a title
is known place by place: it keeps what is no letter, raises the letters that begin words and lowers
the others, whatever case they came in.
-/

set_option autoImplicit false

namespace PerfGate.Titles

open Text (CaseRun isAlphabetic lower mapCase titleCase titleChars upper)

/-! ## Texts in parts -/

def insideAfter (inside : Bool) (cs : List Char) : Bool :=
  (cs.getLast?.map isAlphabetic).getD inside

theorem insideAfter_cons (inside : Bool) (c : Char) (cs : List Char) :
    insideAfter inside (c :: cs) = insideAfter (isAlphabetic c) cs := by
  rw [insideAfter, insideAfter, List.getLast?_cons]
  cases cs.getLast? <;> rfl

theorem titleChars_append (inside : Bool) (cs ds : List Char) :
    titleChars inside (cs ++ ds) =
      titleChars inside cs ++ titleChars (insideAfter inside cs) ds := by
  induction cs generalizing inside with
  | nil => rfl
  | cons c cs ih =>
    rw [List.cons_append, titleChars, titleChars, insideAfter_cons]
    by_cases hc : isAlphabetic c = true
    · rw [if_pos hc, if_pos hc, ih, hc, List.append_assoc]
    · rw [if_neg hc, if_neg hc, ih, Bool.eq_false_iff.mpr hc, List.cons_append]

/-- A text that is empty or does not end in a letter. -/
def Cut (s : String) : Prop :=
  s = "" ∨ ∃ c, s.toList.getLast? = some c ∧ isAlphabetic c = false

theorem insideAfter_of_cut {s : String} (h : Cut s) : insideAfter false s.toList = false := by
  rcases h with rfl | ⟨c, hlast, hc⟩
  · rfl
  · rw [insideAfter, hlast, Option.map_some, Option.getD_some, hc]

theorem titleCase_append {s : String} (h : Cut s) (t : String) :
    titleCase (s ++ t) = titleCase s ++ titleCase t := by
  rw [titleCase, String.toList_append, titleChars_append, insideAfter_of_cut h,
    String.ofList_append, titleCase, titleCase]

/-! ## Characters of seven bits -/

def Ascii (cs : List Char) : Prop := ∀ c ∈ cs, c.toNat < 128

section
variable {c d : Char} {cs : List Char} {inside : Bool}

/-- What holds of all numbers of seven bits holds of the characters. -/
theorem of_seven_bits {p : Char → Prop} (h : ∀ n < 128, p (Char.ofNat n)) (hc : c.toNat < 128) :
    p c :=
  Char.ofNat_toNat c ▸ h c.toNat hc

theorem isAlphabetic_eq (hc : c.toNat < 128) : isAlphabetic c = c.isAlpha :=
  of_seven_bits (p := fun c => isAlphabetic c = c.isAlpha) (by decide) hc

/-- Tables in which only the first run has characters of seven bits map these by that run. -/
theorem mapCase_eq {run : CaseRun} {runs : List CaseRun} {sequences : List (Nat × List Nat)}
    (hruns : ∀ run ∈ runs, 128 ≤ run.first) (hsequences : ∀ entry ∈ sequences, 128 ≤ entry.1)
    (hc : c.toNat < 128) :
    mapCase (run :: runs) sequences c = [((run.image? c.toNat).map Char.ofNat).getD c] := by
  have hrest : runs.findSome? (·.image? c.toNat) = none := by
    apply List.findSome?_eq_none_iff.mpr
    intro run hrun
    have hfirst := hruns run hrun
    rw [CaseRun.image?, if_neg (by omega)]
  have hlookup : sequences.lookup c.toNat = none := by
    apply List.lookup_eq_none_iff.mpr
    intro entry hentry
    have hkey := hsequences entry hentry
    rw [bne_iff_ne]
    omega
  rw [mapCase, List.findSome?_cons, hrest, hlookup]
  cases run.image? c.toNat <;> rfl

theorem lower_eq (hc : c.toNat < 128) : lower c = [c.toLower] := by
  refine (mapCase_eq (by decide +kernel) (by decide +kernel) hc).trans (congrArg (fun d => [d]) ?_)
  exact of_seven_bits (p := fun c =>
    ((CaseRun.image? ⟨0x41, 0x5A, 1, 0x61⟩ c.toNat).map Char.ofNat).getD c = c.toLower)
    (by decide) hc

theorem upper_eq (hc : c.toNat < 128) : upper c = [c.toUpper] := by
  refine (mapCase_eq (by decide +kernel) (by decide +kernel) hc).trans (congrArg (fun d => [d]) ?_)
  exact of_seven_bits (p := fun c =>
    ((CaseRun.image? ⟨0x61, 0x7A, 1, 0x41⟩ c.toNat).map Char.ofNat).getD c = c.toUpper)
    (by decide) hc

/-! ## Letters in their cases -/

def cased (inside : Bool) (c : Char) : Char := if inside then c.toLower else c.toUpper

theorem cased_lt (hc : c.toNat < 128) : (cased inside c).toNat < 128 := by
  refine of_seven_bits (p := fun c => (cased inside c).toNat < 128) ?_ hc
  cases inside <;> decide

theorem cased_cased {again : Bool} (hc : c.toNat < 128) :
    cased again (cased inside c) = cased again c := by
  refine of_seven_bits (p := fun c => cased again (cased inside c) = cased again c) ?_ hc
  cases again <;> cases inside <;> decide

theorem isAlpha_cased (hc : c.toNat < 128) : (cased inside c).isAlpha = c.isAlpha := by
  refine of_seven_bits (p := fun c => (cased inside c).isAlpha = c.isAlpha) ?_ hc
  cases inside <;> decide

theorem cased_of_not_isAlpha (hc : c.toNat < 128) (h : c.isAlpha = false) :
    cased inside c = c := by
  refine of_seven_bits (p := fun c => c.isAlpha = false → cased inside c = c) ?_ hc h
  cases inside <;> decide

theorem isUpper_cased (hc : c.toNat < 128) (h : c.isAlpha = true) :
    (cased inside c).isUpper = !inside := by
  refine of_seven_bits (p := fun c => c.isAlpha = true → (cased inside c).isUpper = !inside) ?_ hc h
  cases inside <;> decide

theorem isLower_cased (hc : c.toNat < 128) (h : c.isAlpha = true) :
    (cased inside c).isLower = inside := by
  refine of_seven_bits (p := fun c => c.isAlpha = true → (cased inside c).isLower = inside) ?_ hc h
  cases inside <;> decide

/-! ## Titles of characters of seven bits -/

theorem titleChars_cons (hc : c.toNat < 128) :
    titleChars inside (c :: cs) = cased inside c :: titleChars c.isAlpha cs := by
  rw [titleChars, isAlphabetic_eq hc, lower_eq hc, upper_eq hc]
  by_cases h : c.isAlpha = true
  · rw [if_pos h, h]
    cases inside <;> rfl
  · rw [if_neg h, Bool.eq_false_iff.mpr h, cased_of_not_isAlpha hc (Bool.eq_false_iff.mpr h)]

theorem titleChars_length (h : Ascii cs) : (titleChars inside cs).length = cs.length := by
  induction cs generalizing inside with
  | nil => rfl
  | cons c cs ih =>
    obtain ⟨hc, hcs⟩ := List.forall_mem_cons.mp h
    rw [titleChars_cons hc, List.length_cons, ih hcs, List.length_cons]

def insideAt (inside : Bool) (cs : List Char) : Nat → Bool
  | 0 => inside
  | i + 1 => cs[i]?.any Char.isAlpha

theorem titleChars_getElem? (h : Ascii cs) (i : Nat) :
    (titleChars inside cs)[i]? = cs[i]?.map (cased (insideAt inside cs i)) := by
  induction cs generalizing inside i with
  | nil => rfl
  | cons c cs ih =>
    obtain ⟨hc, hcs⟩ := List.forall_mem_cons.mp h
    rw [titleChars_cons hc]
    cases i with
    | zero => rfl
    | succ i =>
      rw [List.getElem?_cons_succ, List.getElem?_cons_succ, ih hcs]
      cases i <;> rfl

theorem titleChars_titleChars (h : Ascii cs) :
    titleChars inside (titleChars inside cs) = titleChars inside cs := by
  induction cs generalizing inside with
  | nil => rfl
  | cons c cs ih =>
    obtain ⟨hc, hcs⟩ := List.forall_mem_cons.mp h
    rw [titleChars_cons hc, titleChars_cons (cased_lt hc), cased_cased hc, isAlpha_cased hc, ih hcs]

theorem titleChars_toLower (h : Ascii cs) :
    titleChars inside (cs.map Char.toLower) = titleChars inside cs := by
  induction cs generalizing inside with
  | nil => rfl
  | cons c cs ih =>
    obtain ⟨hc, hcs⟩ := List.forall_mem_cons.mp h
    have hlower : c.toLower = cased true c := rfl
    rw [List.map_cons, hlower, titleChars_cons (cased_lt hc), cased_cased hc, isAlpha_cased hc,
      ih hcs, titleChars_cons hc]

/-! ## Places in titles -/

/-- The first place, and every place after what is no letter. -/
def Begins (cs : List Char) (i : Nat) : Prop :=
  i = 0 ∨ ∃ c : Char, cs[i - 1]? = some c ∧ c.isAlpha = false

structure Titled (cs ds : List Char) : Prop where
  length : ds.length = cs.length
  others : ∀ (i : Nat) (c : Char), cs[i]? = some c → c.isAlpha = false → ds[i]? = some c
  letters : ∀ (i : Nat) (c : Char), cs[i]? = some c → c.isAlpha = true → ∃ d, ds[i]? = some d ∧
    d.toLower = c.toLower ∧ (d.isUpper = true ↔ Begins cs i) ∧ (d.isLower = true ↔ ¬ Begins cs i)

theorem begins_iff {i : Nat} (h : cs[i]? = some c) : Begins cs i ↔ insideAt false cs i = false := by
  cases i with
  | zero => simp [Begins, insideAt]
  | succ i =>
    have hlength : i + 1 < cs.length := (List.getElem?_eq_some_iff.mp h).1
    have hbefore : cs[i]? = some cs[i] := List.getElem?_eq_getElem (by omega)
    simp [Begins, insideAt, hbefore]

theorem titled (h : Ascii cs) : Titled cs (titleChars false cs) where
  length := titleChars_length h
  others i c hc hother := by
    have hbits := h c (List.mem_of_getElem? hc)
    rw [titleChars_getElem? h, hc, Option.map_some, cased_of_not_isAlpha hbits hother]
  letters i c hc hletter := by
    have hbits := h c (List.mem_of_getElem? hc)
    have hlower : cased true (cased (insideAt false cs i) c) = cased true c := cased_cased hbits
    refine ⟨cased (insideAt false cs i) c, ?_, hlower, ?_, ?_⟩
    · rw [titleChars_getElem? h, hc, Option.map_some]
    · rw [isUpper_cased hbits hletter, begins_iff hc, Bool.not_eq_true']
    · rw [isLower_cased hbits hletter, begins_iff hc, Bool.not_eq_false]

/-! ## Texts up to case -/

theorem toNat_lt_of_toLower (h : c.toLower.toNat < 128) : c.toNat < 128 := by
  by_contra hc
  have hbeyond : ¬ (c.val ≥ 'A'.val ∧ c.val ≤ 'Z'.val) := by
    rintro ⟨-, hle⟩
    have hle : c.toNat ≤ 90 := hle
    omega
  rw [Char.toLower, dif_neg hbeyond] at h
  exact hc h

theorem ascii_toLower_iff : Ascii (cs.map Char.toLower) ↔ Ascii cs := by
  rw [Ascii, List.forall_mem_map]
  constructor
  · intro h c hc
    exact toNat_lt_of_toLower (h c hc)
  · intro h c hc
    have hlt : (cased true c).toNat < 128 := cased_lt (h c hc)
    exact hlt

theorem titleChars_of_toLower {ds : List Char} (h : Ascii cs)
    (hlower : ds.map Char.toLower = cs.map Char.toLower) :
    titleChars inside ds = titleChars inside cs := by
  have hds : Ascii ds := ascii_toLower_iff.mp (hlower ▸ ascii_toLower_iff.mpr h)
  rw [← titleChars_toLower hds, hlower, titleChars_toLower h]

end

/-- A text that is cut where no word goes on is titled in parts. A text of characters of seven
bits keeps its length and what is no letter, and each letter is upper case if it begins a word and
lower case if it does not; so a title is its own title, and the case of the text is lost. -/
theorem titles_by_words :
    (∀ s t : String, Cut s → titleCase (s ++ t) = titleCase s ++ titleCase t) ∧
    ∀ s : String, Ascii s.toList →
      Titled s.toList (titleCase s).toList ∧ titleCase (titleCase s) = titleCase s ∧
      ∀ t : String, t.toLower = s.toLower → titleCase t = titleCase s := by
  refine ⟨fun s t hcut => titleCase_append hcut t, ?_⟩
  intro s hs
  refine ⟨?_, ?_, ?_⟩
  · rw [titleCase, String.toList_ofList]
    exact titled hs
  · simp only [titleCase, String.toList_ofList, titleChars_titleChars hs]
  · intro t hlower
    have hchars : t.toList.map Char.toLower = s.toList.map Char.toLower := by
      rw [← String.toList_map, ← String.toList_map]
      exact congrArg String.toList hlower
    rw [titleCase, titleCase, titleChars_of_toLower hs hchars]

/-- A letter of two characters in upper case, and one that comes after a digit. -/
theorem titles_by_words_parts :
    (Cut "straße " ∧ Ascii "bulk_1k ROWS".toList) ∧
    titleCase ("straße " ++ "ßa") = "Straße " ++ "SSa" ∧
    titleCase (titleCase "bulk_1k ROWS") = "Bulk_1K Rows" ∧
    titleCase "BULK_1K rows" = "Bulk_1K Rows" := by
  have hcut : Cut "straße " := .inr ⟨' ', by decide, by decide⟩
  have hbits : Ascii "bulk_1k ROWS".toList := by simp [Ascii]
  have htitle : titleCase "bulk_1k ROWS" = "Bulk_1K Rows" := by decide
  have hcase : "BULK_1K rows".toLower = "bulk_1k ROWS".toLower := by
    simp [String.toLower, ← String.toList_inj]
  obtain ⟨-, htwice, hlower⟩ := titles_by_words.2 "bulk_1k ROWS" hbits
  refine ⟨⟨hcut, hbits⟩, ?_, htwice.trans htitle, (hlower "BULK_1K rows" hcase).trans htitle⟩
  exact (titles_by_words.1 "straße " "ßa" hcut).trans (by decide)

end PerfGate.Titles
