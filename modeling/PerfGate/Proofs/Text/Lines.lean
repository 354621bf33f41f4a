import PerfGate.Proofs.Text.Erasure
import PerfGate.Proofs.Text.Figures
import PerfGate.Report.Refresh

/-!
# Lines of texts

A document is written line by line, each with a line break at its end. If no line holds a break
of its own, the lines that are read back are the lines that were written. Numbers and dates hold
none, and putting a text into title case brings none in.
-/

set_option autoImplicit false

namespace PerfGate.Lines

/-- The lines of a text; what follows the last line break is no line. -/
def linesOf (text : String) : List String :=
  ((text.toList.splitOn '\n').dropLast).map String.ofList

def OneLine (s : String) : Prop := '\n' ∉ s.toList

instance (s : String) : Decidable (OneLine s) := inferInstanceAs (Decidable ('\n' ∉ s.toList))

/-! ## Documents -/

theorem textOfLines_cons (line : String) (rest : List String) :
    (Report.textOfLines (line :: rest)).toList =
      line.toList ++ '\n' :: (Report.textOfLines rest).toList := by
  simp [Report.textOfLines, String.toList_append]

theorem linesOf_textOfLines {lines : List String} (h : ∀ line ∈ lines, OneLine line) :
    linesOf (Report.textOfLines lines) = lines := by
  induction lines with
  | nil => rfl
  | cons line rest ih =>
    have hrest := ih fun l hl => h l (List.mem_cons_of_mem line hl)
    rw [linesOf, textOfLines_cons,
      List.splitOn_append_cons_self_of_not_mem (h line List.mem_cons_self),
      List.dropLast_cons_of_ne_nil (List.splitOn_ne_nil _ _), List.map_cons, String.ofList_toList]
    exact congrArg _ hrest

/-! ## Texts on one line -/

section
variable {s t : String} {cs : List Char}

@[simp] theorem oneLine_append : OneLine (s ++ t) ↔ OneLine s ∧ OneLine t := by
  simp [OneLine, String.toList_append, not_or]

@[simp] theorem oneLine_ofList : OneLine (String.ofList cs) ↔ '\n' ∉ cs := by
  rw [OneLine, String.toList_ofList]

theorem oneLine_intercalate {parts : List String} (hs : OneLine s)
    (h : ∀ part ∈ parts, OneLine part) : OneLine (String.intercalate s parts) := by
  induction parts with
  | nil =>
    rw [String.intercalate_nil]
    decide
  | cons part rest ih =>
    have hpart := h part List.mem_cons_self
    rcases eq_or_ne rest [] with rfl | hne
    · rwa [String.intercalate_singleton]
    · rw [String.intercalate_cons_of_ne_nil hne, oneLine_append, oneLine_append]
      exact ⟨⟨hpart, hs⟩, ih fun p hp => h p (List.mem_cons_of_mem part hp)⟩

end

/-! ## Numbers and dates -/

theorem not_mem_toDigits (n : Nat) : '\n' ∉ Nat.toDigits 10 n :=
  fun h => absurd (Figures.of_mem_toDigits h) (by decide)

theorem oneLine_toString (n : Nat) : OneLine (toString n) := by
  rw [Nat.toString_eq_ofList_toDigits, oneLine_ofList]
  exact not_mem_toDigits n

theorem oneLine_fixed (places : Nat) (x : Float) : OneLine (Decimal.fixed places x) :=
  fun h => absurd (Figures.of_mem_fixed h) (by decide)

theorem oneLine_groupThousands (n : Int) : OneLine (Text.groupThousands n) :=
  fun h => absurd (Figures.of_mem_groupThousands h) (by decide)

theorem oneLine_padded (width n : Nat) : OneLine (padded width n) := by
  simp [padded, not_mem_toDigits]

theorem oneLine_dateTimeText (t : Instant) : OneLine t.dateTimeText := by
  have hyear : OneLine t.date.yearText := by
    rw [Date.yearText]
    split
    · exact oneLine_append.mpr ⟨by decide, oneLine_padded _ _⟩
    · split
      · exact oneLine_append.mpr ⟨by decide, oneLine_padded _ _⟩
      · exact oneLine_padded _ _
  have hblank : OneLine " " := by decide
  have hdash : OneLine "-" := by decide
  have hcolon : OneLine ":" := by decide
  simp [Instant.dateTimeText, Date.text, TimeOfDay.text, oneLine_padded, hyear, hblank, hdash,
    hcolon]

/-! ## Changed texts -/

theorem ofNat_ne_lineBreak {n : Nat} (h : n ≠ 10) : Char.ofNat n ≠ '\n' := by
  intro heq
  rw [Char.ofNat] at heq
  by_cases hvalid : n.isValidChar
  · rw [dif_pos hvalid] at heq
    exact h (congrArg Char.toNat heq)
  · rw [dif_neg hvalid] at heq
    exact absurd heq (by decide)

/-- Whatever the tables of letters hold, it is not a line break. -/
theorem not_mem_mapCase {runs : List Text.CaseRun} {sequences : List (Nat × List Nat)} {c : Char}
    (hruns : ∀ run ∈ runs, 10 < run.target) (hsequences : ∀ entry ∈ sequences, 10 ∉ entry.2)
    (hc : c ≠ '\n') : '\n' ∉ Text.mapCase runs sequences c := by
  rw [Text.mapCase]
  split
  next image himage =>
    obtain ⟨run, hrun, h⟩ := List.exists_of_findSome?_eq_some himage
    have htarget := hruns run hrun
    rw [Text.CaseRun.image?] at h
    split at h
    · obtain rfl := Option.some.inj h
      exact fun hmem => ofNat_ne_lineBreak (by omega) (List.mem_singleton.mp hmem).symm
    · exact nomatch h
  next =>
    split
    next images himages =>
      obtain ⟨front, back, hentries, _⟩ := List.lookup_eq_some_iff.mp himages
      have himages' := hsequences (c.toNat, images) (by simp [hentries])
      intro hmem
      obtain ⟨n, hn, heq⟩ := List.mem_map.mp hmem
      exact ofNat_ne_lineBreak (fun h => himages' (h ▸ hn)) heq
    next => exact fun hmem => hc (List.mem_singleton.mp hmem).symm

theorem not_mem_lower {c : Char} (hc : c ≠ '\n') : '\n' ∉ Text.lower c :=
  not_mem_mapCase (by decide +kernel) (by decide +kernel) hc

theorem not_mem_upper {c : Char} (hc : c ≠ '\n') : '\n' ∉ Text.upper c :=
  not_mem_mapCase (by decide +kernel) (by decide +kernel) hc

theorem not_mem_titleChars {cs : List Char} (insideWord : Bool) (h : '\n' ∉ cs) :
    '\n' ∉ Text.titleChars insideWord cs := by
  induction cs generalizing insideWord with
  | nil => exact List.not_mem_nil
  | cons c rest ih =>
    rw [List.mem_cons, not_or] at h
    obtain ⟨hc, hrest⟩ := h
    rw [Text.titleChars]
    split
    · rw [List.mem_append, not_or]
      refine ⟨?_, ih true hrest⟩
      split
      · exact not_mem_lower (Ne.symm hc)
      · exact not_mem_upper (Ne.symm hc)
    · rw [List.mem_cons, not_or]
      exact ⟨hc, ih false hrest⟩

theorem oneLine_titleCase {s : String} (h : OneLine s) : OneLine (Text.titleCase s) := by
  rw [Text.titleCase, oneLine_ofList]
  exact not_mem_titleChars false h

theorem oneLine_erase {s : String} (pattern : String) (h : OneLine s) :
    OneLine (Text.erase s pattern) :=
  fun hmem => h (Erasure.mem_of_mem_erase hmem)

end PerfGate.Lines
