import PerfGate.CommandLine.Value
import Mathlib.Data.String.Basic
import Mathlib.Tactic

/-!
# Workloads on the command line

A text with a colon is divided in exactly one way at a colon that no other follows. It names a
workload exactly if neither part of it is empty, whatever other colons the path has.
-/

set_option autoImplicit false

namespace PerfGate.CommandLine

/-! ## The last colon -/

theorem splitLast_eq_none_iff {cs : List Char} : splitLast cs = none ↔ ':' ∉ cs := by
  induction cs with
  | nil => simp [splitLast]
  | cons c rest ih =>
    rw [splitLast]
    cases hrest : splitLast rest with
    | none =>
      by_cases hc : c = ':'
      · simp [hc]
      · simp [hc, Ne.symm hc, ih.mp hrest]
    | some parts =>
      have hmem : ':' ∈ rest := by
        by_contra h
        exact Option.some_ne_none parts (hrest.symm.trans (ih.mpr h))
      simp [hmem]

theorem splitLast_append {front back : List Char} (h : ':' ∉ back) :
    splitLast (front ++ ':' :: back) = some (front, back) := by
  induction front with
  | nil => simp [splitLast, splitLast_eq_none_iff.mpr h]
  | cons c front ih => simp [splitLast, ih]

theorem splitLast_sound {cs front back : List Char} (h : splitLast cs = some (front, back)) :
    cs = front ++ ':' :: back ∧ ':' ∉ back := by
  induction cs generalizing front with
  | nil => simp [splitLast] at h
  | cons c rest ih =>
    rw [splitLast] at h
    cases hrest : splitLast rest with
    | none =>
      by_cases hc : c = ':'
      · simp only [hrest, hc, if_true, Option.some.injEq, Prod.mk.injEq] at h
        obtain ⟨rfl, rfl⟩ := h
        exact ⟨by rw [hc, List.nil_append], splitLast_eq_none_iff.mp hrest⟩
      · simp [hrest, hc] at h
    | some parts =>
      simp only [hrest, Option.some.injEq, Prod.mk.injEq] at h
      obtain ⟨rfl, rfl⟩ := h
      obtain ⟨hparts, hback⟩ := ih hrest
      exact ⟨by rw [hparts, List.cons_append], hback⟩

theorem splitLast_eq_some_iff {cs front back : List Char} :
    splitLast cs = some (front, back) ↔ cs = front ++ ':' :: back ∧ ':' ∉ back := by
  constructor
  · exact splitLast_sound
  · rintro ⟨rfl, hback⟩
    exact splitLast_append hback

/-! ## Workloads -/

/-- The parts of a text before and after its last colon. -/
structure DividedAt (s before after : String) : Prop where
  text : s = before ++ ":" ++ after
  last : ':' ∉ after.toList

theorem dividedAt_iff {s before after : String} :
    DividedAt s before after ↔ splitLast s.toList = some (before.toList, after.toList) := by
  have htext : s = before ++ ":" ++ after ↔
      s.toList = before.toList ++ ':' :: after.toList := by
    rw [← String.toList_inj]
    simp
  rw [splitLast_eq_some_iff, ← htext]
  exact ⟨fun h => ⟨h.text, h.last⟩, fun h => ⟨h.1, h.2⟩⟩

theorem exists_dividedAt {s : String} (h : ':' ∈ s.toList) :
    ∃ before after, DividedAt s before after := by
  cases hsplit : splitLast s.toList with
  | none => exact absurd h (splitLast_eq_none_iff.mp hsplit)
  | some parts =>
    obtain ⟨front, back⟩ := parts
    refine ⟨String.ofList front, String.ofList back, dividedAt_iff.mpr ?_⟩
    rw [hsplit, String.toList_ofList, String.toList_ofList]

theorem DividedAt.unique {s before after before' after' : String} (h : DividedAt s before after)
    (h' : DividedAt s before' after') : before = before' ∧ after = after' := by
  have hparts := (dividedAt_iff.mp h).symm.trans (dividedAt_iff.mp h')
  simp only [Option.some.injEq, Prod.mk.injEq, String.toList_inj] at hparts
  exact hparts

theorem DividedAt.mem {s before after : String} (h : DividedAt s before after) :
    ':' ∈ s.toList := by
  rw [h.text]
  simp

theorem parseWorkload_eq_ok_iff {s : String} {w : Workload} :
    parseWorkload s = .ok w ↔
      DividedAt s w.path w.implementation ∧ w.path ≠ "" ∧ w.implementation ≠ "" := by
  rw [parseWorkload]
  split
  next c path d implementation hsplit =>
    constructor
    · intro h
      obtain rfl := Except.ok.inj h
      refine ⟨dividedAt_iff.mpr ?_, ?_, ?_⟩
      · rw [hsplit, String.toList_ofList, String.toList_ofList]
      · simp [← String.toList_inj]
      · simp [← String.toList_inj]
    · rintro ⟨hdivided, -, -⟩
      have hparts := hsplit.symm.trans (dividedAt_iff.mp hdivided)
      simp only [Option.some.injEq, Prod.mk.injEq] at hparts
      rw [hparts.1, hparts.2, String.ofList_toList, String.ofList_toList]
  next hrefused =>
    constructor
    · intro h
      exact nomatch h
    · rintro ⟨hdivided, hpath, himplementation⟩
      obtain ⟨c, path, hc⟩ := List.exists_cons_of_ne_nil (mt String.toList_eq_nil_iff.mp hpath)
      obtain ⟨d, implementation, hd⟩ :=
        List.exists_cons_of_ne_nil (mt String.toList_eq_nil_iff.mp himplementation)
      have hsplit := dividedAt_iff.mp hdivided
      rw [hc, hd] at hsplit
      exact absurd hsplit (hrefused c path d implementation)

theorem parseWorkload_error {s reason : String} (h : parseWorkload s = .error reason) :
    reason = "expected FILE.sql:IMPLEMENTATION, got " ++ Text.quoted s := by
  rw [parseWorkload] at h
  split at h
  · exact nomatch h
  · exact (Except.error.inj h).symm

/-- A text is a workload exactly if it has a last colon with something on both sides of it; then the
workload is spelled by the text, and every workload whose implementation has no colon is read back
from its spelling. -/
theorem workload_grammar :
    (∀ s : String, ':' ∈ s.toList →
      ∃ before after, DividedAt s before after ∧
        ∀ before' after', DividedAt s before' after' → before' = before ∧ after' = after) ∧
    (∀ s : String, (∃ w, parseWorkload s = .ok w) ↔
      ':' ∈ s.toList ∧ ∃ before after, DividedAt s before after ∧ before ≠ "" ∧ after ≠ "") ∧
    (∀ (s : String) (w : Workload), parseWorkload s = .ok w →
      w.path ++ ":" ++ w.implementation = s ∧ ':' ∉ w.implementation.toList) ∧
    (∀ path implementation : String, path ≠ "" → implementation ≠ "" →
      ':' ∉ implementation.toList →
      parseWorkload (path ++ ":" ++ implementation) = .ok ⟨path, implementation⟩) ∧
    ∀ s reason : String, parseWorkload s = .error reason →
      reason = "expected FILE.sql:IMPLEMENTATION, got " ++ Text.quoted s := by
  refine ⟨?_, ?_, ?_, ?_, fun s reason => parseWorkload_error⟩
  · intro s hcolon
    obtain ⟨before, after, hdivided⟩ := exists_dividedAt hcolon
    exact ⟨before, after, hdivided, fun _ _ h => h.unique hdivided⟩
  · intro s
    constructor
    · rintro ⟨w, hw⟩
      obtain ⟨hdivided, hpath, himplementation⟩ := parseWorkload_eq_ok_iff.mp hw
      exact ⟨hdivided.mem, w.path, w.implementation, hdivided, hpath, himplementation⟩
    · rintro ⟨-, before, after, hdivided, hbefore, hafter⟩
      exact ⟨⟨before, after⟩, parseWorkload_eq_ok_iff.mpr ⟨hdivided, hbefore, hafter⟩⟩
  · intro s w hw
    have hdivided := (parseWorkload_eq_ok_iff.mp hw).1
    exact ⟨hdivided.text.symm, hdivided.last⟩
  · intro path implementation hpath himplementation hcolon
    exact parseWorkload_eq_ok_iff.mpr ⟨⟨rfl, hcolon⟩, hpath, himplementation⟩

/-- A doubled colon before the last one, and characters of several bytes around it. -/
theorem workload_grammar_colons :
    ("a::é" ≠ "" ∧ "ü" ≠ "" ∧ ':' ∉ "ü".toList) ∧
    parseWorkload ("a::é" ++ ":" ++ "ü") = .ok ⟨"a::é", "ü"⟩ := by
  have hpath : "a::é" ≠ "" := by decide
  have himplementation : "ü" ≠ "" := by decide
  have hcolon : ':' ∉ "ü".toList := by decide
  exact ⟨⟨hpath, himplementation, hcolon⟩,
    workload_grammar.2.2.2.1 "a::é" "ü" hpath himplementation hcolon⟩

end PerfGate.CommandLine
