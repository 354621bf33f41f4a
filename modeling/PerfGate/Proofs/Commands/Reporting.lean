import PerfGate.Commands.Program
import PerfGate.Proofs.Commands.Measuring
import PerfGate.Proofs.Commands.Saving
import PerfGate.Proofs.Results.Join
import PerfGate.Proofs.Results.Scaling

/-!
# The report is written whole or not at all

A report needs results that can be read, at least one of them, comparisons that can be read if
they are given, and a known scale on every comparison. If it has all of that, one file is written
and its text is told; if not, the command fails before it changes a file. A scale that is not
known does no harm on results that are not paired.
-/

set_option autoImplicit false

namespace PerfGate.Reporting

open Dialogue Finishing Measuring Saving

/-! ## Results that are paired -/

/-- A result of which no comparison is made: its time is not positive, or no full refresh goes
with it. -/
def Unpaired (rows : List ResultRow) (row : ResultRow) : Prop :=
  row.time ≤ 0.0 ∨ ∀ full ∈ rows, ¬ Join.Partners row full

instance (rows : List ResultRow) (row : ResultRow) : Decidable (Unpaired rows row) :=
  inferInstanceAs (Decidable (_ ∨ _))

theorem mem_pairComparisons {rows : List ResultRow} {c : ComparisonRow}
    (h : c ∈ pairComparisons rows) :
    ∃ row ∈ rows, ¬ Unpaired rows row ∧ c.scale = row.scale := by
  obtain ⟨row, hrow, full, hfull, hpartners, htime, rfl⟩ := Join.exists_of_mem h
  refine ⟨row, hrow, ?_, rfl⟩
  rintro (hle | hnone)
  · exact htime hle
  · exact hnone full hfull hpartners

/-! ## What a report needs -/

def KnownScale (scale : String) : Prop := scale = "small" ∨ scale = "medium" ∨ scale = "large"

inductive Uses (results : List ResultRow) :
    Option (Except FileFault String) → List ComparisonRow → Prop where
  | given {text : String} {comparisons : List ComparisonRow}
      (parsed : ComparisonRow.parseList text = .ok comparisons) :
      Uses results (some (.ok text)) comparisons
  | paired : Uses results none (pairComparisons results)

structure Reportable (content : Except FileFault String)
    (given : Option (Except FileFault String)) (results : List ResultRow)
    (comparisons : List ComparisonRow) : Prop where
  read : ∃ text, content = .ok text ∧ ResultRow.parseList text = .ok results
  nonempty : results ≠ []
  used : Uses results given comparisons
  known : ∀ row ∈ comparisons, KnownScale row.scale

section
variable {content : Except FileFault String} {given : Option (Except FileFault String)}
  {results results' : List ResultRow} {comparisons comparisons' : List ComparisonRow}

theorem Uses.unique (h : Uses results given comparisons) (h' : Uses results given comparisons') :
    comparisons = comparisons' := by
  cases h with
  | given parsed =>
    cases h' with
    | given parsed' => exact Except.ok.inj (parsed.symm.trans parsed')
  | paired =>
    cases h'
    rfl

theorem Reportable.unique (h : Reportable content given results comparisons)
    (h' : Reportable content given results' comparisons') :
    results = results' ∧ comparisons = comparisons' := by
  obtain ⟨text, rfl, hparsed⟩ := h.read
  obtain ⟨_, htext, hparsed'⟩ := h'.read
  obtain rfl := Except.ok.inj htext
  obtain rfl : results = results' := Except.ok.inj (hparsed.symm.trans hparsed')
  exact ⟨rfl, h.used.unique h'.used⟩

/-- A report can be built exactly of comparisons whose scales are known. -/
theorem refreshReport_cases (results : List ResultRow) (comparisons : List ComparisonRow)
    (generated : Instant) :
    (∀ row ∈ comparisons, KnownScale row.scale) ∧
      (∃ text, Report.refreshReport results comparisons generated = .ok text) ∨
    (¬ ∀ row ∈ comparisons, KnownScale row.scale) ∧
      ∃ fault, Report.refreshReport results comparisons generated = .error fault := by
  rw [Report.refreshReport, aggregate]
  rcases Scaling.scalingGroups_cases comparisons with
    ⟨fault, hunknown, herror⟩ | ⟨groups, hknown, _, hok⟩
  · obtain ⟨before, row, after, rfl, _, hrow, _⟩ := hunknown
    rw [herror]
    refine .inr ⟨fun hall => hrow (hall row ?_), fault, rfl⟩
    simp
  · rw [hok]
    exact .inl ⟨hknown, _, rfl⟩

end

/-! ## Failing quietly -/

section
variable {σ ε α β : Type} {machine : Machine σ} {state next : σ}

def FailsQuietly (machine : Machine σ) (task : ExceptT ε Dialogue α) (state : σ) : Prop :=
  ∃ failure asked last, Takes machine task state (.error failure) asked last ∧
    ∀ r ∈ asked, writes r = false

theorem FailsQuietly.bind {task : ExceptT ε Dialogue α} (h : FailsQuietly machine task state)
    (rest : α → ExceptT ε Dialogue β) : FailsQuietly machine (task >>= rest) state := by
  obtain ⟨failure, asked, last, htakes, hquiet⟩ := h
  exact ⟨failure, asked, last, htakes.bind_error, hquiet⟩

theorem FailsQuietly.after {task : ExceptT ε Dialogue α} {rest : α → ExceptT ε Dialogue β} {a : α}
    {asked : List Request} (first : Takes machine task state (.ok a) asked next)
    (hquiet : ∀ r ∈ asked, writes r = false) (h : FailsQuietly machine (rest a) next) :
    FailsQuietly machine (task >>= rest) state := by
  obtain ⟨failure, others, last, htakes, hothers⟩ := h
  refine ⟨failure, asked ++ others, last, first.bind_ok htakes, ?_⟩
  intro r hr
  rcases List.mem_append.mp hr with hr | hr
  · exact hquiet r hr
  · exact hothers r hr

theorem FailsQuietly.within {job : Job α} (h : FailsQuietly machine job state)
    (context : Fault → Failure) : FailsQuietly machine (Job.within context job) state := by
  obtain ⟨cause, asked, last, htakes, hquiet⟩ := h
  exact ⟨context cause, asked, last, takes_within machine context htakes, hquiet⟩

end

/-! ## One report -/

section
variable {σ : Type} (s : ReportSettings) (machine : Machine σ) (state : σ)

/-- What the file of comparisons reads as, if one is given. It is read after the results. -/
def givenContent : Option (Except FileFault String) :=
  s.comparisons.map fun path => contentOf machine path (afterReading machine s.results state)

abbrev Reports (results : List ResultRow) (comparisons : List ComparisonRow) : Prop :=
  Reportable (contentOf machine s.results state) (givenContent s machine state) results comparisons

/-- The results are at hand, or they cannot be had. -/
theorem loadResults_cases :
    (∃ text results, contentOf machine s.results state = .ok text ∧
      ResultRow.parseList text = .ok results ∧
      Takes machine s.loadResults state (.ok results) [.read s.results]
        (afterReading machine s.results state)) ∨
    (¬ ∃ text results, contentOf machine s.results state = .ok text ∧
      ResultRow.parseList text = .ok results) ∧ FailsQuietly machine s.loadResults state := by
  have hload := takes_within machine .results
    (load_takes machine s.results ResultRow.parseList state)
  cases hdecoded : Document.decoded s.results ResultRow.parseList
    (contentOf machine s.results state) with
  | ok results =>
    rw [hdecoded] at hload
    obtain ⟨text, htext, hparsed⟩ := decoded_eq_ok_iff.mp hdecoded
    exact .inl ⟨text, results, htext, hparsed, hload⟩
  | error cause =>
    rw [hdecoded] at hload
    refine .inr ⟨?_, _, _, _, hload, by simp [writes]⟩
    rintro ⟨text, results, htext, hparsed⟩
    exact nomatch hdecoded.symm.trans (decoded_eq_ok_iff.mpr ⟨text, htext, hparsed⟩)

/-- The comparisons are at hand, or they are given and cannot be had. -/
theorem loadComparisons_cases (results : List ResultRow) :
    (∃ comparisons next, Uses results (givenContent s machine state) comparisons ∧
      Takes machine (s.loadComparisons results) (afterReading machine s.results state)
        (.ok comparisons) (s.comparisons.toList.map .read) next) ∨
    (¬ ∃ comparisons, Uses results (givenContent s machine state) comparisons) ∧
      FailsQuietly machine (s.loadComparisons results)
        (afterReading machine s.results state) := by
  rw [givenContent, ReportSettings.loadComparisons]
  cases s.comparisons with
  | none => exact .inl ⟨_, _, .paired, takes_pure machine _ _⟩
  | some path =>
    have hload := takes_within machine .comparisons
      (load_takes machine path ComparisonRow.parseList (afterReading machine s.results state))
    rw [Option.map_some]
    generalize contentOf machine path (afterReading machine s.results state) = content at hload ⊢
    cases hdecoded : Document.decoded path ComparisonRow.parseList content with
    | ok comparisons =>
      rw [hdecoded] at hload
      obtain ⟨text, rfl, hparsed⟩ := decoded_eq_ok_iff.mp hdecoded
      exact .inl ⟨comparisons, _, .given hparsed, hload⟩
    | error cause =>
      rw [hdecoded] at hload
      refine .inr ⟨?_, _, _, _, hload, by simp [writes]⟩
      rintro ⟨comparisons, huses⟩
      cases huses with
      | given parsed => exact nomatch hdecoded.symm.trans (decoded_eq_ok_iff.mpr ⟨_, rfl, parsed⟩)

def reportPath (generated : Instant) : String :=
  Path.joined s.output (Report.refreshReportName generated)

def publishing (results : List ResultRow) (comparisons : List ComparisonRow)
    (generated : Instant) (text : String) : List Request :=
  .say (.found results.length comparisons.length) :: .now ::
    (stored (reportPath s generated) text ++
      [.say (.reportSaved (reportPath s generated)), .say (.report text)])

theorem publish_eq (results : List ResultRow) (comparisons : List ComparisonRow) :
    s.publish results comparisons = (do
      ExceptT.lift (say (.found results.length comparisons.length))
      let generated ← ExceptT.lift (request .now)
      let text ← ExceptT.mk (pure (Report.refreshReport results comparisons generated))
      Document.save (reportPath s generated) text
      ExceptT.lift (say (.reportSaved (reportPath s generated)))
      ExceptT.lift (say (.report text))
      pure 0) := rfl

theorem publish_cases (hsaves : Saves machine) (results : List ResultRow)
    (comparisons : List ComparisonRow) :
    (∀ row ∈ comparisons, KnownScale row.scale) ∧
      (∃ generated text next, Report.refreshReport results comparisons generated = .ok text ∧
        Takes machine (Job.within .fault (s.publish results comparisons)) state (.ok 0)
          (publishing s results comparisons generated text) next) ∨
    (¬ ∀ row ∈ comparisons, KnownScale row.scale) ∧
      FailsQuietly machine (Job.within .fault (s.publish results comparisons)) state := by
  obtain ⟨told, hfound⟩ := say_takes (ε := Fault) machine
    (.found results.length comparisons.length) state
  obtain ⟨generated, dated, hnow⟩ := now_takes (ε := Fault) machine told
  rcases refreshReport_cases results comparisons generated with
    ⟨hknown, text, hbuilt⟩ | ⟨hunknown, fault, hbuilt⟩
  · obtain ⟨saved, hsave⟩ := save_takes hsaves (reportPath s generated) text dated
    obtain ⟨announced, hsaid⟩ := say_takes (ε := Fault) machine
      (.reportSaved (reportPath s generated)) saved
    obtain ⟨last, hechoed⟩ := say_takes (ε := Fault) machine (.report text) announced
    have hpublish : Takes machine (s.publish results comparisons) state (.ok 0)
        (publishing s results comparisons generated text) last := by
      rw [publish_eq]
      refine Takes.asking (hfound.bind_ok (hnow.bind_ok
        ((takes_except machine hbuilt dated).bind_ok (hsave.bind_ok (hsaid.bind_ok
          (hechoed.bind_ok (takes_pure machine 0 last))))))) ?_
      simp [publishing]
    exact .inl ⟨hknown, generated, text, last, hbuilt, takes_within machine .fault hpublish⟩
  · have hfails : FailsQuietly machine (s.publish results comparisons) state := by
      rw [publish_eq]
      apply FailsQuietly.after hfound (by simp [writes])
      apply FailsQuietly.after hnow (by simp [writes])
      exact ⟨_, _, _, (takes_except machine hbuilt dated).bind_error, by simp⟩
    exact .inr ⟨hunknown, hfails.within .fault⟩

/-- With results at hand, all depends on the comparisons. -/
theorem compare_cases (hsaves : Saves machine) (results : List ResultRow) :
    (∃ comparisons generated text last,
      Uses results (givenContent s machine state) comparisons ∧
      (∀ row ∈ comparisons, KnownScale row.scale) ∧
      Report.refreshReport results comparisons generated = .ok text ∧
      Takes machine (do
        let comparisons ← s.loadComparisons results
        Job.within .fault (s.publish results comparisons))
        (afterReading machine s.results state) (.ok 0)
        (s.comparisons.toList.map .read ++ publishing s results comparisons generated text) last) ∨
    (¬ ∃ comparisons, Uses results (givenContent s machine state) comparisons ∧
      ∀ row ∈ comparisons, KnownScale row.scale) ∧
      FailsQuietly machine (do
        let comparisons ← s.loadComparisons results
        Job.within .fault (s.publish results comparisons))
        (afterReading machine s.results state) := by
  rcases loadComparisons_cases s machine state results with
    ⟨comparisons, next, huses, hloaded⟩ | ⟨hnone, hfails⟩
  swap
  · refine .inr ⟨?_, hfails.bind _⟩
    rintro ⟨comparisons, huses, _⟩
    exact hnone ⟨comparisons, huses⟩
  rcases publish_cases s machine next hsaves results comparisons with
    ⟨hknown, generated, text, last, hbuilt, hpublished⟩ | ⟨hunknown, hfails⟩
  · exact .inl ⟨comparisons, generated, text, last, huses, hknown, hbuilt,
      hloaded.bind_ok hpublished⟩
  · have hquiet : ∀ r ∈ s.comparisons.toList.map Request.read, writes r = false := by
      simp [writes]
    refine .inr ⟨?_, FailsQuietly.after hloaded hquiet hfails⟩
    rintro ⟨others, huses', hknown⟩
    obtain rfl := huses.unique huses'
    exact hunknown hknown

theorem execute_eq : s.execute = (do
    let results ← s.loadResults
    if results = [] then throw (.fault .noResults)
    else
      let comparisons ← s.loadComparisons results
      Job.within .fault (s.publish results comparisons)) := by
  rw [ReportSettings.execute]
  congr 1
  funext results
  cases results <;> rfl

/-- The report is written and told, or the command lacks something and fails. -/
theorem execute_cases (hsaves : Saves machine) :
    (∃ results comparisons generated text last,
      Reports s machine state results comparisons ∧
      Report.refreshReport results comparisons generated = .ok text ∧
      Takes machine s.execute state (.ok 0)
        ([.read s.results] ++ (s.comparisons.toList.map .read ++
          publishing s results comparisons generated text)) last) ∨
    (¬ ∃ results comparisons, Reports s machine state results comparisons) ∧
      FailsQuietly machine s.execute state := by
  rw [execute_eq]
  rcases loadResults_cases s machine state with
    ⟨text, results, hread, hparsed, hloaded⟩ | ⟨hnone, hfails⟩
  swap
  · refine .inr ⟨?_, hfails.bind _⟩
    rintro ⟨results, comparisons, h⟩
    obtain ⟨text, hread, hparsed⟩ := h.read
    exact hnone ⟨text, results, hread, hparsed⟩
  -- Whatever a report may be made of, its results are those that have been read.
  have hsame {others : List ResultRow} {comparisons : List ComparisonRow}
      (h : Reports s machine state others comparisons) : results = others := by
    obtain ⟨text', hread', hparsed'⟩ := h.read
    obtain rfl := Except.ok.inj (hread.symm.trans hread')
    exact Except.ok.inj (hparsed.symm.trans hparsed')
  by_cases hempty : results = []
  · refine .inr ⟨?_, FailsQuietly.after hloaded (by simp [writes]) ?_⟩
    · rintro ⟨others, comparisons, h⟩
      obtain rfl := hsame h
      exact h.nonempty hempty
    · rw [if_pos hempty]
      exact ⟨.fault .noResults, [], _, ⟨rfl, rfl⟩, by simp⟩
  rcases compare_cases s machine state hsaves results with
    ⟨comparisons, generated, document, last, huses, hknown, hbuilt, hdone⟩ | ⟨hnone, hfails⟩
  · refine .inl ⟨results, comparisons, generated, document, last,
      ⟨⟨text, hread, hparsed⟩, hempty, huses, hknown⟩, hbuilt, hloaded.bind_ok ?_⟩
    rw [if_neg hempty]
    exact hdone
  · refine .inr ⟨?_, FailsQuietly.after hloaded (by simp [writes]) ?_⟩
    · rintro ⟨others, comparisons, h⟩
      obtain rfl := hsame h
      exact hnone ⟨comparisons, h.used, h.known⟩
    · rw [if_neg hempty]
      exact hfails

end

/-! ## All or nothing -/

def told : Request → Option String
  | .say (.report text) => some text
  | _ => none

structure Publishes (s : ReportSettings) (results : List ResultRow)
    (comparisons : List ComparisonRow) (generated : Instant) (text : String)
    (result : Except Failure Nat) (asked : List Request) : Prop where
  built : Report.refreshReport results comparisons generated = .ok text
  written : asked.filter writes = stored (reportPath s generated) text
  echoed : asked.filterMap told = [text]
  status : result = .ok 0

theorem filter_stored (path text : String) : (stored path text).filter writes = stored path text :=
  List.filter_eq_self.mpr fun r hr => by
    rcases mem_stored hr with ⟨directory, rfl⟩ | rfl <;> rfl

theorem filterMap_stored (path text : String) : (stored path text).filterMap told = [] :=
  List.filterMap_eq_nil_iff.mpr fun r hr => by
    rcases mem_stored hr with ⟨directory, rfl⟩ | rfl <;> rfl

theorem publishes {s : ReportSettings} {results : List ResultRow}
    {comparisons : List ComparisonRow} {generated : Instant} {text : String}
    (hbuilt : Report.refreshReport results comparisons generated = .ok text)
    {loading : List Request} (hquiet : ∀ r ∈ loading, writes r = false ∧ told r = none) :
    Publishes s results comparisons generated text (.ok 0)
      (loading ++ publishing s results comparisons generated text) := by
  have hwrites : loading.filter writes = [] :=
    List.filter_eq_nil_iff.mpr fun r hr => by simp [(hquiet r hr).1]
  have htells : loading.filterMap told = [] :=
    List.filterMap_eq_nil_iff.mpr fun r hr => (hquiet r hr).2
  constructor
  · exact hbuilt
  · rw [List.filter_append, hwrites, publishing]
    simp [filter_stored, writes]
  · rw [List.filterMap_append, htells, publishing, List.filterMap_cons_none rfl,
      List.filterMap_cons_none rfl, List.filterMap_append, filterMap_stored]
    rfl
  · rfl

/-- Scales that are not known do no harm on results that are not paired. -/
theorem reportable_paired {content : Except FileFault String} {text : String}
    {results : List ResultRow} (hread : content = .ok text)
    (hparsed : ResultRow.parseList text = .ok results) (hne : results ≠ [])
    (hunpaired : ∀ row ∈ results, ¬ KnownScale row.scale → Unpaired results row) :
    Reportable content none results (pairComparisons results) := by
  refine ⟨⟨text, hread, hparsed⟩, hne, .paired, ?_⟩
  intro c hc
  obtain ⟨row, hrow, hpaired, hscale⟩ := mem_pairComparisons hc
  rw [hscale]
  by_contra hunknown
  exact hpaired (hunpaired row hrow hunknown)

def exampleResults : String :=
  "[\x7b\"scenario\":\"s\",\"test_name\":\"t\",\"data_scale\":\"huge\"," ++
    "\"operation_type\":\"o\",\"rows_affected\":1,\"execution_time_ms\":3\x7d]"

def exampleMachine : Machine Unit :=
  obliging exampleResults fun state => (⟨.status 0, "", 0.0⟩, state)

def exampleOptions : CommandLine.ReportOptions := ⟨"results.json", none, some "out"⟩

end PerfGate.Reporting
