import PerfGate.Commands.Documents
import PerfGate.Measurement.Trial
import PerfGate.Proofs.Commands.Saving
import PerfGate.Proofs.Machine.Conduct
import PerfGate.Proofs.Toml.Distinct
import PerfGate.Proofs.Verdict.Classes
import Mathlib

/-!
# Partial configurations

A document may give any of the nine settings, in any order and among other keys and tables.
What it gives is what the configuration has, and the defaults stand for the rest. Whether the
configuration is accepted is a matter of the settings together, so a default counts like a
given value; what is accepted can be run and judged with.
-/

set_option autoImplicit false

namespace PerfGate.Config

open Toml (Entries)

/-! ## Settings that are given -/

structure Given where
  iterations : Option Nat
  warmup : Option Nat
  client : Option String
  database : Option String
  threshold : Option Float
  baseline : Option String
  benchmarks : Option (List String)
  resultsDir : Option String
  outputDir : Option String

def Given.config (given : Given) : Config where
  runner :=
    { iterations := given.iterations.getD 10
      warmup := given.warmup.getD 2
      client := given.client.getD "psql"
      database := given.database }
  check :=
    { threshold := given.threshold.getD 0.10
      baseline := given.baseline.getD "baseline.json"
      benchmarks :=
        given.benchmarks.getD ["single_row_update", "cascade_10_entities", "bulk_1k_rows"]
      resultsDir := given.resultsDir.getD "." }
  report := { outputDir := given.outputDir.getD "results" }

def IsCount (n : Nat) (v : Toml.Value) : Prop :=
  v = .integer n

/-- A whole number stands for the real number nearest to it. -/
def IsReal (x : Float) (v : Toml.Value) : Prop :=
  v = .real x ∨ ∃ n : Int, v = .integer n ∧ x = Float.ofInt n

def IsText (s : String) (v : Toml.Value) : Prop :=
  v = .text s

def IsTexts (ss : List String) (v : Toml.Value) : Prop :=
  v = .array (ss.map .text)

/-- A key is given a value of its type, or it does not occur. -/
def Gives {α : Type} (entries : Entries) (key : String) (stands : α → Toml.Value → Prop) :
    Option α → Prop
  | some a => ∃ v, (key, v) ∈ entries ∧ stands a v
  | none => ∀ v, (key, v) ∉ entries

/-- The settings of a section, which is a table however it is written, or does not occur. -/
def HasSection (root : Entries) (name : String) (entries : Entries) : Prop :=
  (∃ origin, (name, .table origin entries) ∈ root) ∨ (entries = [] ∧ ∀ v, (name, v) ∉ root)

/-- A document that gives these settings. About other keys and tables nothing is said. -/
structure Presents (root : Entries) (given : Given) (runner regression report : Entries) :
    Prop where
  inRunner : HasSection root "runner" runner
  inRegression : HasSection root "regression" regression
  inReport : HasSection root "report" report
  iterations : Gives runner "iterations" IsCount given.iterations
  warmup : Gives runner "warmup" IsCount given.warmup
  client : Gives runner "psql" IsText given.client
  database : Gives runner "database" IsText given.database
  threshold : Gives regression "threshold" IsReal given.threshold
  baseline : Gives regression "baseline" IsText given.baseline
  benchmarks : Gives regression "benchmarks" IsTexts given.benchmarks
  resultsDir : Gives regression "results_dir" IsText given.resultsDir
  outputDir : Gives report "output_dir" IsText given.outputDir

/-! ## Decoding -/

theorem IsCount.decoded (n : Nat) (v : Toml.Value) (h : IsCount n v) : count v = some n := by
  subst h
  simp [count]

theorem IsReal.decoded (x : Float) (v : Toml.Value) (h : IsReal x v) : real v = some x := by
  obtain rfl | ⟨n, rfl, rfl⟩ := h <;> rfl

theorem IsText.decoded (s : String) (v : Toml.Value) (h : IsText s v) : text v = some s := by
  subst h
  rfl

theorem IsTexts.decoded (ss : List String) (v : Toml.Value) (h : IsTexts ss v) :
    texts v = some ss := by
  subst h
  rw [texts]
  induction ss with
  | nil => rfl
  | cons s ss ih => simp [ih, text]

section
variable {root entries : Entries} {α β : Type}

theorem sectionOf_eq {name : String} (hroot : root.Distinct) (h : HasSection root name entries) :
    sectionOf root name = some (.named entries) ∧ entries.Distinct := by
  rw [sectionOf]
  obtain ⟨origin, hmem⟩ | ⟨rfl, hnone⟩ := h
  · rw [hroot.lookup_eq_some_iff.mpr hmem]
    exact ⟨rfl, Toml.Entries.distinct_of_table (hroot.values _ hmem)⟩
  · rw [Toml.Entries.lookup_eq_none_iff.mpr hnone]
    exact ⟨rfl, Toml.Entries.distinct_nil⟩

theorem setting_eq {key : String} {stands : α → Toml.Value → Prop} {given : Option α}
    {decode : Toml.Value → Option β} {f : α → β} (hentries : entries.Distinct)
    (hdecode : ∀ a v, stands a v → decode v = some (f a)) (h : Gives entries key stands given)
    (index : Nat) (default : β) :
    (Section.named entries).setting key index decode default =
      some ((given.map f).getD default) := by
  rw [Section.setting, Section.value?]
  cases given with
  | none => rw [Toml.Entries.lookup_eq_none_iff.mpr h]; rfl
  | some a =>
    obtain ⟨v, hmem, hstands⟩ := h
    rw [hentries.lookup_eq_some_iff.mpr hmem]
    exact hdecode a v hstands

/-- A setting whose value is kept as it is read. -/
theorem setting_eq_getD {key : String} {stands : α → Toml.Value → Prop} {given : Option α}
    {decode : Toml.Value → Option α} (hentries : entries.Distinct)
    (hdecode : ∀ a v, stands a v → decode v = some a) (h : Gives entries key stands given)
    (index : Nat) (default : α) :
    (Section.named entries).setting key index decode default = some (given.getD default) := by
  simpa using setting_eq (f := id) hentries hdecode h index default

end

section
variable {root runner regression report : Entries} {given : Given}

theorem runnerConfig_eq (h : Presents root given runner regression report)
    (hdistinct : runner.Distinct) : runnerConfig (.named runner) = some given.config.runner := by
  have hdatabase : (Section.named runner).setting "database" 3 (fun v => (text v).map some) none =
      some given.database := by
    rw [setting_eq (f := some) hdistinct
      (fun s v hv => by rw [IsText.decoded s v hv]; rfl) h.database 3 none]
    cases given.database <;> rfl
  simp only [runnerConfig, setting_eq_getD hdistinct IsCount.decoded h.iterations,
    setting_eq_getD hdistinct IsCount.decoded h.warmup,
    setting_eq_getD hdistinct IsText.decoded h.client, hdatabase]
  rfl

theorem checkConfig_eq (h : Presents root given runner regression report)
    (hdistinct : regression.Distinct) :
    checkConfig (.named regression) = some given.config.check := by
  simp only [checkConfig, setting_eq_getD hdistinct IsReal.decoded h.threshold,
    setting_eq_getD hdistinct IsText.decoded h.baseline,
    setting_eq_getD hdistinct IsTexts.decoded h.benchmarks,
    setting_eq_getD hdistinct IsText.decoded h.resultsDir]
  rfl

theorem reportConfig_eq (h : Presents root given runner regression report)
    (hdistinct : report.Distinct) : reportConfig (.named report) = some given.config.report := by
  simp only [reportConfig, setting_eq_getD hdistinct IsText.decoded h.outputDir]
  rfl

theorem ofEntries_eq (hroot : root.Distinct) (h : Presents root given runner regression report) :
    ofEntries root = some given.config := by
  obtain ⟨hrunner, drunner⟩ := sectionOf_eq hroot h.inRunner
  obtain ⟨hregression, dregression⟩ := sectionOf_eq hroot h.inRegression
  obtain ⟨hreport, dreport⟩ := sectionOf_eq hroot h.inReport
  simp only [ofEntries, hrunner, hregression, hreport, Option.bind_eq_bind, Option.bind_some,
    runnerConfig_eq h drunner, checkConfig_eq h dregression, reportConfig_eq h dreport]
  rfl

end

/-! ## Acceptance -/

structure Startable (c : Config) : Prop where
  iterations : 1 ≤ c.runner.iterations
  finite : c.check.threshold.isFinite = true
  nonneg : 0.0 ≤ c.check.threshold

def refusal (c : Config) : SettingFault :=
  if c.runner.iterations = 0 then .noConfiguredIterations else .threshold c.check.threshold

theorem validate_eq_ok_iff {c : Config} : c.validate = .ok () ↔ c.Startable := by
  rw [validate]
  split
  next h => exact ⟨(nomatch ·), fun hc => absurd hc.iterations (by omega)⟩
  next h =>
    rw [validThreshold_eq_ok_iff]
    exact ⟨fun ⟨hfinite, hnonneg⟩ => ⟨by omega, hfinite, hnonneg⟩,
      fun hc => ⟨hc.finite, hc.nonneg⟩⟩

theorem validate_eq_error {c : Config} (h : ¬ c.Startable) : c.validate = .error c.refusal := by
  rw [validate, refusal]
  split
  next => rfl
  next hpos =>
    exact validThreshold_eq_error fun ⟨hfinite, hnonneg⟩ => h ⟨by omega, hfinite, hnonneg⟩

theorem startable_of_parse {text : String} {c : Config} (h : parse text = .ok c) :
    c.Startable := by
  rw [parse] at h
  split at h
  next => exact nomatch h
  next found _ =>
    cases hvalid : found.validate with
    | error cause => rw [hvalid] at h; exact nomatch h
    | ok u =>
      rw [hvalid] at h
      obtain rfl := Except.ok.inj h
      exact validate_eq_ok_iff.mp hvalid

/-- The configuration without a file. -/
theorem startable_default : Startable {} :=
  ⟨by decide, by decide, by decide⟩

structure Usable (c : Config) : Prop where
  plan : ∃ plan, TrialPlan.of? c.runner.iterations c.runner.warmup = .ok plan
  threshold : validThreshold c.check.threshold = .ok ()

theorem Startable.usable {c : Config} (h : c.Startable) : c.Usable :=
  ⟨⟨⟨_, _, h.iterations⟩, dif_pos h.iterations⟩, validThreshold_eq_ok_iff.mpr ⟨h.finite, h.nonneg⟩⟩

open Dialogue (Obeys)

theorem read_obeys (path : String) : Obeys (fun _ => True) Usable (Config.read path) := by
  refine ⟨trivial, fun answer => ?_⟩
  cases answer with
  | error cause => exact fun c hc => nomatch hc
  | ok text =>
    intro c hc
    cases hparse : parse text with
    | error cause => rw [hparse] at hc; exact nomatch hc
    | ok found =>
      rw [hparse] at hc
      obtain rfl := Except.ok.inj hc
      exact (startable_of_parse hparse).usable

theorem load_obeys (named : Option String) : Obeys (fun _ => True) Usable (Config.load named) := by
  cases named with
  | some path => exact read_obeys path
  | none =>
    refine Obeys.bind (Q := fun _ => True)
      (Dialogue.obeys_lift ⟨trivial, fun _ => trivial⟩) fun present _ => ?_
    split
    · exact read_obeys defaultFile
    · exact Obeys.pure startable_default.usable

/-- A document that gives some of the settings is the configuration with these and the
defaults, if a run can start from it, and else it is refused for what is wrong. Whatever the
machine answers, the configuration that is loaded can be used. -/
theorem partial_configuration :
    (∀ (text : String) (root runner regression report : Entries) (given : Given),
      Toml.parse text = some root → Presents root given runner regression report →
      (given.config.Startable → parse text = .ok given.config) ∧
      (¬ given.config.Startable → parse text = .error given.config.refusal)) ∧
    (∀ {σ : Type} (machine : Machine σ) (state : σ) (named : Option String) (c : Config),
      ((Config.load named).run.run machine state).1 = .ok c → c.Usable) := by
  refine ⟨fun text root runner regression report given hroot h => ?_,
    fun machine state named c hc => (load_obeys named).run machine state c hc⟩
  have hparse : parse text = given.config.validate.map fun _ => given.config := by
    rw [parse, hroot, Option.bind_some, ofEntries_eq (Toml.parse_distinct hroot) h]
  constructor
  · intro hok
    rw [hparse, validate_eq_ok_iff.mpr hok]
    rfl
  · intro hbad
    rw [hparse, validate_eq_error hbad]
    rfl

/-- Two settings among other keys, a whole number for a real one and the tables in another
order, parsed and loaded; and a document that allows no iteration. -/
theorem partial_configuration_unordered :
    let text := "a = 0\n[regression]\nthreshold = 1\n[runner]\nx = ''\nwarmup = 0"
    let machine := Saving.obliging text fun state : Unit => (⟨.status 0, "", 0.0⟩, state)
    let found := Given.config ⟨none, some 0, none, none, some 1.0, none, none, none, none⟩
    parse text = .ok found ∧
      ((Config.load (some "c")).run.run machine ()).1 = .ok found ∧ found.Usable ∧
      parse "[runner]\niterations = 0" = .error .noConfiguredIterations := by
  intro text machine found
  have hparse : parse text = .ok found := by
    refine (partial_configuration.1 _
      [("a", .integer 0), ("regression", .table .header [("threshold", .integer 1)]),
        ("runner", .table .header [("x", .text ""), ("warmup", .integer 0)])]
      [("x", .text ""), ("warmup", .integer 0)] [("threshold", .integer 1)] [] _ (by cbv)
      ?_).1 ⟨by decide, by decide, by decide⟩
    exact
      { inRunner := .inl ⟨.header, by simp⟩
        inRegression := .inl ⟨.header, by simp⟩
        inReport := .inr ⟨rfl, by simp⟩
        iterations := by simp [Gives]
        warmup := ⟨.integer 0, by simp, rfl⟩
        client := by simp [Gives]
        database := by simp [Gives]
        threshold := ⟨.integer 1, by simp, .inr ⟨1, rfl, by decide⟩⟩
        baseline := by simp [Gives]
        benchmarks := by simp [Gives]
        resultsDir := by simp [Gives]
        outputDir := by simp [Gives] }
  have hloaded : ((Config.load (some "c")).run.run machine ()).1 = .ok found :=
    congrArg (Except.mapError Fault.setting) hparse
  refine ⟨hparse, hloaded, partial_configuration.2 _ _ _ _ hloaded, ?_⟩
  refine (partial_configuration.1 _ [("runner", .table .header [("iterations", .integer 0)])]
    [("iterations", .integer 0)] [] [] ⟨some 0, none, none, none, none, none, none, none, none⟩
    (by cbv) ?_).2 fun h => absurd h.iterations (by decide)
  exact
    { inRunner := .inl ⟨.header, by simp⟩
      inRegression := .inr ⟨rfl, by simp⟩
      inReport := .inr ⟨rfl, by simp⟩
      iterations := ⟨.integer 0, by simp, rfl⟩
      warmup := by simp [Gives]
      client := by simp [Gives]
      database := by simp [Gives]
      threshold := by simp [Gives]
      baseline := by simp [Gives]
      benchmarks := by simp [Gives]
      resultsDir := by simp [Gives]
      outputDir := by simp [Gives] }

end PerfGate.Config
