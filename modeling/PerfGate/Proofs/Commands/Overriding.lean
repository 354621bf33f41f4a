import PerfGate.Proofs.Commands.Gate
import PerfGate.Proofs.Config.Partial

/-!
# Flags override the configuration

A command runs with settings. Each of them is what its flag gives, if the flag is given, and
what the configuration has otherwise; so what the configuration has for a setting whose flag is
given is never used. What flags give is checked like what is configured, before anything is
asked of the machine.
-/

set_option autoImplicit false

namespace PerfGate.Overriding

open CommandLine (Command CheckOptions RunOptions Invocation)
open Dialogue Measuring

/-! ## What a command runs with -/

inductive Settings where
  | check (s : CheckSettings)
  | run (s : RunSettings)
  | report (s : ReportSettings)

namespace Settings

def of (c : Config) : Command → Settings
  | .check options => .check (.of c options)
  | .run options => .run (.of c options)
  | .report options => .report (.of c options)

def execute : Settings → Attempt Nat
  | .check s => s.check
  | .run s => s.execute
  | .report s => s.execute

end Settings

theorem execute_eq (c : Config) (command : Command) :
    command.execute c = (Settings.of c command).execute := by
  cases command <;> rfl

inductive Setting where
  | baseline
  | iterations
  | warmup
  | threshold
  | resultsDir
  | benchmarks
  | outputDir
  | client

namespace Setting

abbrev Value : Setting → Type
  | .baseline => String
  | .iterations => Nat
  | .warmup => Nat
  | .threshold => Float
  | .resultsDir => String
  | .benchmarks => List String
  | .outputDir => String
  | .client => Client

def configured (c : Config) : (s : Setting) → s.Value
  | .baseline => c.check.baseline
  | .iterations => c.runner.iterations
  | .warmup => c.runner.warmup
  | .threshold => c.check.threshold
  | .resultsDir => c.check.resultsDir
  | .benchmarks => c.check.benchmarks
  | .outputDir => c.report.outputDir
  | .client => c.clientOf

/-- What the flag of a setting gives. A list of benchmarks is given if it is not empty. -/
def flag? : (s : Setting) → Command → Option s.Value
  | .baseline, .check options => options.baseline
  | .iterations, .check options => options.iterations
  | .threshold, .check options => options.threshold
  | .resultsDir, .check options => options.resultsDir
  | .benchmarks, .check options =>
    if options.benchmarks.isEmpty then none else some options.benchmarks
  | .iterations, .run options => options.iterations
  | .warmup, .run options => options.warmup
  | .outputDir, .report options => options.outputDir
  | _, _ => none

def give : (s : Setting) → s.Value → Command → Command
  | .baseline, v, .check options => .check { options with baseline := some v }
  | .iterations, v, .check options => .check { options with iterations := some v }
  | .threshold, v, .check options => .check { options with threshold := some v }
  | .resultsDir, v, .check options => .check { options with resultsDir := some v }
  | .benchmarks, v, .check options => .check { options with benchmarks := v }
  | .iterations, v, .run options => .run { options with iterations := some v }
  | .warmup, v, .run options => .run { options with warmup := some v }
  | .outputDir, v, .report options => .report { options with outputDir := some v }
  | _, _, command => command

def used? : (s : Setting) → Settings → Option s.Value
  | .baseline, .check s => some s.baseline
  | .iterations, .check s => some s.iterations
  | .warmup, .check s => some s.warmup
  | .threshold, .check s => some s.threshold
  | .resultsDir, .check s => some s.results
  | .benchmarks, .check s => some s.benchmarks
  | .client, .check s => some s.client
  | .iterations, .run s => some s.iterations
  | .warmup, .run s => some s.warmup
  | .client, .run s => some s.client
  | .outputDir, .report s => some s.output
  | _, _ => none

def put : (s : Setting) → s.Value → Settings → Settings
  | .baseline, v, .check s => .check { s with baseline := v }
  | .iterations, v, .check s => .check { s with iterations := v }
  | .warmup, v, .check s => .check { s with warmup := v }
  | .threshold, v, .check s => .check { s with threshold := v }
  | .resultsDir, v, .check s => .check { s with results := v }
  | .benchmarks, v, .check s => .check { s with benchmarks := v }
  | .client, v, .check s => .check { s with client := v }
  | .iterations, v, .run s => .run { s with iterations := v }
  | .warmup, v, .run s => .run { s with warmup := v }
  | .client, v, .run s => .run { s with client := v }
  | .outputDir, v, .report s => .report { s with output := v }
  | _, _, settings => settings

def all : Command → List Setting
  | .check _ => [.baseline, .iterations, .warmup, .threshold, .resultsDir, .benchmarks, .client]
  | .run _ => [.iterations, .warmup, .client]
  | .report _ => [.outputDir]

theorem used?_eq (c : Config) (command : Command) :
    ∀ s ∈ all command,
      s.used? (Settings.of c command) = some ((s.flag? command).getD (s.configured c)) := by
  intro s hs
  cases command with
  | check options =>
    cases s with
    | benchmarks =>
      simp only [used?, Settings.of, CheckSettings.of, flag?, configured]
      by_cases h : options.benchmarks.isEmpty <;> simp [h]
    | outputDir => simp [all] at hs
    | _ => rfl
  | run options => cases s <;> first | rfl | simp [all] at hs
  | report options => cases s <;> first | rfl | simp [all] at hs

/-- A flag changes its own setting and no other. -/
theorem of_give (c : Config) (command : Command) (s : Setting) (v : s.Value)
    (h : s.flag? (s.give v command) = some v) :
    Settings.of c (s.give v command) = s.put v (Settings.of c command) := by
  cases command with
  | check options =>
    cases s with
    | benchmarks =>
      have hne : ¬ List.isEmpty v := by
        intro hempty
        simp [flag?, give, hempty] at h
      simp [Settings.of, give, put, CheckSettings.of, hne]
    | warmup => exact nomatch h
    | client => exact nomatch h
    | outputDir => exact nomatch h
    | _ => rfl
  | run options =>
    cases s with
    | client => exact nomatch h
    | _ => rfl
  | report options => cases s <;> rfl

end Setting

/-! ## Two configurations -/

/-- Two configurations have the same for each setting of a command that no flag overrides. -/
def Agree (command : Command) (c c' : Config) : Prop :=
  ∀ s ∈ Setting.all command, s.flag? command = none → s.configured c = s.configured c'

theorem getD_congr {α : Type} (flag : Option α) {a b : α} (h : flag = none → a = b) :
    flag.getD a = flag.getD b := by
  cases flag with
  | none => exact h rfl
  | some v => rfl

theorem of_agree {command : Command} {c c' : Config} (h : Agree command c c') :
    Settings.of c' command = Settings.of c command := by
  cases command with
  | check options =>
    have hbaseline := getD_congr options.baseline (h .baseline (by simp [Setting.all]))
    have hiterations := getD_congr options.iterations (h .iterations (by simp [Setting.all]))
    have hwarmup := h .warmup (by simp [Setting.all]) rfl
    have hthreshold := getD_congr options.threshold (h .threshold (by simp [Setting.all]))
    have hresults := getD_congr options.resultsDir (h .resultsDir (by simp [Setting.all]))
    have hclient := h .client (by simp [Setting.all]) rfl
    have hbenchmarks := h .benchmarks (by simp [Setting.all])
    simp only [Setting.configured, Setting.flag?, ite_eq_left_iff, reduceCtorEq, imp_false,
      Bool.not_eq_true, Bool.not_eq_false] at *
    simp only [Settings.of, CheckSettings.of, hbaseline, hiterations, hwarmup, hthreshold,
      hresults, hclient]
    split
    next hempty => rw [hbenchmarks hempty]
    next => rfl
  | run options =>
    have hiterations := getD_congr options.iterations (h .iterations (by simp [Setting.all]))
    have hwarmup := getD_congr options.warmup (h .warmup (by simp [Setting.all]))
    have hclient := h .client (by simp [Setting.all]) rfl
    simp only [Setting.configured] at *
    simp only [Settings.of, RunSettings.of, hiterations, hwarmup, hclient]
  | report options =>
    have houtput := getD_congr options.outputDir (h .outputDir (by simp [Setting.all]))
    simp only [Setting.configured] at houtput
    simp only [Settings.of, ReportSettings.of, houtput]

/-! ## Flags that are refused -/

/-- What is wrong with the flags of a command. The threshold is looked at first. -/
inductive Refused : Command → SettingFault → Prop where
  | threshold {options : CheckOptions} {t : Float} (given : options.threshold = some t)
      (bad : ¬ (t.isFinite = true ∧ 0.0 ≤ t)) : Refused (.check options) (.threshold t)
  | iterations {options : CheckOptions} (given : options.iterations = some 0)
      (good : ∀ t, options.threshold = some t → t.isFinite = true ∧ 0.0 ≤ t) :
      Refused (.check options) .noIterations
  | runIterations {options : RunOptions} (given : options.iterations = some 0) :
      Refused (.run options) .noIterations

def Settings.plan? : Settings → Option (Except Fault TrialPlan)
  | .check s => some s.plan
  | .run s => some (TrialPlan.of? s.iterations s.warmup)
  | .report _ => none

def Settings.Planned (settings : Settings) : Prop :=
  ∀ planned, settings.plan? = some planned → ∃ plan, planned = .ok plan ∧
    Setting.iterations.used? settings = some plan.iterations ∧
    Setting.warmup.used? settings = some plan.warmup

theorem of?_zero (warmup : Nat) : TrialPlan.of? 0 warmup = .error (.setting .noIterations) :=
  rfl

theorem checkPlan_eq {s : CheckSettings} (h : s.threshold.isFinite = true ∧ 0.0 ≤ s.threshold) :
    s.plan = TrialPlan.of? s.iterations s.warmup := by
  rw [CheckSettings.plan, validThreshold_eq_ok_iff.mpr h]
  rfl

theorem checkPlan_eq_error {s : CheckSettings}
    (h : ¬ (s.threshold.isFinite = true ∧ 0.0 ≤ s.threshold)) :
    s.plan = .error (.setting (.threshold s.threshold)) := by
  rw [CheckSettings.plan, validThreshold_eq_error h]
  rfl

/-- The threshold that a check runs with is valid, unless its flag gives one that is not. -/
theorem threshold_valid {c : Config} (hc : c.Usable) {options : CheckOptions}
    (good : ∀ t, options.threshold = some t → t.isFinite = true ∧ 0.0 ≤ t) :
    (CheckSettings.of c options).threshold.isFinite = true ∧
      0.0 ≤ (CheckSettings.of c options).threshold := by
  rw [CheckSettings.of]
  cases hflag : options.threshold with
  | none => exact validThreshold_eq_ok_iff.mp hc.threshold
  | some t => exact good t hflag

theorem Refused.plan_eq {c : Config} (hc : c.Usable) {command : Command} {cause : SettingFault}
    (h : Refused command cause) :
    (Settings.of c command).plan? = some (.error (.setting cause)) := by
  cases h with
  | @threshold options t given bad =>
    have heq : (CheckSettings.of c options).threshold = t := by simp [CheckSettings.of, given]
    rw [Settings.of, Settings.plan?, checkPlan_eq_error (heq ▸ bad), heq]
  | @iterations options given good =>
    rw [Settings.of, Settings.plan?, checkPlan_eq (threshold_valid hc good), CheckSettings.of,
      given]
    rfl
  | @runIterations options given =>
    rw [Settings.of, Settings.plan?, RunSettings.of, given]
    rfl

theorem planned_of_pos {iterations : Nat} (warmup : Nat) (h : 0 < iterations) :
    ∃ plan, TrialPlan.of? iterations warmup = .ok plan ∧ iterations = plan.iterations ∧
      warmup = plan.warmup :=
  ⟨⟨iterations, warmup, h⟩, dif_pos h, rfl, rfl⟩

theorem getD_pos {c : Config} (hc : c.Usable) {flag : Option Nat} (h : flag ≠ some 0) :
    0 < flag.getD c.runner.iterations := by
  cases flag with
  | none =>
    obtain ⟨plan, hplan⟩ := hc.plan
    rw [Option.getD_none]
    by_contra hzero
    rw [Nat.eq_zero_of_not_pos hzero, of?_zero] at hplan
    exact nomatch hplan
  | some n => exact Nat.pos_of_ne_zero fun hn => h (congrArg some hn)

theorem planned_of_not_refused {c : Config} (hc : c.Usable) {command : Command}
    (h : ∀ cause, ¬ Refused command cause) : (Settings.of c command).Planned := by
  intro planned hplanned
  cases command with
  | check options =>
    have good : ∀ t, options.threshold = some t → t.isFinite = true ∧ 0.0 ≤ t :=
      fun t ht => by_contra fun bad => h _ (.threshold ht bad)
    have hpos := getD_pos hc fun hzero => h _ (.iterations hzero good)
    rw [Settings.of, Settings.plan?, checkPlan_eq (threshold_valid hc good)] at hplanned
    obtain rfl := Option.some.inj hplanned
    obtain ⟨plan, hplan, hiterations, hwarmup⟩ := planned_of_pos c.runner.warmup hpos
    exact ⟨plan, hplan, congrArg some hiterations, congrArg some hwarmup⟩
  | run options =>
    have hpos := getD_pos hc fun hzero => h _ (.runIterations hzero)
    obtain rfl := Option.some.inj hplanned
    obtain ⟨plan, hplan, hiterations, hwarmup⟩ :=
      planned_of_pos (options.warmup.getD c.runner.warmup) hpos
    exact ⟨plan, hplan, congrArg some hiterations, congrArg some hwarmup⟩
  | report options => exact nomatch hplanned

/-! ## A run with a configuration -/

section
variable {σ : Type} (machine : Machine σ)

/-- A plan that cannot be made is the failure of the command, and nothing is asked. -/
theorem execute_refused {settings : Settings} {cause : Fault}
    (h : settings.plan? = some (.error cause)) (state : σ) :
    Takes machine settings.execute state (.error (.fault cause)) [] state := by
  cases settings with
  | check s =>
    have hplan : s.plan = .error cause := Option.some.inj h
    have hstart := (takes_except machine hplan state).bind_error (f := fun plan => do
      let started ← request .now
      say .checkBegins
      let baseline ← s.loadBaseline
      let entries ← ExceptT.mk (pure (s.entries baseline))
      return (⟨plan, started, entries⟩ : CheckSettings.Start))
    exact (takes_within machine .fault hstart).bind_error
  | run s =>
    have hplan : TrialPlan.of? s.iterations s.warmup = .error cause := Option.some.inj h
    exact (takes_within machine .fault (takes_except machine hplan state)).bind_error
  | report s => exact nomatch h

theorem read_quiet (path : String) : Obeys Gate.Quiet (fun _ => True) (Config.read path) := by
  refine ⟨⟨rfl, rfl⟩, fun answer => ?_⟩
  cases answer <;> exact fun _ _ => trivial

theorem load_quiet (named : Option String) :
    Obeys Gate.Quiet (fun _ => True) (Config.load named) := by
  cases named with
  | some path => exact read_quiet path
  | none =>
    refine (Gate.request_quiet ⟨rfl, rfl⟩).bind fun present _ => ?_
    split
    · exact read_quiet Config.defaultFile
    · exact Obeys.pure trivial

variable (i : Invocation)

/-- Once it has loaded the configuration, a run goes on with these settings, and with nothing
else of the configuration. -/
def GoesOn (state : σ) (loading : List Request) (next : σ) (settings : Settings) : Prop :=
  ∀ result asked last, Takes machine settings.execute next result asked last →
    Takes machine i.execute state result (loading ++ asked) last

variable {i} {state next : σ} {c : Config} {loading : List Request}

theorem goesOn_of_load (hload : Takes machine (Config.load i.config) state (.ok c) loading next) :
    GoesOn machine i state loading next (Settings.of c i.command) := by
  intro result asked last htakes
  rw [← execute_eq] at htakes
  exact (takes_within machine .fault hload).bind_ok htakes

end

/-- With any configuration that is loaded, a command runs with what its flags give and with the
configuration for the rest. Flags change nothing but their own settings, so configurations that
agree on the rest are the same to it; and flags that are refused end it before it measures. -/
theorem flags_override_configuration {σ : Type} (machine : Machine σ) (i : Invocation)
    {state next : σ} {c : Config} {loading : List Request}
    (hload : Takes machine (Config.load i.config) state (.ok c) loading next) :
    (∀ r ∈ loading, Gate.Quiet r) ∧
    GoesOn machine i state loading next (Settings.of c i.command) ∧
    (∀ s ∈ Setting.all i.command,
      s.used? (Settings.of c i.command) = some ((s.flag? i.command).getD (s.configured c))) ∧
    (∀ (s : Setting) (v : s.Value), s.flag? (s.give v i.command) = some v →
      Settings.of c (s.give v i.command) = s.put v (Settings.of c i.command)) ∧
    (∀ {τ : Type} (other : Machine τ) (j : Invocation) (start loaded : τ) (c' : Config)
        (reading : List Request),
      j.command = i.command →
      Takes other (Config.load j.config) start (.ok c') reading loaded →
      Agree i.command c c' →
      GoesOn other j start reading loaded (Settings.of c i.command)) ∧
    (∀ cause, Refused i.command cause →
      Takes machine i.execute state (.error (.fault (.setting cause))) loading next) ∧
    ((∀ cause, ¬ Refused i.command cause) → (Settings.of c i.command).Planned) := by
  have hc : c.Usable :=
    (Config.load_obeys i.config).run machine state c (congrArg Prod.fst hload.run)
  have hgoes := goesOn_of_load machine hload
  refine ⟨hload.requests ▸ (load_quiet i.config).requests machine state, hgoes,
    Setting.used?_eq c i.command, Setting.of_give c i.command, ?_, ?_,
    planned_of_not_refused hc⟩
  · intro τ other j start loaded c' reading hcommand hother hagree
    rw [← of_agree hagree, ← hcommand]
    exact goesOn_of_load other hother
  · intro cause hrefused
    have hfailed := hgoes _ _ _ (execute_refused machine (hrefused.plan_eq hc) next)
    exact hfailed.asking (List.append_nil loading)

/-- No iterations at all, asked for by a flag: the run ends with the configuration loaded. A file
that asks for seven iterations instead of the default changes nothing about it. -/
theorem flags_override_configuration_iterations :
    let command := Command.check
      { Gate.exampleOptions with iterations := some 0, threshold := some 0.5 }
    let other := Saving.obliging "[runner]\niterations = 7" fun state : Unit =>
      (⟨.status 0, "", 0.0⟩, state)
    Takes Gate.exampleMachine (Invocation.execute ⟨false, none, command⟩) ()
        (.error (.fault (.setting .noIterations))) [.present "tvbench.toml"] () ∧
      GoesOn other ⟨false, some "c", command⟩ () [.read "c"] () (Settings.of {} command) := by
  intro command other
  let seven : Config := { runner := { iterations := 7 } }
  have hload : Takes Gate.exampleMachine (Config.load none) () (.ok {}) [.present "tvbench.toml"]
      () := ⟨rfl, rfl⟩
  obtain ⟨-, -, -, -, hsame, hrefused, -⟩ :=
    flags_override_configuration Gate.exampleMachine ⟨false, none, command⟩ hload
  have hparse : Config.parse "[runner]\niterations = 7" = .ok seven := by
    have hentries : Toml.parse "[runner]\niterations = 7" =
        some [("runner", .table .header [("iterations", .integer 7)])] := by
      cbv
    rw [Config.parse, hentries]
    rfl
  have hother : Takes other (Config.load (some "c")) () (.ok seven) [.read "c"] () :=
    ⟨congrArg (fun result => (Except.mapError Fault.setting result, ())) hparse, rfl⟩
  refine ⟨hrefused _ (.iterations rfl ?_),
    hsame other ⟨false, some "c", command⟩ () () _ _ rfl hother ?_⟩
  · intro t ht
    obtain rfl : 0.5 = t := Option.some.inj ht
    exact ⟨by decide, by decide⟩
  · intro s hs hflag
    cases s with
    | iterations => exact absurd hflag (Option.some_ne_none 0)
    | _ => rfl

end PerfGate.Overriding
