import PerfGate.Proofs.Measurement.Bounds
import PerfGate.Proofs.Measurement.Simulated
import PerfGate.Proofs.Verdict.Classes
import PerfGate.Session

/-!
# What a session keeps

A step is refused for one of a few reasons, and then nothing has changed, or it does one thing.
Whatever is kept was checked before it was stored, so every session that steps lead to has a
valid threshold, summaries of at least one duration and comparisons with usable entries. The
verdict looks back at each comparison as it was made: what is loaded or set later does not
alter it.
-/

set_option autoImplicit false

namespace PerfGate.Session

open Statistics (Numbers)

/-! ## Steps -/

/-- Durations that are brought along are numbers. -/
def Step.Admissible : Step → Prop
  | .measure _ _ durations => Numbers durations
  | _ => True

inductive Refuses (session : Session) : Step → Refusal → Prop where
  | document {text : String} {cause : Json.Fault} (h : Baseline.parse text = .error cause) :
      Refuses session (.loadBaseline text) (.document cause)
  | threshold {value : Float} (h : ¬ (value.isFinite = true ∧ 0.0 ≤ value)) :
      Refuses session (.setThreshold value) (.setting (.threshold value))
  | noDurations (name implementation : String) :
      Refuses session (.measure name implementation []) (.fault (.noSamples name))
  | noIterations (name : String) (words : List UInt64) :
      Refuses session (.simulate name 0 words) (.fault (.noSamples name))
  | noEntry {current : Summary} (last : session.measured.getLast? = some current)
      (h : session.baseline.entry? current.name = none) :
      Refuses session .compareLast (.fault (.noBaseline current.name))
  | unusableEntry {current : Summary} {entry : BaselineEntry}
      (last : session.measured.getLast? = some current)
      (found : session.baseline.entry? current.name = some entry)
      (unusable : ¬ (entry.mean.isFinite = true ∧ 0.0 < entry.mean)) :
      Refuses session .compareLast (.fault (.unusableBaseline current.name entry.mean))

def Compares (session : Session) (c : Comparison) : Prop :=
  ∃ current entry, session.measured.getLast? = some current ∧
    session.baseline.entry current.name = .ok entry ∧
    c = compareWith entry current session.threshold

inductive Does (session : Session) : Step → Session → Prop where
  | loadBaseline {text : String} {baseline : Baseline} (h : Baseline.parse text = .ok baseline) :
      Does session (.loadBaseline text) { session with baseline := baseline }
  | setThreshold {value : Float} (finite : value.isFinite = true) (nonneg : 0.0 ≤ value) :
      Does session (.setThreshold value) { session with threshold := value }
  | measure {name implementation : String} {durations : List Float} {s : Summary}
      (h : Summary.ofDurations name implementation durations = .ok s) (pos : 1 ≤ s.n) :
      Does session (.measure name implementation durations)
        { session with measured := session.measured ++ [s] }
  | simulate {name : String} {iterations : Nat} {words : List UInt64} {s : Summary}
      (h : simulated name iterations words = .ok s) (pos : 1 ≤ s.n) :
      Does session (.simulate name iterations words)
        { session with measured := session.measured ++ [s] }
  | nothingToCompare (h : session.measured.getLast? = none) : Does session .compareLast session
  | compare {c : Comparison} (h : Compares session c) :
      Does session .compareLast { session with compared := session.compared ++ [c] }
  | reset : Does session .reset { session with measured := [], compared := [] }

section
variable {session next : Session} {s : Step} {refusal : Refusal} {c : Comparison}

/-! ## Every step is refused or done -/

theorem simulated_eq (name : String) (iterations : Nat) (words : List UInt64) :
    simulated name iterations words = Summary.ofDurations name Simulation.label
      ((Simulation.durations Simulation.Words.next name iterations).run ⟨words, 0⟩).1 := by
  generalize hdurations :
    ((Simulation.durations Simulation.Words.next name iterations).run ⟨words, 0⟩).1 = durations
  have hsimulated : simulated name iterations words =
      Summary.ofSamples name (Simulation.labelled name durations) := by
    rw [← hdurations]
    rfl
  rw [hsimulated]
  cases durations with
  | nil => rfl
  | cons x rest =>
    have hsamples := Simulation.labelled_durations name (x :: rest)
    rw [Simulation.labelled, List.mapIdx_cons] at hsamples ⊢
    rw [Summary.ofSamples, hsamples]

theorem Refuses.step (h : Refuses session s refusal) :
    session.step s = (.error refusal, session) := by
  cases h with
  | document h => simp [Session.step, attempt, h]
  | threshold h => simp [Session.step, attempt, validThreshold_eq_error h]
  | noDurations => simp [Session.step, attempt, Summary.ofDurations_nil]
  | noIterations name words =>
    have hnone : simulated name 0 words = .error (.noSamples name) := by
      have hlength :=
        (Simulation.durations_numbers Simulation.Words.next name 0 ⟨words, 0⟩).2
      rw [simulated_eq, List.length_eq_zero_iff.mp hlength, Summary.ofDurations_nil]
    simp [Session.step, attempt, hnone]
  | noEntry last h =>
    have hentry := entry_eq_error_of_none h
    simp [Session.step, attempt, last, hentry]
  | unusableEntry last found unusable =>
    have hentry := entry_eq_error_of_unusable found unusable
    simp [Session.step, attempt, last, hentry]

theorem step_of_attempt {answer : Answer} (h : session.attempt s = .ok (answer, next)) :
    session.step s = (.ok answer, next) := by
  rw [Session.step, h]

theorem Does.step (h : Does session s next) : ∃ answer, session.step s = (.ok answer, next) := by
  cases h with
  | loadBaseline h => exact ⟨_, step_of_attempt (by simp only [attempt, h]; rfl)⟩
  | setThreshold finite nonneg =>
    have hvalid := validThreshold_eq_ok_iff.mpr ⟨finite, nonneg⟩
    exact ⟨_, step_of_attempt (by simp only [attempt, hvalid]; rfl)⟩
  | measure h => exact ⟨_, step_of_attempt (by simp only [attempt, h]; rfl)⟩
  | simulate h => exact ⟨_, step_of_attempt (by simp only [attempt, h]; rfl)⟩
  | nothingToCompare h => exact ⟨_, step_of_attempt (by simp only [attempt, h]; rfl)⟩
  | compare h =>
    obtain ⟨current, entry, last, found, rfl⟩ := h
    exact ⟨_, step_of_attempt (by simp only [attempt, last, found]; rfl)⟩
  | reset => exact ⟨.nothing, rfl⟩

theorem refuses_or_does (session : Session) (h : s.Admissible) :
    (∃ refusal, Refuses session s refusal) ∨ ∃ next, Does session s next := by
  cases s with
  | loadBaseline text =>
    cases hparse : Baseline.parse text with
    | error cause => exact .inl ⟨_, .document hparse⟩
    | ok baseline => exact .inr ⟨_, .loadBaseline hparse⟩
  | setThreshold value =>
    by_cases hvalid : value.isFinite = true ∧ 0.0 ≤ value
    · exact .inr ⟨_, .setThreshold hvalid.1 hvalid.2⟩
    · exact .inl ⟨_, .threshold hvalid⟩
  | measure name implementation durations =>
    by_cases hempty : durations = []
    · subst hempty
      exact .inl ⟨_, .noDurations name implementation⟩
    · obtain ⟨s, hok, hs⟩ := Summary.ofDurations_reduces name implementation hempty h
      have hpos : 1 ≤ s.n := hs.n ▸ List.length_pos_iff.mpr hempty
      exact .inr ⟨_, .measure hok hpos⟩
  | simulate name iterations words =>
    cases iterations with
    | zero => exact .inl ⟨_, .noIterations name words⟩
    | succ iterations =>
      obtain ⟨hnumbers, hlength⟩ :=
        Simulation.durations_numbers Simulation.Words.next name (iterations + 1) ⟨words, 0⟩
      have hne := List.ne_nil_of_length_eq_add_one hlength
      obtain ⟨s, hok, hs⟩ := Summary.ofDurations_reduces name Simulation.label hne hnumbers
      rw [← simulated_eq] at hok
      exact .inr ⟨_, .simulate hok (by rw [hs.n, hlength]; omega)⟩
  | compareLast =>
    cases hlast : session.measured.getLast? with
    | none => exact .inr ⟨_, .nothingToCompare hlast⟩
    | some current =>
      cases hfound : session.baseline.entry? current.name with
      | none => exact .inl ⟨_, .noEntry hlast hfound⟩
      | some entry =>
        by_cases husable : entry.mean.isFinite = true ∧ 0.0 < entry.mean
        · have hentry := entry_eq_ok_of_usable hfound husable
          exact .inr ⟨_, .compare ⟨current, entry, hlast, hentry, rfl⟩⟩
        · exact .inl ⟨_, .unusableEntry hlast hfound husable⟩
  | reset => exact .inr ⟨_, .reset⟩

theorem step_next (session : Session) (h : s.Admissible) :
    (session.step s).2 = session ∨ Does session s (session.step s).2 := by
  rcases refuses_or_does session h with ⟨refusal, hrefuses⟩ | ⟨next, hdoes⟩
  · rw [hrefuses.step]
    exact .inl rfl
  · obtain ⟨answer, hstep⟩ := hdoes.step
    rw [hstep]
    exact .inr hdoes

theorem step_eq_error_iff (h : s.Admissible) :
    (session.step s).1 = .error refusal ↔ Refuses session s refusal := by
  refine ⟨fun herror => ?_, fun hrefuses => by rw [hrefuses.step]⟩
  rcases refuses_or_does session h with ⟨refusal', hrefuses⟩ | ⟨next, hdoes⟩
  · rw [hrefuses.step] at herror
    exact Except.error.inj herror ▸ hrefuses
  · obtain ⟨answer, hstep⟩ := hdoes.step
    rw [hstep] at herror
    exact nomatch herror

/-! ## What is kept -/

structure Judged (c : Comparison) : Prop where
  finite : c.baselineMean.isFinite = true
  pos : 0.0 < c.baselineMean
  not_warning : c.classification ≠ .warning
  isRegression : c.isRegression = true ↔ c.classification = .regression

structure Sound (session : Session) : Prop where
  threshold_finite : session.threshold.isFinite = true
  threshold_nonneg : 0.0 ≤ session.threshold
  measured : ∀ s ∈ session.measured, 1 ≤ s.n
  compared : ∀ c ∈ session.compared, Judged c

theorem start_sound : Sound start where
  threshold_finite := by decide
  threshold_nonneg := by decide
  measured := List.forall_mem_nil _
  compared := List.forall_mem_nil _

theorem Compares.judged (hc : Compares session c)
    (hvalid : validThreshold session.threshold = .ok ()) : Judged c := by
  obtain ⟨current, entry, -, found, rfl⟩ := hc
  obtain ⟨hfinite, hpos⟩ := usable_of_entry found
  exact ⟨hfinite, hpos, classify_ne_warning _ hvalid, isRegression_iff _⟩

theorem Sound.measure (h : Sound session) {s : Summary} (pos : 1 ≤ s.n) :
    Sound { session with measured := session.measured ++ [s] } :=
  { h with measured := List.forall_mem_append.mpr ⟨h.measured, List.forall_mem_singleton.mpr pos⟩ }

theorem Sound.does (h : Sound session) (hdoes : Does session s next) : Sound next := by
  cases hdoes with
  | loadBaseline => exact { h with }
  | setThreshold finite nonneg =>
    exact { h with threshold_finite := finite, threshold_nonneg := nonneg }
  | measure _ pos => exact h.measure pos
  | simulate _ pos => exact h.measure pos
  | nothingToCompare => exact h
  | compare hc =>
    have hvalid := validThreshold_eq_ok_iff.mpr ⟨h.threshold_finite, h.threshold_nonneg⟩
    have hjudged := hc.judged hvalid
    exact { h with
      compared := List.forall_mem_append.mpr ⟨h.compared, List.forall_mem_singleton.mpr hjudged⟩ }
  | reset =>
    exact { h with measured := List.forall_mem_nil _, compared := List.forall_mem_nil _ }

theorem Sound.step (h : Sound session) (hs : s.Admissible) : Sound (session.step s).2 := by
  rcases step_next session hs with hsame | hdoes
  · rwa [hsame]
  · exact h.does hdoes

theorem Sound.run (h : Sound session) (steps : List Step) (hsteps : ∀ s ∈ steps, s.Admissible) :
    Sound (session.run steps) := by
  induction steps generalizing session with
  | nil => exact h
  | cons s steps ih =>
    obtain ⟨hs, hrest⟩ := List.forall_mem_cons.mp hsteps
    exact ih (h.step hs) hrest

/-! ## What the verdict looks back at -/

/-- A comparison that was made on the way and has not been dropped since. -/
def Kept (session : Session) (steps : List Step) (c : Comparison) : Prop :=
  ∃ before after, steps = before ++ .compareLast :: after ∧ .reset ∉ after ∧
    Compares (session.run before) c

theorem not_kept_nil : ¬ Kept session [] c := by
  rintro ⟨before, after, hsteps, -, -⟩
  exact absurd hsteps.symm (by simp)

theorem kept_concat {steps : List Step} :
    Kept session (steps ++ [s]) c ↔
      s ≠ .reset ∧ Kept session steps c ∨ s = .compareLast ∧ Compares (session.run steps) c := by
  constructor
  · rintro ⟨before, after, hsteps, hreset, hc⟩
    rcases List.eq_nil_or_concat after with rfl | ⟨after, last, rfl⟩
    · obtain ⟨rfl, hlast⟩ := List.append_inj' hsteps rfl
      exact .inr ⟨List.singleton_inj.mp hlast, hc⟩
    · rw [List.concat_eq_append, ← List.cons_append, ← List.append_assoc] at hsteps
      obtain ⟨rfl, hlast⟩ := List.append_inj' hsteps rfl
      obtain rfl := List.singleton_inj.mp hlast
      rw [List.concat_eq_append, List.mem_append, List.mem_singleton, not_or] at hreset
      exact .inl ⟨Ne.symm hreset.2, before, after, rfl, hreset.1, hc⟩
  · rintro (⟨hne, before, after, rfl, hreset, hc⟩ | ⟨rfl, hc⟩)
    · refine ⟨before, after ++ [s], by simp, ?_, hc⟩
      rw [List.mem_append, List.mem_singleton, not_or]
      exact ⟨hreset, Ne.symm hne⟩
    · exact ⟨steps, [], rfl, List.not_mem_nil, hc⟩

theorem Compares.unique {d : Comparison} (hc : Compares session c) (hd : Compares session d) :
    c = d := by
  obtain ⟨current, entry, last, found, rfl⟩ := hc
  obtain ⟨current', entry', last', found', rfl⟩ := hd
  obtain rfl := Option.some.inj (last.symm.trans last')
  obtain rfl := Except.ok.inj (found.symm.trans found')
  rfl

theorem Refuses.not_compares (h : Refuses session .compareLast refusal) : ¬ Compares session c := by
  rintro ⟨current, entry, last, found, -⟩
  cases h with
  | noEntry last' h =>
    obtain rfl := Option.some.inj (last.symm.trans last')
    exact nomatch found.symm.trans (entry_eq_error_of_none h)
  | unusableEntry last' found' unusable =>
    obtain rfl := Option.some.inj (last.symm.trans last')
    exact nomatch found.symm.trans (entry_eq_error_of_unusable found' unusable)

theorem mem_compared_step (hs : s.Admissible) :
    c ∈ (session.step s).2.compared ↔
      s ≠ .reset ∧ c ∈ session.compared ∨ s = .compareLast ∧ Compares session c := by
  rcases refuses_or_does session hs with ⟨refusal, hrefuses⟩ | ⟨next, hdoes⟩
  · have hreset : s ≠ .reset := by
      rintro rfl
      cases hrefuses
    have hcompare : ¬ (s = .compareLast ∧ Compares session c) := by
      rintro ⟨rfl, hc⟩
      exact hrefuses.not_compares hc
    rw [hrefuses.step]
    simp [hreset, hcompare]
  · obtain ⟨answer, hstep⟩ := hdoes.step
    rw [hstep]
    cases hdoes with
    | loadBaseline => simp
    | setThreshold => simp
    | measure => simp
    | simulate => simp
    | nothingToCompare h => simp [Compares, h]
    | compare hc =>
      have hiff : ∀ d, Compares session d ↔ d = _ := fun d =>
        ⟨fun hd => hd.unique hc, fun heq => heq ▸ hc⟩
      simp [hiff]
    | reset => simp

theorem step_compareLast_iff :
    (session.step .compareLast).1 = .ok (.comparison c) ↔ Compares session c := by
  constructor
  · intro h
    cases last : session.measured.getLast? with
    | none => simp [Session.step, attempt, last] at h
    | some current =>
      cases found : session.baseline.entry current.name with
      | error cause => simp [Session.step, attempt, last, found] at h
      | ok entry =>
        simp only [Session.step, attempt, last, found, Except.ok.injEq,
          Answer.comparison.injEq] at h
        exact ⟨current, entry, last, found, h.symm⟩
  · rintro ⟨current, entry, last, found, rfl⟩
    simp [Session.step, attempt, last, found]

theorem run_concat (steps : List Step) :
    session.run (steps ++ [s]) = ((session.run steps).step s).2 := by
  rw [run, List.foldl_append]
  rfl

/-- The comparisons kept are those made since the last reset. -/
theorem mem_compared_run (steps : List Step) (hsteps : ∀ s ∈ steps, s.Admissible) :
    c ∈ (start.run steps).compared ↔ Kept start steps c := by
  induction steps using List.reverseRecOn with
  | nil => exact iff_of_false List.not_mem_nil not_kept_nil
  | append_singleton steps s ih =>
    obtain ⟨hrest, hs⟩ := List.forall_mem_append.mp hsteps
    rw [run_concat, mem_compared_step (hs s List.mem_cons_self), ih hrest, kept_concat]

/-- In every session that is reached, a refused step changes nothing and was refused for one of
the reasons, what is kept is sound, and the verdict fails exactly if a comparison made since the
last reset was a regression at its time. -/
theorem run_keeps (steps : List Step) (hsteps : ∀ s ∈ steps, s.Admissible) :
    (∀ s : Step, s.Admissible → ∀ refusal,
      ((start.run steps).step s).1 = .error refusal →
        ((start.run steps).step s).2 = start.run steps ∧ Refuses (start.run steps) s refusal) ∧
    (start.run steps).Sound ∧
    ((start.run steps).verdict.exitCode = 0 ∨ (start.run steps).verdict.exitCode = 1) ∧
    ((start.run steps).verdict.exitCode = 1 ↔
      ∃ c, Kept start steps c ∧ c.classification = .regression) := by
  refine ⟨fun s hs refusal herror => ?_, start_sound.run steps hsteps, exitCode_cases _, ?_⟩
  · have hrefuses := (step_eq_error_iff hs).mp herror
    exact ⟨by rw [hrefuses.step], hrefuses⟩
  · rw [exitCode_eq_one_iff]
    exact exists_congr fun c => and_congr_left' (mem_compared_run steps hsteps)

def oneEntry : String :=
  "\x7b\"version\":\"1\",\"date\":\"\",\"hardware\":\x7b\"cpu\":\"\"\x7d,"
    ++ "\"benchmarks\":\x7b\"bulk\":\x7b\"mean_ms\":1.0,\"stddev_ms\":0.0\x7d\x7d\x7d"

/-- A threshold that is raised afterwards does not undo a regression. -/
theorem run_keeps_raised :
    (start.run [.loadBaseline oneEntry, .measure "bulk" "table" [2.0], .compareLast,
      .setThreshold 5.0]).verdict.exitCode = 1 := by
  have hsteps : ∀ s ∈ [.loadBaseline oneEntry, .measure "bulk" "table" [2.0], .compareLast,
      .setThreshold 5.0], Step.Admissible s := by
    have hmeasured : Numbers [2.0] := by decide
    simpa [Step.Admissible] using hmeasured
  have hregression : (match ((start.run [.loadBaseline oneEntry,
      .measure "bulk" "table" [2.0]]).step .compareLast).1 with
    | .ok (.comparison c) => decide (c.classification = .regression)
    | _ => false) = true := by decide +kernel
  split at hregression
  next c hstep =>
    refine (run_keeps _ hsteps).2.2.2.mpr ⟨c, ?_, of_decide_eq_true hregression⟩
    exact ⟨_, [.setThreshold 5.0], rfl, by simp, step_compareLast_iff.mp hstep⟩
  next => exact nomatch hregression

end

end PerfGate.Session
