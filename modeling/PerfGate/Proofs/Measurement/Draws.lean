import PerfGate.Proofs.Measurement.Simulated

/-!
# Draws out of a stream of words

A source of words answers call after call, so it stands for a stream. Redrawing is put here as it
is meant, without a bound on the attempts: words are passed over up to the first that stands for a
duration below the end of the range. No word is passed over, so the bound is never reached; what is
drawn first does not depend on how much is drawn, and a recorded table leaves the stream untouched.
-/

set_option autoImplicit false

namespace PerfGate.Simulation

section
variable {σ : Type} (word : StateM σ UInt64)

/-! ## Word after word -/

def after : Nat → σ → σ
  | 0, source => source
  | n + 1, source => after n (word.run source).2

def wordAt (source : σ) (i : Nat) : UInt64 :=
  (word.run (after word i source)).1

/-! ## Redrawing without a bound -/

/-- The first word that stands for a duration below the end of the range is drawn, and those before
it are passed over. -/
inductive Drawn : σ → Float → σ → Prop
  | stands {source : σ} (h : stretched (word.run source).1 < 10.0) :
      Drawn source (stretched (word.run source).1) (word.run source).2
  | again {source rest : σ} {x : Float} (h : ¬ stretched (word.run source).1 < 10.0)
      (hrest : Drawn (word.run source).2 x rest) : Drawn source x rest

inductive DrawnAll : Nat → σ → List Float → σ → Prop
  | done {source : σ} : DrawnAll 0 source [] source
  | next {n : Nat} {source middle rest : σ} {x : Float} {xs : List Float}
      (hfirst : Drawn word source x middle) (hrest : DrawnAll n middle xs rest) :
      DrawnAll (n + 1) source (x :: xs) rest

inductive Simulates (name : String) (n : Nat) (source : σ) : List Sample → σ → Prop
  | replayed {table : List Float} (h : table? name = some table) :
      Simulates name n source (labelled name (cycled table n)) source
  | drawn {durations : List Float} {rest : σ} (h : table? name = none)
      (hdrawn : DrawnAll word n source durations rest) :
      Simulates name n source (labelled name durations) rest

variable {word}

theorem drawn_iff {source rest : σ} {x : Float} :
    Drawn word source x rest ↔
      x = stretched (word.run source).1 ∧ rest = (word.run source).2 := by
  have hbelow := stretched_lt (word.run source).1
  constructor
  · intro h
    cases h with
    | stands => exact ⟨rfl, rfl⟩
    | again hnot => exact absurd hbelow hnot
  · rintro ⟨rfl, rfl⟩
    exact .stands hbelow

theorem draws_succ (n : Nat) (source : σ) :
    (draws word (n + 1)).run source =
      (stretched (word.run source).1 :: ((draws word n).run (word.run source).2).1,
        ((draws word n).run (word.run source).2).2) := by
  rw [draws, draw_eq]
  rfl

/-- The bound on the attempts of a draw is never reached. -/
theorem drawnAll_iff {n : Nat} {source rest : σ} {xs : List Float} :
    DrawnAll word n source xs rest ↔ (draws word n).run source = (xs, rest) := by
  induction n generalizing source xs with
  | zero =>
    constructor
    · intro h
      cases h
      rfl
    · intro h
      obtain ⟨rfl, rfl⟩ := Prod.mk.inj h
      exact .done
  | succ n ih =>
    rw [draws_succ]
    constructor
    · intro h
      cases h with
      | next hfirst hrest =>
        obtain ⟨rfl, rfl⟩ := drawn_iff.mp hfirst
        rw [ih.mp hrest]
    · intro h
      obtain ⟨rfl, rfl⟩ := Prod.mk.inj h
      exact .next (drawn_iff.mpr ⟨rfl, rfl⟩) (ih.mpr rfl)

variable (word)

/-- A draw for each number, each out of the word with that number. -/
theorem draws_run (n : Nat) (source : σ) :
    (draws word n).run source =
      ((List.range n).map fun i => stretched (wordAt word source i), after word n source) := by
  induction n generalizing source with
  | zero => rfl
  | succ n ih =>
    rw [draws_succ, ih, List.range_succ_eq_map, List.map_cons, List.map_map]
    rfl

/-! ## Samples -/

section
variable {name : String} {n : Nat} {source : σ}

theorem samples_replayed {table : List Float} (h : table? name = some table) :
    (samples word name n).run source = (labelled name (cycled table n), source) := by
  rw [samples, durations, h]
  rfl

theorem samples_drawn (h : table? name = none) :
    (samples word name n).run source =
      (labelled name ((draws word n).run source).1, ((draws word n).run source).2) := by
  rw [samples, durations, h]
  rfl

theorem simulates_iff {rest : σ} {xs : List Sample} :
    Simulates word name n source xs rest ↔ (samples word name n).run source = (xs, rest) := by
  constructor
  · intro h
    cases h with
    | replayed htable => exact samples_replayed word htable
    | drawn htable hdrawn => rw [samples_drawn word htable, drawnAll_iff.mp hdrawn]
  · intro h
    cases htable : table? name with
    | some table =>
      rw [samples_replayed word htable] at h
      obtain ⟨rfl, rfl⟩ := Prod.mk.inj h
      exact .replayed htable
    | none =>
      rw [samples_drawn word htable] at h
      obtain ⟨rfl, rfl⟩ := Prod.mk.inj h
      exact .drawn htable (drawnAll_iff.mpr rfl)

end

/-- The duration with a number, however many are asked for. -/
def durationAt (name : String) (source : σ) (i : Nat) : Float :=
  match table? name with
  | some table => table.getD (i % table.length) 0.0
  | none => stretched (wordAt word source i)

theorem labelled_range (name : String) (duration : Nat → Float) (n : Nat) :
    labelled name ((List.range n).map duration) =
      (List.range n).map fun i => ⟨name, label, duration i, i⟩ := by
  apply List.ext_getElem
  · simp [labelled]
  · intro i h _
    simp [labelled]

theorem samples_eq (name : String) (n : Nat) (source : σ) :
    ((samples word name n).run source).1 =
      (List.range n).map fun i => ⟨name, label, durationAt word name source i, i⟩ := by
  unfold durationAt
  cases htable : table? name with
  | some table => rw [samples_replayed word htable, cycled, labelled_range]
  | none => rw [samples_drawn word htable, draws_run, labelled_range]

structure Sampled (name : String) (n : Nat) (source : σ) (xs : List Sample) (rest : σ) : Prop where
  length : xs.length = n
  labels : ∀ i (h : i < xs.length),
    xs[i].name = name ∧ xs[i].implementation = "simulated" ∧ xs[i].iteration = i
  /-- A recorded table is repeated and no word is taken. -/
  replayed : ∀ table, table? name = some table → rest = source ∧
    ∀ i (h : i < xs.length), table[i % table.length]? = some xs[i].duration
  /-- One word is taken for each sample. -/
  drawn : table? name = none → rest = after word n source ∧
    ∀ i (h : i < xs.length), xs[i].duration = stretched (wordAt word source i) ∧
      1.0 ≤ xs[i].duration ∧ xs[i].duration < 10.0

theorem one_le_stretched (w : UInt64) : 1.0 ≤ stretched w := by
  obtain ⟨hfinite, hle, -⟩ := stretched_range w
  rw [Number.le_iff_value (by decide) (Number.isNaN_of_isFinite hfinite), value_literals.1]
  exact hle

theorem sampled (name : String) (n : Nat) (source : σ) :
    Sampled word name n source ((samples word name n).run source).1
      ((samples word name n).run source).2 where
  length := by simp [samples_eq]
  labels i h := by simp [samples_eq, label]
  replayed table htable := by
    constructor
    · rw [samples_replayed word htable]
    · intro i h
      have hlt : i % table.length < table.length := Nat.mod_lt i (table?_recorded htable).1
      simp [samples_eq, durationAt, htable, hlt]
  drawn htable := by
    constructor
    · rw [samples_drawn word htable, draws_run]
    · intro i h
      have hdraw : (((samples word name n).run source).1[i]).duration =
          stretched (wordAt word source i) := by
        simp [samples_eq, durationAt, htable]
      rw [hdraw]
      exact ⟨rfl, one_le_stretched _, stretched_lt _⟩

/-- However often a draw may be repeated, simulating comes to an end, with one list of samples: as
many as were asked for, out of a table or with a word for each, and the first ones are the same
however many follow. -/
theorem simulated_samples (name : String) (n : Nat) (source : σ) :
    (∀ xs rest, Simulates word name n source xs rest ↔
      (samples word name n).run source = (xs, rest)) ∧
    Sampled word name n source ((samples word name n).run source).1
      ((samples word name n).run source).2 ∧
    (∀ w : UInt64, 1.0 ≤ stretched w ∧ stretched w < 10.0) ∧
    ∀ k ≤ n, ((samples word name k).run source).1 =
      ((samples word name n).run source).1.take k := by
  refine ⟨fun _ _ => simulates_iff word, sampled word name n source,
    fun w => ⟨one_le_stretched w, stretched_lt w⟩, ?_⟩
  intro k hk
  rw [samples_eq, samples_eq, ← List.map_take, List.take_range, min_eq_left hk]

end

/-- The word with the greatest fraction falls short of the end of the range by one step, and a
recorded table takes none of the words. -/
theorem simulated_samples_extremes :
    (2 ≤ 3 ∧ table? "mystery" = none) ∧
    ((samples Words.next "mystery" 2).run ⟨[0xffffffffffffffff, 0], 0⟩).1 =
      ((samples Words.next "mystery" 3).run ⟨[0xffffffffffffffff, 0], 0⟩).1.take 2 ∧
    ((samples Words.next "mystery" 3).run ⟨[0xffffffffffffffff, 0], 0⟩).2.used = 3 ∧
    ((samples Words.next "mystery" 3).run ⟨[0xffffffffffffffff, 0], 0⟩).1.map
        (·.duration.toBits) = [0x4023ffffffffffff, 0x3ff0000000000000, 0x4023ffffffffffff] ∧
    ∃ table, table? "bulk_1k_rows" = some table ∧
      ((samples Words.next "bulk_1k_rows" 12).run ⟨[], 0⟩).2.used = 0 := by
  have hmystery : table? "mystery" = none := by decide
  obtain ⟨-, hsampled, -, hprefix⟩ :=
    simulated_samples Words.next "mystery" 3 ⟨[0xffffffffffffffff, 0], 0⟩
  obtain ⟨-, hrecorded, -, -⟩ := simulated_samples Words.next "bulk_1k_rows" 12 ⟨[], 0⟩
  refine ⟨⟨by decide, hmystery⟩, hprefix 2 (by decide), ?_, by decide, _, rfl, ?_⟩
  · rw [(hsampled.drawn hmystery).1]
    rfl
  · rw [(hrecorded.replayed _ rfl).1]

end PerfGate.Simulation
