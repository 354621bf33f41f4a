import PerfGate.Baseline
import PerfGate.Proofs.Json.Spelling
import PerfGate.Proofs.Json.Values

/-!
# Documents that present baselines

What a document presents level by level, whatever its numerals stand for. If each numeral stands
for a related number as well, the document presents a baseline with related numbers as well.
-/

set_option autoImplicit false

namespace PerfGate.Layout

open Json

/-! ## What documents present -/

def IsKept (node : Node) (v : Value) : Prop :=
  ∃ written, (∀ r, node.Says r written) ∧ node.nesting < Hardware.extraDepth ∧
    v = written.settled

def Each {α : Type} (stands : Node → α → Prop) :
    List (String × Node) → List (String × α) → Prop :=
  List.Forall₂ fun p kv => kv.1 = p.1 ∧ stands p.2 kv.2

def others (ps : List (String × Node)) : List (String × Node) :=
  ps.filter (·.1 ≠ "cpu")

inductive IsHardware : Node → Hardware → Prop where
  | mk {members : Members} {ps : List (String × Node)} {kvs : List (String × Value)}
      {hardware : Hardware} (lists : members.Lists ps)
      (cpu : Gives ps "cpu" Node.IsText hardware.cpu)
      (others : Each IsKept (others ps) kvs) (extra : Keeps kvs hardware.extra) :
      IsHardware (.object members) hardware

section
variable (stands : Node → Float → Prop)

inductive IsEntry : Node → BaselineEntry → Prop where
  | mk {members : Members} {ps : List (String × Node)} {entry : BaselineEntry}
      (lists : members.Lists ps) (mean : Gives ps "mean_ms" stands entry.mean)
      (deviation : Gives ps "stddev_ms" stands entry.deviation)
      (p95 : MayGive ps "p95_ms" stands entry.p95)
      (n : MayGive ps "n" Node.IsCount entry.n) : IsEntry (.object members) entry

inductive IsMap : Node → List (String × BaselineEntry) → Prop where
  | mk {members : Members} {ps : List (String × Node)} {kvs m : List (String × BaselineEntry)}
      (lists : members.Lists ps) (entries : Each (IsEntry stands) ps kvs) (last : Keeps kvs m) :
      IsMap (.object members) m

inductive IsBaseline : Node → Baseline → Prop where
  | mk {members : Members} {ps : List (String × Node)} {baseline : Baseline}
      (lists : members.Lists ps) (version : Gives ps "version" Node.IsText baseline.version)
      (date : Gives ps "date" Node.IsText baseline.date)
      (hardware : Gives ps "hardware" IsHardware baseline.hardware)
      (benchmarks : Gives ps "benchmarks" (IsMap stands) baseline.benchmarks) :
      IsBaseline (.object members) baseline

end

/-! ## Baselines with related numbers -/

structure AlikeEntry (R : Float → Float → Prop) (entry entry' : BaselineEntry) : Prop where
  mean : R entry.mean entry'.mean
  deviation : R entry.deviation entry'.deviation
  p95 : Option.Rel R entry.p95 entry'.p95
  n : entry'.n = entry.n

/-- The same baseline but for its numbers, each of which is related to the one in its place. -/
structure Alike (R : Float → Float → Prop) (baseline baseline' : Baseline) : Prop where
  version : baseline'.version = baseline.version
  date : baseline'.date = baseline.date
  hardware : baseline'.hardware = baseline.hardware
  benchmarks : Matched (AlikeEntry R) baseline.benchmarks baseline'.benchmarks

theorem AlikeEntry.eq {entry entry' : BaselineEntry} (h : AlikeEntry Eq entry entry') :
    entry' = entry := by
  obtain ⟨mean, deviation, p95, n⟩ := entry
  obtain ⟨mean', deviation', p95', n'⟩ := entry'
  obtain ⟨hmean, hdeviation, hp95, hn⟩ := h
  dsimp only at hmean hdeviation hp95 hn
  rw [hmean, hdeviation, hn]
  cases hp95 with
  | none => rfl
  | some h => rw [h]

theorem Alike.eq {baseline baseline' : Baseline} (h : Alike Eq baseline baseline') :
    baseline' = baseline := by
  obtain ⟨version, date, hardware, benchmarks⟩ := baseline
  obtain ⟨version', date', hardware', benchmarks'⟩ := baseline'
  obtain ⟨hversion, hdate, hhardware, hbenchmarks⟩ := h
  dsimp only at hversion hdate hhardware hbenchmarks
  rw [hversion, hdate, hhardware]
  congr 1
  induction hbenchmarks with
  | nil => rfl
  | cons hhead _ ih => exact congrArg₂ List.cons (Prod.ext hhead.1 hhead.2.eq) ih

theorem spells_of_lists {first : Bool} {members : Members} {ps : List (String × Node)}
    {s : List Char} (hspells : members.Spells first s) (lists : members.Lists ps) :
    ∀ p ∈ ps, ∃ t, p.2.Spells t := by
  induction lists generalizing first s with
  | nil => exact List.forall_mem_nil _
  | cons _ _ ih =>
    cases hspells with
    | first _ hmember hmembers =>
      obtain ⟨-, -, -, hnode⟩ := hmember
      exact List.forall_mem_cons.mpr ⟨⟨_, hnode⟩, ih hmembers⟩
    | next _ _ hmember hmembers =>
      obtain ⟨-, -, -, hnode⟩ := hmember
      exact List.forall_mem_cons.mpr ⟨⟨_, hnode⟩, ih hmembers⟩

theorem Each.related {α β : Type} {R : α → β → Prop} {stands : Node → α → Prop}
    {stands' : Node → β → Prop} {ps : List (String × Node)} {kvs : List (String × α)}
    (h : Each stands ps kvs)
    (hrelated : ∀ p ∈ ps, ∀ a, stands p.2 a → ∃ b, stands' p.2 b ∧ R a b) :
    ∃ kvs', Each stands' ps kvs' ∧ Matched R kvs kvs' := by
  induction h with
  | nil => exact ⟨[], .nil, .nil⟩
  | @cons p kv ps kvs hkv _ ih =>
    obtain ⟨hp, hps⟩ := List.forall_mem_cons.mp hrelated
    obtain ⟨hkey, ha⟩ := hkv
    obtain ⟨b, hb, hab⟩ := hp kv.2 ha
    obtain ⟨kvs', heach, hmatched⟩ := ih hps
    exact ⟨(kv.1, b) :: kvs', .cons ⟨hkey, hb⟩ heach, .cons ⟨rfl, hab⟩ hmatched⟩

section
variable {R : Float → Float → Prop} {stands stands' : Node → Float → Prop} {node : Node}
  {s : List Char}

theorem IsEntry.related
    (hrelated : ∀ node s x, node.Spells s → stands node x → ∃ y, stands' node y ∧ R x y)
    (hspells : node.Spells s) {entry : BaselineEntry} (h : IsEntry stands node entry) :
    ∃ entry', IsEntry stands' node entry' ∧ AlikeEntry R entry entry' := by
  cases h with
  | @mk members ps entry lists mean deviation p95 n =>
    cases hspells with
    | object hmembers =>
      have hmember : ∀ p ∈ ps, ∀ x, stands p.2 x → ∃ y, stands' p.2 y ∧ R x y :=
        fun p hp x hx =>
          let ⟨t, ht⟩ := spells_of_lists hmembers lists p hp
          hrelated p.2 t x ht hx
      obtain ⟨mean', hmean, hmean'⟩ := mean.related hmember
      obtain ⟨deviation', hdeviation, hdeviation'⟩ := deviation.related hmember
      obtain ⟨p95', hp95, hp95'⟩ := p95.related hmember
      exact ⟨⟨mean', deviation', p95', entry.n⟩, .mk lists hmean hdeviation hp95 n,
        hmean', hdeviation', hp95', rfl⟩

theorem IsMap.related
    (hrelated : ∀ node s x, node.Spells s → stands node x → ∃ y, stands' node y ∧ R x y)
    (hspells : node.Spells s) {m : List (String × BaselineEntry)} (h : IsMap stands node m) :
    ∃ m', IsMap stands' node m' ∧ Matched (AlikeEntry R) m m' := by
  cases h with
  | @mk members ps kvs m lists entries last =>
    cases hspells with
    | object hmembers =>
      obtain ⟨kvs', hentries, hmatched⟩ := entries.related fun p hp entry hentry =>
        let ⟨_, ht⟩ := spells_of_lists hmembers lists p hp
        hentry.related hrelated ht
      exact ⟨merged kvs', .mk lists hentries (keeps_merged kvs'), last.eq_merged ▸ hmatched.merged⟩

theorem IsBaseline.related
    (hrelated : ∀ node s x, node.Spells s → stands node x → ∃ y, stands' node y ∧ R x y)
    (hspells : node.Spells s) {baseline : Baseline} (h : IsBaseline stands node baseline) :
    ∃ baseline', IsBaseline stands' node baseline' ∧ Alike R baseline baseline' := by
  cases h with
  | @mk members ps baseline lists version date hardware benchmarks =>
    cases hspells with
    | object hmembers =>
      obtain ⟨m', hbenchmarks, hmatched⟩ := benchmarks.related fun p hp m hm =>
        let ⟨_, ht⟩ := spells_of_lists hmembers lists p hp
        hm.related hrelated ht
      exact ⟨⟨baseline.version, baseline.date, baseline.hardware, m'⟩,
        .mk lists version date hardware hbenchmarks, rfl, rfl, rfl, hmatched⟩

end

end PerfGate.Layout
