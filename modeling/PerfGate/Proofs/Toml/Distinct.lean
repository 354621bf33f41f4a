import PerfGate.Toml.Reader
import Mathlib.Tactic

/-!
# Names in tables

A table never has two entries of one name, however it came to be and however deep it lies: a
name that is defined again is refused, and a table that is opened again is changed in its place.
So what a document says is a matter of its entries and not of their order.
-/

set_option autoImplicit false

namespace PerfGate.Toml

/-! ## Distinct names -/

inductive Value.Distinct : Value → Prop where
  | text (s : String) : Distinct (.text s)
  | integer (n : Int) : Distinct (.integer n)
  | real (x : Float) : Distinct (.real x)
  | boolean (b : Bool) : Distinct (.boolean b)
  | moment : Distinct .moment
  | array {items : List Value} (h : ∀ v ∈ items, Distinct v) : Distinct (.array items)
  | table {origin : Origin} {entries : List (String × Value)}
      (names : (entries.map (·.1)).Nodup) (h : ∀ entry ∈ entries, Distinct entry.2) :
      Distinct (.table origin entries)
  | tables {elements : List Value} (h : ∀ v ∈ elements, Distinct v) : Distinct (.tables elements)

structure Entries.Distinct (entries : Entries) : Prop where
  names : (entries.map (·.1)).Nodup
  values : ∀ entry ∈ entries, entry.2.Distinct

namespace Entries

variable {entries : Entries} {key : String} {value : Value}

theorem distinct_nil : Distinct [] := ⟨.nil, List.forall_mem_nil _⟩

theorem Distinct.table (h : entries.Distinct) (origin : Origin) :
    (Value.table origin entries).Distinct :=
  .table h.names h.values

theorem distinct_of_table {origin : Origin} (h : (Value.table origin entries).Distinct) :
    entries.Distinct := by
  cases h with
  | table names values => exact ⟨names, values⟩

theorem mem_of_lookup (h : entries.lookup key = some value) : (key, value) ∈ entries := by
  obtain ⟨front, back, rfl, -⟩ := List.lookup_eq_some_iff.mp h
  simp

theorem Distinct.lookup (h : entries.Distinct) (hlookup : entries.lookup key = some value) :
    value.Distinct :=
  h.values _ (mem_of_lookup hlookup)

/-- Among distinct names an entry is found under its name. -/
theorem Distinct.lookup_eq_some_iff (h : entries.Distinct) :
    entries.lookup key = some value ↔ (key, value) ∈ entries := by
  refine ⟨mem_of_lookup, fun hmem => ?_⟩
  obtain ⟨front, back, rfl⟩ := List.append_of_mem hmem
  have hnames := h.names
  rw [List.map_append, List.map_cons, List.nodup_append] at hnames
  refine List.lookup_eq_some_iff.mpr ⟨front, back, rfl, fun entry hentry => ?_⟩
  simpa using (hnames.2.2 entry.1 (List.mem_map_of_mem hentry) key List.mem_cons_self).symm

theorem lookup_eq_none_iff : entries.lookup key = none ↔ ∀ value, (key, value) ∉ entries := by
  constructor
  · intro h value hmem
    exact absurd (List.lookup_eq_none_iff.mp h _ hmem) (by simp)
  · intro h
    rw [List.lookup_eq_none_iff]
    rintro ⟨name, value⟩ hmem
    by_contra heq
    obtain rfl : key = name := by simpa using heq
    exact h value hmem

theorem mem_put {entry : String × Value} (h : entry ∈ entries.put key value) :
    entry = (key, value) ∨ entry ∈ entries := by
  induction entries with
  | nil => exact .inl (List.mem_singleton.mp h)
  | cons head rest ih =>
    obtain ⟨name, old⟩ := head
    rw [put] at h
    split at h
    next heq =>
      subst heq
      exact (List.mem_cons.mp h).imp_right (List.mem_cons_of_mem _)
    next =>
      rcases List.mem_cons.mp h with rfl | h
      · exact .inr List.mem_cons_self
      · exact (ih h).imp_right (List.mem_cons_of_mem _)

theorem put_distinct (h : entries.Distinct) (hvalue : value.Distinct) :
    (entries.put key value).Distinct := by
  refine ⟨?_, fun entry hentry => ?_⟩
  · have hnames := h.names
    clear h
    induction entries with
    | nil => exact List.nodup_singleton _
    | cons head rest ih =>
      obtain ⟨name, old⟩ := head
      rw [List.map_cons, List.nodup_cons] at hnames
      rw [put]
      split
      next heq => exact List.nodup_cons.mpr ⟨heq ▸ hnames.1, hnames.2⟩
      next hne =>
        refine List.nodup_cons.mpr ⟨fun hmem => ?_, ih hnames.2⟩
        obtain ⟨entry, hentry, heq⟩ := List.mem_map.mp hmem
        rcases mem_put hentry with rfl | hentry
        · exact hne heq.symm
        · exact hnames.1 (List.mem_map.mpr ⟨entry, hentry, heq⟩)
  · rcases mem_put hentry with rfl | hentry
    · exact hvalue
    · exact h.values entry hentry

end Entries

/-- What every step keeps, a run of steps keeps. -/
theorem foldlM_invariant {α β : Type} {P : β → Prop} {step : β → α → Option β} {items : List α}
    {first last : β} (hstep : ∀ a ∈ items, ∀ b b', P b → step b a = some b' → P b')
    (hfirst : P first) (h : items.foldlM step first = some last) : P last := by
  induction items generalizing first with
  | nil =>
    obtain rfl := Option.some.inj h
    exact hfirst
  | cons a rest ih =>
    rw [List.foldlM_cons] at h
    obtain ⟨next, hnext, hrest⟩ := Option.bind_eq_some_iff.mp h
    exact ih (fun a ha => hstep a (List.mem_cons_of_mem _ ha))
      (hstep a List.mem_cons_self first next hfirst hnext) hrest

/-! ## Inline tables -/

section
variable {value : Value}

theorem putInline_distinct (hvalue : value.Distinct) {path : List String} {key : String}
    {entries changed : Entries} (h : entries.Distinct)
    (hput : putInline value path key entries = some changed) : changed.Distinct := by
  induction path generalizing entries changed with
  | nil =>
    rw [putInline] at hput
    split at hput
    · exact nomatch hput
    · obtain rfl := Option.some.inj hput
      exact Entries.put_distinct h hvalue
  | cons name path ih =>
    rw [putInline] at hput
    split at hput
    next =>
      obtain ⟨child, hchild, rfl⟩ := Option.map_eq_some_iff.mp hput
      exact Entries.put_distinct h ((ih Entries.distinct_nil hchild).table _)
    next child hlookup =>
      obtain ⟨child', hchild, rfl⟩ := Option.map_eq_some_iff.mp hput
      exact Entries.put_distinct h
        ((ih (Entries.distinct_of_table (h.lookup hlookup)) hchild).table _)
    next => exact nomatch hput

theorem inlineTable_distinct {pairs : List (List String × Value)} {table : Value}
    (hpairs : ∀ pair ∈ pairs, pair.2.Distinct) (h : inlineTable pairs = some table) :
    table.Distinct := by
  obtain ⟨entries, hfold, htable⟩ := Option.bind_eq_some_iff.mp h
  obtain rfl := Option.some.inj htable
  refine (foldlM_invariant (P := Entries.Distinct) ?_ Entries.distinct_nil hfold).table _
  intro pair hpair before after hbefore hstep
  obtain ⟨names, -, hput⟩ := Option.bind_eq_some_iff.mp hstep
  exact putInline_distinct (hpairs pair hpair) hbefore hput

end

/-! ## Values -/

theorem readWord_distinct {word s rest : List Char} {value read : Value} (h : value.Distinct)
    (hread : readWord word value s = some (read, rest)) : read.Distinct := by
  rw [readWord] at hread
  split at hread
  · obtain ⟨rfl, -⟩ := Prod.ext_iff.mp (Option.some.inj hread)
    exact h
  · exact nomatch hread

theorem readNumber_distinct {s rest : List Char} {value : Value}
    (h : readNumber s = some (value, rest)) : value.Distinct := by
  rw [readNumber] at h
  split at h
  · obtain ⟨rfl, -⟩ := Prod.ext_iff.mp (Option.some.inj h)
    exact .moment
  · split at h
    · obtain ⟨rfl, -⟩ := Prod.ext_iff.mp (Option.some.inj h)
      exact .real _
    · obtain ⟨read, -, heq⟩ := Option.map_eq_some_iff.mp h
      obtain ⟨rfl, -⟩ := Prod.ext_iff.mp heq
      exact .integer _

/-- What the three readers of values read, which share their fuel, has distinct names. -/
structure ReadersDistinct (fuel : Nat) : Prop where
  value : ∀ {depth s v rest}, readValue fuel depth s = some (v, rest) → v.Distinct
  array : ∀ {depth s items rest}, readArray fuel depth s = some (items, rest) →
    ∀ v ∈ items, Value.Distinct v
  pairs : ∀ {depth s pairs rest}, readPairs fuel depth s = some (pairs, rest) →
    ∀ pair ∈ pairs, Value.Distinct (Prod.snd pair)

namespace ReadersDistinct

variable {fuel depth : Nat} {s rest : List Char}

theorem value_succ (ih : ReadersDistinct fuel) {value : Value}
    (h : readValue (fuel + 1) depth s = some (value, rest)) : value.Distinct := by
  cases s with
  | nil => exact nomatch h
  | cons c front =>
    rw [readValue] at h
    split_ifs at h
    next =>
      obtain ⟨read, -, heq⟩ := Option.map_eq_some_iff.mp h
      obtain ⟨rfl, -⟩ := Prod.ext_iff.mp heq
      exact .text _
    next =>
      obtain ⟨⟨items, _⟩, hitems, heq⟩ := Option.map_eq_some_iff.mp h
      obtain ⟨rfl, -⟩ := Prod.ext_iff.mp heq
      exact .array (ih.array hitems)
    next =>
      split at h
      · obtain ⟨rfl, -⟩ := Prod.ext_iff.mp (Option.some.inj h)
        exact Entries.distinct_nil.table _
      · obtain ⟨⟨pairs, _⟩, hpairs, h⟩ := Option.bind_eq_some_iff.mp h
        obtain ⟨table, htable, heq⟩ := Option.bind_eq_some_iff.mp h
        obtain ⟨rfl, -⟩ := Prod.ext_iff.mp (Option.some.inj heq)
        exact inlineTable_distinct (ih.pairs hpairs) htable
    next => exact readWord_distinct (.boolean _) h
    next => exact readWord_distinct (.boolean _) h
    next => exact readNumber_distinct h

theorem array_succ (ih : ReadersDistinct fuel) {items : List Value}
    (h : readArray (fuel + 1) depth s = some (items, rest)) : ∀ v ∈ items, v.Distinct := by
  rw [readArray.eq_def] at h
  dsimp only at h
  split at h
  next =>
    obtain ⟨rfl, -⟩ := Prod.ext_iff.mp (Option.some.inj h)
    exact List.forall_mem_nil _
  next =>
    obtain ⟨⟨value, _⟩, hvalue, h⟩ := Option.bind_eq_some_iff.mp h
    dsimp only at h
    split at h
    next =>
      obtain ⟨⟨more, _⟩, hmore, heq⟩ := Option.bind_eq_some_iff.mp h
      obtain ⟨rfl, -⟩ := Prod.ext_iff.mp (Option.some.inj heq)
      exact List.forall_mem_cons.mpr ⟨ih.value hvalue, ih.array hmore⟩
    next =>
      obtain ⟨rfl, -⟩ := Prod.ext_iff.mp (Option.some.inj h)
      exact List.forall_mem_singleton.mpr (ih.value hvalue)
    next => exact nomatch h

theorem pairs_succ (ih : ReadersDistinct fuel) {pairs : List (List String × Value)}
    (h : readPairs (fuel + 1) depth s = some (pairs, rest)) :
    ∀ pair ∈ pairs, pair.2.Distinct := by
  rw [readPairs.eq_def] at h
  obtain ⟨⟨key, _⟩, -, h⟩ := Option.bind_eq_some_iff.mp h
  obtain ⟨afterSign, -, h⟩ := Option.bind_eq_some_iff.mp h
  obtain ⟨⟨value, _⟩, hvalue, h⟩ := Option.bind_eq_some_iff.mp h
  dsimp only at h
  split at h
  next =>
    obtain ⟨⟨more, _⟩, hmore, heq⟩ := Option.bind_eq_some_iff.mp h
    obtain ⟨rfl, -⟩ := Prod.ext_iff.mp (Option.some.inj heq)
    exact List.forall_mem_cons.mpr ⟨ih.value hvalue, ih.pairs hmore⟩
  next =>
    obtain ⟨rfl, -⟩ := Prod.ext_iff.mp (Option.some.inj h)
    exact List.forall_mem_singleton.mpr (ih.value hvalue)
  next => exact nomatch h

end ReadersDistinct

theorem readers_distinct (fuel : Nat) : ReadersDistinct fuel := by
  induction fuel with
  | zero =>
    constructor
    · intro _ _ _ _ h
      exact nomatch h
    · intro _ _ _ _ h
      exact nomatch h
    · intro _ _ _ _ h
      exact nomatch h
  | succ fuel ih => exact ⟨ih.value_succ, ih.array_succ, ih.pairs_succ⟩

/-! ## Lines -/

def Line.Distinct : Line → Prop
  | .definition _ _ value => value.Distinct
  | _ => True

theorem readHeader_distinct {s rest : List Char} {line : Line}
    (h : readHeader s = some (line, rest)) : line.Distinct := by
  obtain ⟨⟨names, _⟩, -, h⟩ := Option.bind_eq_some_iff.mp h
  obtain ⟨⟨path, key⟩, -, h⟩ := Option.bind_eq_some_iff.mp h
  obtain ⟨_, -, h⟩ := Option.bind_eq_some_iff.mp h
  obtain ⟨_, -, h⟩ := Option.bind_eq_some_iff.mp h
  obtain ⟨rfl, -⟩ := Prod.ext_iff.mp (Option.some.inj h)
  trivial

theorem readArrayHeader_distinct {s rest : List Char} {line : Line}
    (h : readArrayHeader s = some (line, rest)) : line.Distinct := by
  obtain ⟨⟨names, _⟩, -, h⟩ := Option.bind_eq_some_iff.mp h
  obtain ⟨⟨path, key⟩, -, h⟩ := Option.bind_eq_some_iff.mp h
  obtain ⟨_, -, h⟩ := Option.bind_eq_some_iff.mp h
  obtain ⟨_, -, h⟩ := Option.bind_eq_some_iff.mp h
  obtain ⟨_, -, h⟩ := Option.bind_eq_some_iff.mp h
  obtain ⟨rfl, -⟩ := Prod.ext_iff.mp (Option.some.inj h)
  trivial

theorem readDefinition_distinct {s rest : List Char} {line : Line}
    (h : readDefinition s = some (line, rest)) : line.Distinct := by
  obtain ⟨⟨names, _⟩, -, h⟩ := Option.bind_eq_some_iff.mp h
  obtain ⟨⟨path, key⟩, -, h⟩ := Option.bind_eq_some_iff.mp h
  obtain ⟨_, -, h⟩ := Option.bind_eq_some_iff.mp h
  obtain ⟨⟨value, _⟩, hvalue, h⟩ := Option.bind_eq_some_iff.mp h
  obtain ⟨_, -, h⟩ := Option.bind_eq_some_iff.mp h
  obtain ⟨rfl, -⟩ := Prod.ext_iff.mp (Option.some.inj h)
  exact (readers_distinct _).value hvalue

theorem readLinesOf_distinct {fuel : Nat} {s : List Char} {lines : List Line}
    (h : readLinesOf fuel s = some lines) : ∀ line ∈ lines, line.Distinct := by
  induction fuel generalizing s lines with
  | zero => exact nomatch h
  | succ fuel ih =>
    rw [readLinesOf] at h
    split at h
    next =>
      obtain rfl := Option.some.inj h
      exact List.forall_mem_nil _
    next c rest _ =>
      split at h
      next =>
        obtain ⟨_, -, h⟩ := Option.bind_eq_some_iff.mp h
        exact ih h
      next =>
        have hfront : ∀ {line : Line} {rest : List Char}, line.Distinct →
            ((readLinesOf fuel rest).bind fun more => some (line :: more)) = some lines →
            ∀ line ∈ lines, line.Distinct := by
          intro line rest hline h
          obtain ⟨more, hmore, h⟩ := Option.bind_eq_some_iff.mp h
          obtain rfl := Option.some.inj h
          exact List.forall_mem_cons.mpr ⟨hline, ih hmore⟩
        dsimp only at h
        split at h
        · obtain ⟨⟨line, _⟩, hline, h⟩ := Option.bind_eq_some_iff.mp h
          exact hfront (readArrayHeader_distinct hline) h
        · obtain ⟨⟨line, _⟩, hline, h⟩ := Option.bind_eq_some_iff.mp h
          exact hfront (readHeader_distinct hline) h
        · obtain ⟨⟨line, _⟩, hline, h⟩ := Option.bind_eq_some_iff.mp h
          exact hfront (readDefinition_distinct hline) h

/-! ## Tables -/

def KeepsDistinct (change : Origin → Entries → Option (Origin × Entries)) : Prop :=
  ∀ {origin entries origin' entries'}, entries.Distinct →
    change origin entries = some (origin', entries') → Entries.Distinct entries'

theorem changeAt_distinct {dotted : Bool}
    {change : Origin → Entries → Option (Origin × Entries)} (hchange : KeepsDistinct change)
    (path : List String) : KeepsDistinct (changeAt dotted change path) := by
  induction path with
  | nil => exact hchange
  | cons name path ih =>
    intro origin entries origin' entries' hentries h
    obtain ⟨child, hchild, heq⟩ := Option.map_eq_some_iff.mp h
    obtain ⟨-, rfl⟩ := Prod.ext_iff.mp heq
    refine Entries.put_distinct hentries ?_
    split at hchild
    next =>
      obtain ⟨⟨o, es⟩, hes, rfl⟩ := Option.map_eq_some_iff.mp hchild
      exact (ih Entries.distinct_nil hes).table _
    next o es hlookup =>
      split at hchild
      · exact nomatch hchild
      · obtain ⟨⟨o', es'⟩, hes, rfl⟩ := Option.map_eq_some_iff.mp hchild
        exact (ih (Entries.distinct_of_table (hentries.lookup hlookup)) hes).table _
    next elements hlookup =>
      have helements : ∀ v ∈ elements, v.Distinct := by
        cases hentries.lookup hlookup with
        | tables h => exact h
      split at hchild
      next o es hlast =>
        obtain ⟨⟨o', es'⟩, hes, rfl⟩ := Option.map_eq_some_iff.mp hchild
        have hes' := ih (Entries.distinct_of_table
          (helements _ (List.mem_of_getLast? hlast))) hes
        refine .tables fun v hv => ?_
        rcases List.mem_append.mp hv with hv | hv
        · exact helements v (List.mem_of_mem_dropLast hv)
        · obtain rfl := List.mem_singleton.mp hv
          exact hes'.table _
      next => exact nomatch hchild
    next => exact nomatch hchild

theorem openTable_distinct (key : String) : KeepsDistinct (openTable key) := by
  intro origin entries origin' entries' hentries h
  rw [openTable] at h
  split at h
  next =>
    obtain ⟨-, rfl⟩ := Prod.ext_iff.mp (Option.some.inj h)
    exact Entries.put_distinct hentries (Entries.distinct_nil.table _)
  next hlookup =>
    obtain ⟨-, rfl⟩ := Prod.ext_iff.mp (Option.some.inj h)
    exact Entries.put_distinct hentries
      ((Entries.distinct_of_table (hentries.lookup hlookup)).table _)
  next => exact nomatch h

theorem openElement_distinct (key : String) : KeepsDistinct (openElement key) := by
  intro origin entries origin' entries' hentries h
  have hnew : (Value.table .header []).Distinct := Entries.distinct_nil.table _
  rw [openElement] at h
  split at h
  next =>
    obtain ⟨-, rfl⟩ := Prod.ext_iff.mp (Option.some.inj h)
    exact Entries.put_distinct hentries (.tables (List.forall_mem_singleton.mpr hnew))
  next elements hlookup =>
    obtain ⟨-, rfl⟩ := Prod.ext_iff.mp (Option.some.inj h)
    refine Entries.put_distinct hentries (.tables ?_)
    cases hentries.lookup hlookup with
    | tables helements =>
      exact List.forall_mem_append.mpr ⟨helements, List.forall_mem_singleton.mpr hnew⟩
  next => exact nomatch h

theorem define_distinct {value : Value} (hvalue : value.Distinct) (dotted : Bool)
    (key : String) : KeepsDistinct (define dotted key value) := by
  intro origin entries origin' entries' hentries h
  rw [define] at h
  split_ifs at h
  obtain ⟨-, rfl⟩ := Prod.ext_iff.mp (Option.some.inj h)
  exact Entries.put_distinct hentries hvalue

/-! ## Documents -/

theorem Building.change_distinct {b b' : Building} {path current : List String}
    {change : Origin → Entries → Option (Origin × Entries)} (hchange : KeepsDistinct change)
    (hb : b.root.Distinct) (h : b.change path current change = some b') : b'.root.Distinct := by
  obtain ⟨⟨_, root⟩, hroot, h⟩ := Option.bind_eq_some_iff.mp h
  obtain rfl := Option.some.inj h
  exact changeAt_distinct hchange path hb hroot

theorem Building.line_distinct {b b' : Building} {line : Line} (hline : line.Distinct)
    (hb : b.root.Distinct) (h : b.line line = some b') : b'.root.Distinct := by
  cases line with
  | header path key => exact change_distinct (openTable_distinct key) hb h
  | arrayHeader path key => exact change_distinct (openElement_distinct key) hb h
  | definition path key value =>
    exact change_distinct (changeAt_distinct (define_distinct hline _ key) path) hb h

theorem parse_distinct {text : String} {root : Entries} (h : parse text = some root) :
    root.Distinct := by
  obtain ⟨lines, hlines, h⟩ := Option.bind_eq_some_iff.mp h
  obtain ⟨built, hbuilt, heq⟩ := Option.bind_eq_some_iff.mp h
  obtain rfl := Option.some.inj heq
  exact foldlM_invariant (P := fun b : Building => b.root.Distinct)
    (fun line hline _ _ hb hstep =>
      Building.line_distinct (readLinesOf_distinct hlines line hline) hb hstep)
    Entries.distinct_nil hbuilt

end PerfGate.Toml
