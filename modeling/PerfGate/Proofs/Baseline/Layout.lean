import PerfGate.Proofs.Baseline.Documents
import PerfGate.Proofs.Json.Presenting
import PerfGate.Proofs.Json.Reading

/-!
# The layout of baselines

A baseline is what its document lists, level by level: four members and whatever else, an
open-ended description of the machine, a map of entries in which the last one of a name counts,
and in each entry two members that have to be there, two that need not, and whatever else. The
order of the members and the blanks between the tokens do not matter. A member that has to be
there is there once. A short numeral is read as the number that it presents. Other numerals are
read with more than one rounding, so that what is read for them is only near to it.
-/

set_option autoImplicit false

namespace PerfGate.Layout

open Json

/-! ## Entries -/

section
variable {α : Type} {ps : List (String × Node)} {key : String} {stands : Node → α → Prop}
  {decode : Decoder α}

/-- Nothing but a decoded value stands for a value that may be left out. -/
theorem presented_of_mayGive {a : Option α}
    (hdecode : ∀ node a, stands node a → decode node = .ok a)
    (hnull : ∀ a, ¬ stands .null a) (h : MayGive ps key stands a) :
    (omissible key decode).Presented none (valuesOf key ps) a := by
  cases a with
  | none =>
    obtain h | h := h
    · rw [h]
      rfl
    · rw [h]
      rfl
  | some a =>
    obtain ⟨node, hvalues, hnode⟩ := h
    rw [hvalues]
    have hoptional : optional decode node = (decode node).map some := by
      cases node with
      | null => exact absurd hnode (hnull a)
      | _ => rfl
    show optional decode node = .ok (some a)
    rw [hoptional, hdecode node a hnode]
    rfl

end

theorem IsEntry.decoded {node : Node} {entry : BaselineEntry}
    (h : IsEntry (Node.IsReal .quick) node entry) (hskip : node.skip = .ok ()) :
    BaselineEntry.decoder node = .ok entry := by
  cases h with
  | @mk members ps entry lists mean deviation p95 n =>
    have hnumber : ∀ node x, Node.IsReal .quick node x → Json.real node = .ok x :=
      fun _ _ h => h.decoded
    have hpresented : BaselineEntry.slots.Presented ps
        (entry.mean, entry.deviation, entry.p95, entry.n, ()) :=
      ⟨presented_of_gives (fun node _ => hnumber node _) mean,
        presented_of_gives (fun node _ => hnumber node _) deviation,
        presented_of_mayGive hnumber (fun _ ⟨_, _, h, _⟩ => nomatch h) p95,
        presented_of_mayGive (fun _ _ h => h.decoded) (fun _ ⟨_, h, _⟩ => nomatch h) n, trivial⟩
    rw [BaselineEntry.decoder, (record_eq_ok_iff (by decide) lists hskip).mpr hpresented]
    rfl

/-! ## The machine -/

def described (ps : List (String × Node)) (draft : Hardware.Draft) : Except Json.Fault Hardware :=
  (ps.foldlM (fun (draft : Hardware.Draft) p => draft.put p.1 p.2) draft).bind
    Hardware.Draft.finish

theorem described_cons (key : String) (node : Node) (ps : List (String × Node))
    (draft : Hardware.Draft) :
    described ((key, node) :: ps) draft = (draft.put key node).bind (described ps) := by
  rw [described, List.foldlM_cons]
  cases draft.put key node <;> rfl

def keep (node : Node) : Except Json.Fault Value :=
  kept (node.value .quick Hardware.extraDepth)

section
variable {ps : List (String × Node)} {cpu : Option String} {extra : List (String × Value)}
  {hardware : Hardware}

def Describes (ps : List (String × Node)) (cpu : Option String) (extra : List (String × Value))
    (hardware : Hardware) : Prop :=
  (required "cpu" text).Presented cpu (valuesOf "cpu" ps) hardware.cpu ∧
    ∃ kvs, Decoded keep (others ps) kvs ∧
      kvs.foldl (fun m kv => insertMember kv.1 kv.2 m) extra = hardware.extra

theorem described_nil :
    described [] ⟨cpu, extra⟩ = .ok hardware ↔ Describes [] cpu extra hardware := by
  obtain ⟨name, members⟩ := hardware
  have hnil : (∃ kvs, Decoded keep (others []) kvs ∧
      kvs.foldl (fun m kv => insertMember kv.1 kv.2 m) extra = members) ↔ extra = members :=
    ⟨fun ⟨_, .nil, h⟩ => h, fun h => ⟨[], .nil, h⟩⟩
  rw [Describes, hnil]
  cases cpu with
  | none => exact iff_of_false nofun fun h => nomatch h.1
  | some c =>
    constructor
    · intro h
      cases h
      exact ⟨rfl, rfl⟩
    · rintro ⟨rfl, rfl⟩
      rfl

/-- A processor is told once. -/
theorem described_cpu {node : Node} (ih : ∀ cpu extra,
    described ps ⟨cpu, extra⟩ = .ok hardware ↔ Describes ps cpu extra hardware) :
    described (("cpu", node) :: ps) ⟨cpu, extra⟩ = .ok hardware ↔
      Describes (("cpu", node) :: ps) cpu extra hardware := by
  rw [described_cons, Describes, valuesOf_cons_self, others,
    List.filter_cons_of_neg (by simp), ← others]
  cases cpu with
  | some c => exact iff_of_false nofun fun h => h.1
  | none =>
    have hput : Hardware.Draft.put ⟨none, extra⟩ "cpu" node =
        (text node).map fun cpu => ⟨some cpu, extra⟩ := if_pos rfl
    rw [Field.presented_first, hput]
    cases htext : text node with
    | error fault => exact iff_of_false nofun fun ⟨⟨_, h, _⟩, _⟩ => nomatch htext.symm.trans h
    | ok c =>
      refine (ih _ _).trans (and_congr_left fun _ => ?_)
      exact ⟨fun h => ⟨c, htext, h⟩, fun ⟨_, h, hgiven⟩ =>
        Except.ok.inj (htext.symm.trans h) ▸ hgiven⟩

/-- Any other member is kept. -/
theorem described_other {key : String} {node : Node} (hkey : key ≠ "cpu") (ih : ∀ cpu extra,
    described ps ⟨cpu, extra⟩ = .ok hardware ↔ Describes ps cpu extra hardware) :
    described ((key, node) :: ps) ⟨cpu, extra⟩ = .ok hardware ↔
      Describes ((key, node) :: ps) cpu extra hardware := by
  have hput : Hardware.Draft.put ⟨cpu, extra⟩ key node =
      (keep node).map fun v => ⟨cpu, insertMember key v extra⟩ := if_neg hkey
  rw [described_cons, Describes, valuesOf_cons_ne hkey, others,
    List.filter_cons_of_pos (by simpa using hkey), ← others, hput]
  cases hkeep : keep node with
  | error fault =>
    refine iff_of_false nofun fun ⟨_, kvs, hdecoded, _⟩ => ?_
    cases hdecoded with
    | cons hkv => exact nomatch hkeep.symm.trans hkv.2
  | ok v =>
    refine (ih _ _).trans (and_congr_right fun _ => ?_)
    constructor
    · rintro ⟨kvs, hdecoded, hm⟩
      exact ⟨(key, v) :: kvs, .cons ⟨rfl, hkeep⟩ hdecoded, hm⟩
    · rintro ⟨kvs, hdecoded, hm⟩
      cases hdecoded with
      | @cons _ kv _ kvs hkv hdecoded =>
        obtain ⟨k, w⟩ := kv
        obtain ⟨rfl, hw⟩ := hkv
        obtain rfl := Except.ok.inj (hkeep.symm.trans hw)
        exact ⟨kvs, hdecoded, hm⟩

theorem described_eq_ok_iff :
    described ps ⟨cpu, extra⟩ = .ok hardware ↔ Describes ps cpu extra hardware := by
  induction ps generalizing cpu extra with
  | nil => exact described_nil
  | cons p ps ih =>
    obtain ⟨key, node⟩ := p
    by_cases hkey : key = "cpu"
    · exact hkey ▸ described_cpu fun _ _ => ih
    · exact described_other hkey fun _ _ => ih

end

/-- The machine is described by the processor and by what is kept of everything else. -/
theorem hardware_eq_ok_iff {members : Members} {ps : List (String × Node)}
    (h : members.Lists ps) {hardware : Hardware} :
    Hardware.decoder (.object members) = .ok hardware ↔
      (∃ node, valuesOf "cpu" ps = [node] ∧ text node = .ok hardware.cpu) ∧
        ∃ kvs, Decoded keep (others ps) kvs ∧ Keeps kvs hardware.extra := by
  have hdecoder : Hardware.decoder (.object members) = described ps ⟨none, []⟩ := by
    rw [Hardware.decoder, foldMembers_eq h, described]
    cases ps.foldlM (fun (draft : Hardware.Draft) p => draft.put p.1 p.2) ⟨none, []⟩ <;> rfl
  rw [hdecoder, described_eq_ok_iff, Describes, presented_required]
  refine and_congr_right fun _ => exists_congr fun kvs => and_congr_right fun _ => ?_
  exact ⟨fun h => h ▸ keeps_merged kvs, fun h => h.eq_merged.symm⟩

theorem IsKept.decoded {node : Node} {v : Value} (h : IsKept node v) : keep node = .ok v := by
  obtain ⟨written, hwritten, hdepth, rfl⟩ := h
  rw [keep, (hwritten .quick).value hdepth]
  rfl

theorem Each.decoded {α ε : Type} {stands : Node → α → Prop} {decode : Node → Except ε α}
    {ps : List (String × Node)} {kvs : List (String × α)} (h : Each stands ps kvs)
    (hdecode : ∀ p ∈ ps, ∀ a, stands p.2 a → decode p.2 = .ok a) : Decoded decode ps kvs := by
  induction h with
  | nil => exact .nil
  | cons hkv _ ih =>
    obtain ⟨hp, hps⟩ := List.forall_mem_cons.mp hdecode
    exact .cons ⟨hkv.1, hp _ hkv.2⟩ (ih hps)

theorem IsHardware.decoded {node : Node} {hardware : Hardware} (h : IsHardware node hardware) :
    Hardware.decoder node = .ok hardware := by
  cases h with
  | mk lists cpu others extra =>
    obtain ⟨node, hvalues, htext⟩ := cpu
    exact (hardware_eq_ok_iff lists).mpr ⟨⟨node, hvalues, htext.decoded⟩, _,
      others.decoded fun _ _ _ h => h.decoded, extra⟩

/-! ## Whole baselines -/

theorem IsMap.decoded {node : Node} {m : List (String × BaselineEntry)}
    (h : IsMap (Node.IsReal .quick) node m) (hskip : node.skip = .ok ()) :
    Json.map BaselineEntry.decoder node = .ok m := by
  cases h with
  | mk lists entries last =>
    have hskips := skip_of_lists lists hskip
    exact (map_eq_ok_iff lists).mpr ⟨_, entries.decoded fun p hp _ h => h.decoded (hskips p hp),
      last⟩

theorem IsBaseline.decoded {node : Node} {baseline : Baseline}
    (h : IsBaseline (Node.IsReal .quick) node baseline) (hskip : node.skip = .ok ()) :
    Baseline.decoder node = .ok baseline := by
  cases h with
  | @mk members ps baseline lists version date hardware benchmarks =>
    have hpresented : Baseline.slots.Presented ps
        (baseline.version, baseline.date, baseline.hardware, baseline.benchmarks, ()) :=
      ⟨presented_of_gives (fun _ _ h => h.decoded) version,
        presented_of_gives (fun _ _ h => h.decoded) date,
        presented_of_gives (fun _ _ h => h.decoded) hardware,
        presented_of_gives
          (fun _ hnode h => h.decoded (skip_of_mem_valuesOf lists hskip hnode)) benchmarks,
        trivial⟩
    rw [Baseline.decoder, (record_eq_ok_iff (by decide) lists hskip).mpr hpresented]
    rfl

theorem parse_eq {node : Node} {text : String} (h : node.SpelledBy text) :
    Baseline.parse text = Baseline.decoder node := by
  rw [Baseline.parse, decode, read_of_spelledBy h]
  cases Baseline.decoder node <;> rfl

/-! ## What is refused -/

/-- Among the members one that has to be there is missing or repeated. -/
def Faulty (ps : List (String × Node)) (required : List String) : Prop :=
  ∃ key ∈ required, (valuesOf key ps).length ≠ 1

def FaultyHardware (node : Node) : Prop :=
  ∃ members ps, node = .object members ∧ members.Lists ps ∧ Faulty ps ["cpu"]

/-- One of the entries is faulty, even if another of its name follows. -/
def FaultyMap (node : Node) : Prop :=
  ∃ members ps name entry qs, node = .object members ∧ members.Lists ps ∧
    (name, .object entry) ∈ ps ∧ entry.Lists qs ∧ Faulty qs ["mean_ms", "stddev_ms"]

def FaultyBaseline (ps : List (String × Node)) : Prop :=
  Faulty ps ["version", "date", "hardware", "benchmarks"] ∨
    (∃ node, ("hardware", node) ∈ ps ∧ FaultyHardware node) ∨
    ∃ node, ("benchmarks", node) ∈ ps ∧ FaultyMap node

section
variable {α : Type} {members : Members} {ps : List (String × Node)} {key : String}

theorem not_faulty {required : List String}
    (h : ∀ key ∈ required, ∃ node, valuesOf key ps = [node]) : ¬ Faulty ps required := by
  rintro ⟨key, hkey, hlength⟩
  obtain ⟨node, hvalues⟩ := h key hkey
  exact hlength (by rw [hvalues]; rfl)

/-- What is presented for a field that has to be there was listed once and was decoded. -/
theorem decoded_of_presented {decode : Decoder α} {a : α}
    (h : (required key decode).Presented none (valuesOf key ps) a) :
    (∃ node, valuesOf key ps = [node]) ∧ ∀ node, (key, node) ∈ ps → decode node = .ok a := by
  obtain ⟨node, hvalues, hnode⟩ := presented_required.mp h
  refine ⟨⟨node, hvalues⟩, fun other hother => ?_⟩
  rw [← mem_valuesOf, hvalues, List.mem_singleton] at hother
  exact hother ▸ hnode

theorem entry_not_faulty {entry : BaselineEntry} (lists : members.Lists ps)
    (hskip : members.skip = .ok ())
    (h : BaselineEntry.decoder (.object members) = .ok entry) :
    ¬ Faulty ps ["mean_ms", "stddev_ms"] := by
  obtain ⟨t, hrecord, -⟩ := Attempts.map_eq_ok_iff.mp h
  obtain ⟨hmean, hdeviation, -⟩ := (record_eq_ok_iff (by decide) lists hskip).mp hrecord
  refine not_faulty (List.forall_mem_cons.mpr ⟨(decoded_of_presented hmean).1, ?_⟩)
  exact List.forall_mem_singleton.mpr (decoded_of_presented hdeviation).1

theorem hardware_not_faulty {node : Node} {hardware : Hardware}
    (h : Hardware.decoder node = .ok hardware) : ¬ FaultyHardware node := by
  rintro ⟨members, ps, rfl, lists, hfaulty⟩
  obtain ⟨⟨node, hvalues, -⟩, -⟩ := (hardware_eq_ok_iff lists).mp h
  exact not_faulty (List.forall_mem_singleton.mpr ⟨node, hvalues⟩) hfaulty

theorem map_not_faulty {node : Node} {m : List (String × BaselineEntry)}
    (hskip : node.skip = .ok ()) (h : Json.map BaselineEntry.decoder node = .ok m) :
    ¬ FaultyMap node := by
  rintro ⟨members, ps, name, entry, qs, rfl, lists, hmem, hentry, hfaulty⟩
  obtain ⟨kvs, hdecoded, -⟩ := (map_eq_ok_iff lists).mp h
  obtain ⟨decoded, hok⟩ := hdecoded.of_mem hmem
  exact entry_not_faulty hentry (skip_of_lists lists hskip _ hmem) hok hfaulty

theorem not_faulty_of_decoded {baseline : Baseline} (lists : members.Lists ps)
    (hskip : members.skip = .ok ()) (h : Baseline.decoder (.object members) = .ok baseline) :
    ¬ FaultyBaseline ps := by
  obtain ⟨t, hrecord, -⟩ := Attempts.map_eq_ok_iff.mp h
  obtain ⟨hversion, hdate, hhardware, hbenchmarks, -⟩ :=
    (record_eq_ok_iff (by decide) lists hskip).mp hrecord
  obtain ⟨hversion, -⟩ := decoded_of_presented hversion
  obtain ⟨hdate, -⟩ := decoded_of_presented hdate
  obtain ⟨hhardware, dhardware⟩ := decoded_of_presented hhardware
  obtain ⟨hbenchmarks, dbenchmarks⟩ := decoded_of_presented hbenchmarks
  rintro (hfaulty | ⟨node, hmem, hfaulty⟩ | ⟨node, hmem, hfaulty⟩)
  · refine not_faulty ?_ hfaulty
    simp only [List.forall_mem_cons]
    exact ⟨hversion, hdate, hhardware, hbenchmarks, List.forall_mem_nil _⟩
  · exact hardware_not_faulty (dhardware node hmem) hfaulty
  · exact map_not_faulty (skip_of_lists lists hskip _ hmem) (dbenchmarks node hmem) hfaulty

end

/-! ## Whatever the layout -/

theorem parse_of_isBaseline {text : String} {node : Node} {baseline : Baseline}
    (hspelled : node.SpelledBy text) (h : IsBaseline (Node.IsReal .quick) node baseline) :
    Baseline.parse text = .ok baseline := by
  rw [parse_eq hspelled]
  exact h.decoded hspelled.skip

/-- Documents whose numerals are read as related numbers are read as alike baselines. -/
theorem parse_alike {R : Float → Float → Prop} {stands : Node → Float → Prop} {text : String}
    {node : Node} {baseline : Baseline}
    (hrelated : ∀ node s x, node.Spells s → stands node x → ∃ y, node.IsReal .quick y ∧ R x y)
    (hspelled : node.SpelledBy text) (h : IsBaseline stands node baseline) :
    ∃ parsed, Baseline.parse text = .ok parsed ∧ Alike R baseline parsed := by
  obtain ⟨-, -, hspells, -⟩ := id hspelled
  obtain ⟨parsed, hparsed, halike⟩ := h.related hrelated hspells
  exact ⟨parsed, parse_of_isBaseline hspelled hparsed, halike⟩

/-- Whatever the layout, a document that presents a baseline by short numerals is read as this
baseline. If its numerals are in the normal range, it is read as this baseline but for numbers that
are near those presented. However numbers are read, nothing else depends on the layout, and a
document in which a required member is missing or repeated is refused. -/
theorem layout_independent :
    (∀ (text : String) (node : Node) (baseline : Baseline), node.SpelledBy text →
      IsBaseline (Presented Numeral.Short) node baseline →
      Baseline.parse text = .ok baseline) ∧
    (∀ (text : String) (node : Node) (baseline : Baseline), node.SpelledBy text →
      IsBaseline (Presented Numeral.Ranged) node baseline →
      ∃ parsed, Baseline.parse text = .ok parsed ∧ Alike Near baseline parsed) ∧
    (∀ (text : String) (node : Node) (baseline : Baseline), node.SpelledBy text →
      IsBaseline (Node.IsReal .quick) node baseline → Baseline.parse text = .ok baseline) ∧
    (∀ (text : String) (members : Members) (ps : List (String × Node)),
      (Node.object members).SpelledBy text → members.Lists ps → FaultyBaseline ps →
      ∃ fault, Baseline.parse text = .error fault) := by
  refine ⟨?_, ?_, fun _ _ _ => parse_of_isBaseline, ?_⟩
  · intro text node baseline hspelled h
    obtain ⟨parsed, hparse, halike⟩ :=
      parse_alike (R := Eq) (fun _ _ x _ hx => ⟨x, hx.short, rfl⟩) hspelled h
    exact halike.eq ▸ hparse
  · intro text node baseline hspelled h
    exact parse_alike (fun _ _ _ hspells hx => hx.ranged hspells) hspelled h
  · intro text members ps hspelled lists hfaulty
    cases hparse : Baseline.parse text with
    | error fault => exact ⟨fault, rfl⟩
    | ok baseline =>
      rw [parse_eq hspelled] at hparse
      exact absurd hfaulty (not_faulty_of_decoded lists hspelled.skip hparse)

section
variable {n : Numeral} {mean : String} {x : Float} {stands : Node → Float → Prop}

def shuffledText (mean : String) : String :=
  "\x7b\"benchmarks\": \x7b\"u\": \x7b\"stddev_ms\": 1,\"mean_ms\": " ++ mean ++ "\x7d\x7d," ++
    "\"hardware\": \x7b\"ram\": 8,\"cpu\": \"c\"\x7d," ++
    "\"x\": null,\"date\": \"d\",\"version\": \"v\"\x7d"

def shuffledBaseline (mean : Float) : Baseline :=
  ⟨"v", "d", ⟨"c", [("ram", .number (.integer 8))]⟩, [("u", ⟨mean, 1.0, none, none⟩)]⟩

def digit (d : Char) : Numeral := ⟨false, [d], none, none⟩

def listed : List (String × Node) → Members
  | [] => .ending .closed
  | p :: ps => .member (literalOf p.1) p.2 (listed ps)

def word (s : String) : Node := .literal (literalOf s)

def shuffled (mean : Numeral) : Node :=
  .object (listed [("benchmarks", .object (listed [("u", .object (listed
      [("stddev_ms", .numeral (digit '1')), ("mean_ms", .numeral mean)]))])),
    ("hardware", .object (listed [("ram", .numeral (digit '8')), ("cpu", word "c")])),
    ("x", .null), ("date", word "d"), ("version", word "v")])

theorem lists_listed (ps : List (String × Node)) : (listed ps).Lists ps := by
  induction ps with
  | nil => exact .nil
  | cons p ps ih => exact .cons (literalOf_text p.1) ih

theorem word_isText (s : String) : (word s).IsText s := ⟨_, rfl, literalOf_text s⟩

theorem word_spells (s : String) : (word s).Spells ('"' :: (s.toList.flatMap escaped ++ ['"'])) :=
  .literal (literalOf_spells s)

theorem digit_spells {d : Char} (h : isDigit d = true) : (Node.numeral (digit d)).Spells [d] := by
  have hdigits : Digits [d] := ⟨by simp, by simpa using h⟩
  have hspells : (digit d).Spells ([d] ++ ([] ++ [])) :=
    .unsigned hdigits (fun h => by simpa using h) .without .without
  exact .numeral hspells

theorem shuffled_spelledBy (h : n.Spells mean.toList) :
    (shuffled n).SpelledBy (shuffledText mean) := by
  have hnone := blanks_nil
  have hspells := Node.Spells.object
    (.first hnone (memberSpells "benchmarks" (.object
      (.first hnone (memberSpells "u" (.object
        (.first hnone (memberSpells "stddev_ms" (digit_spells (d := '1') rfl))
          (.next hnone hnone (memberSpells "mean_ms" (.numeral h)) (.closed hnone)))))
        (.closed hnone))))
      (.next hnone hnone (memberSpells "hardware" (.object
        (.first hnone (memberSpells "ram" (digit_spells (d := '8') rfl))
          (.next hnone hnone (memberSpells "cpu" (word_spells "c")) (.closed hnone)))))
        (.next hnone hnone (memberSpells "x" .null)
          (.next hnone hnone (memberSpells "date" (word_spells "d"))
            (.next hnone hnone (memberSpells "version" (word_spells "v")) (.closed hnone))))))
  refine .mk hnone hnone hspells ?_
  unfold shuffledText
  simp only [String.toList_append, List.append_assoc, List.cons_append, List.nil_append]
  generalize mean.toList = s
  cbv

theorem shuffled_isBaseline (hone : stands (.numeral (digit '1')) 1.0)
    (hmean : stands (.numeral n) x) : IsBaseline stands (shuffled n) (shuffledBaseline x) := by
  refine .mk (lists_listed _) ⟨_, rfl, word_isText "v"⟩ ⟨_, rfl, word_isText "d"⟩
    ⟨_, rfl, .mk (lists_listed _) ⟨_, rfl, word_isText "c"⟩
      (.cons (b := ("ram", .number (.integer 8))) ⟨rfl, .number (.integer 8),
        fun _ => .numeral rfl, by decide, rfl⟩ .nil) (keeps_merged _)⟩
    ⟨_, rfl, .mk (lists_listed _) (.cons (b := ("u", ⟨x, 1.0, none, none⟩)) ⟨rfl, ?_⟩ .nil)
      (keeps_merged _)⟩
  exact .mk (lists_listed _) ⟨_, rfl, hmean⟩ ⟨_, rfl, hone⟩ (.inl rfl) (.inl rfl)

end

def halves : Numeral := ⟨false, ['2'], some ['5'], none⟩

/-- Seventeen digits, so that the digits are rounded and the quotient is rounded again. -/
def longMean : Numeral :=
  ⟨false, ['0'],
    some ['1', '0', '1', '3', '6', '9', '8', '6', '3', '0', '1', '3', '6', '9', '8', '6', '3'],
    none⟩

theorem halves_spells : halves.Spells "2.5".toList := by
  have htext : "2.5".toList = ['2'] ++ '.' :: ['5'] := by cbv
  rw [htext]
  exact Numeral.Spells.pointed ⟨by simp, by simp [isDigit]⟩ (by simp) ⟨by simp, by simp [isDigit]⟩

theorem longMean_spells : longMean.Spells "0.10136986301369863".toList := by
  have htext : "0.10136986301369863".toList = longMean.whole ++ '.' :: longMean.fraction.getD [] :=
    by cbv
  rw [htext]
  exact Numeral.Spells.pointed ⟨by simp, by simp [isDigit]⟩ (by simp) ⟨by simp, by simp [isDigit]⟩

theorem one_presents : (Node.numeral (digit '1')).Presents 1.0 :=
  presents_of_integer (i := 1) rfl

theorem halves_presents : (Node.numeral halves).Presents 2.5 :=
  presents_nearest (by decide) (by decide)

theorem longMean_presents : (Node.numeral longMean).Presents 0.10136986301369863 :=
  presents_nearest (by decide) (by decide)

/-- The next number. -/
theorem longMean_read : Node.IsReal .quick (.numeral longMean) 0.10136986301369864 :=
  isReal_of_quickFloat (n := longMean) rfl (by decide +kernel)

theorem one_short : Presented Numeral.Short (.numeral (digit '1')) 1.0 :=
  ⟨one_presents, fun _ h => Node.numeral.inj h ▸ .inl rfl⟩

theorem longMean_exact : 1 / 10 ≤ longMean.exact ∧ longMean.exact ≤ 1 := by
  have hdigits : digitsValue (longMean.whole ++ longMean.fraction.getD []) = 10136986301369863 := by
    decide
  have hpower : longMean.power - (longMean.fraction.getD []).length = -17 := by decide
  rw [Numeral.exact, hdigits, hpower]
  norm_num

theorem one_exact : (digit '1').exact = 1 := by
  have hdigits : digitsValue ((digit '1').whole ++ (digit '1').fraction.getD []) = 1 := by decide
  rw [Numeral.exact, hdigits]
  norm_num [Numeral.power, digit]

/-- A numeral that is neither tiny nor great. -/
theorem ranged_of_moderate {n : Numeral} (hlow : 1 / 10 ≤ n.exact) (hhigh : n.exact ≤ 1) :
    n.Ranged := by
  refine .inr ⟨le_trans ?_ hlow, hhigh.trans (one_le_pow₀ (by norm_num))⟩
  exact one_div_le_one_div_of_le (by norm_num) (le_self_pow₀ (by norm_num) (by norm_num))

theorem one_ranged : Presented Numeral.Ranged (.numeral (digit '1')) 1.0 := by
  refine ⟨one_presents, ?_⟩
  rintro n ⟨⟩
  exact ranged_of_moderate (by norm_num [one_exact]) one_exact.le

theorem longMean_ranged : Presented Numeral.Ranged (.numeral longMean) 0.10136986301369863 := by
  refine ⟨longMean_presents, ?_⟩
  rintro n ⟨⟩
  exact ranged_of_moderate longMean_exact.1 longMean_exact.2

theorem halves_short : Presented Numeral.Short (.numeral halves) 2.5 := by
  refine ⟨halves_presents, ?_⟩
  rintro n ⟨⟩
  exact .inr (.inr (by decide))

theorem layout_independent_shuffled :
    Baseline.parse (shuffledText "2.5") = .ok (shuffledBaseline 2.5) ∧
    (∃ parsed, Baseline.parse (shuffledText "0.10136986301369863") = .ok parsed ∧
      Alike Near (shuffledBaseline 0.10136986301369863) parsed) ∧
    Baseline.parse (shuffledText "0.10136986301369863") =
      .ok (shuffledBaseline 0.10136986301369864) ∧
    ∃ fault, Baseline.parse "\x7b\"version\": \"v\",\"version\": \"w\"\x7d" = .error fault := by
  have hnone := blanks_nil
  have hone : Node.IsReal .quick (.numeral (digit '1')) 1.0 := one_short.short
  have hrepeated := Node.Spells.object
    (.first hnone (memberSpells "version" (word_spells "v"))
      (.next hnone hnone (memberSpells "version" (word_spells "w")) (.closed hnone)))
  exact ⟨layout_independent.1 _ _ _ (shuffled_spelledBy halves_spells)
      (shuffled_isBaseline one_short halves_short),
    layout_independent.2.1 _ _ _ (shuffled_spelledBy longMean_spells)
      (shuffled_isBaseline one_ranged longMean_ranged),
    layout_independent.2.2.1 _ _ _ (shuffled_spelledBy longMean_spells)
      (shuffled_isBaseline hone longMean_read),
    layout_independent.2.2.2 _ _ _ (.mk hnone hnone hrepeated (by cbv))
      (lists_listed [("version", word "v"), ("version", word "w")])
      (.inl ⟨"version", by simp, by simp⟩)⟩

/-- A number can be presented and not read: the numeral is the shortest for the number, and the next
number is read. -/
theorem presented_not_read :
    (shuffled longMean).SpelledBy (shuffledText "0.10136986301369863") ∧
    IsBaseline Node.Presents (shuffled longMean) (shuffledBaseline 0.10136986301369863) ∧
    Baseline.parse (shuffledText "0.10136986301369863") ≠
      .ok (shuffledBaseline 0.10136986301369863) := by
  refine ⟨shuffled_spelledBy longMean_spells,
    shuffled_isBaseline one_presents longMean_presents, ?_⟩
  rw [parse_of_isBaseline (shuffled_spelledBy longMean_spells)
    (shuffled_isBaseline one_short.short longMean_read)]
  intro heq
  have hmean := congrArg (fun b => b.benchmarks.map (·.2.mean)) (Except.ok.inj heq)
  simp only [shuffledBaseline, List.map_cons, List.map_nil, List.cons.injEq, and_true] at hmean
  exact absurd hmean (by decide)

end PerfGate.Layout
