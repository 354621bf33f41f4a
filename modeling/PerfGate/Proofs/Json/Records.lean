import PerfGate.Json.Decoder
import PerfGate.Proofs.Attempts
import Mathlib.Data.String.Basic

/-!
# Decoding what objects list

An object lists its members, and a decoder of objects depends on nothing but this list. A record
asks only which values are listed under the name of each of its fields: one for a field that has
to be there, at most one for a field that may be left out; the order of the members and members
of other names do not matter. A map keeps the last value that is listed for each key.
-/

set_option autoImplicit false

namespace PerfGate.Json

/-! ## What is listed -/

inductive Members.Lists : Members → List (String × Node) → Prop where
  | nil : Lists (.ending .closed) []
  | cons {key : Literal} {k : String} {node : Node} {members : Members}
      {ps : List (String × Node)} (hkey : key.text = .ok k) (h : members.Lists ps) :
      Lists (.member key node members) ((k, node) :: ps)

inductive Items.Lists : Items → List Node → Prop where
  | nil : Lists (.ending .closed) []
  | cons {node : Node} {items : Items} {nodes : List Node} (h : items.Lists nodes) :
      Lists (.item node items) (node :: nodes)

def valuesOf {α : Type} (key : String) (ps : List (String × α)) : List α :=
  (ps.filter (·.1 = key)).map (·.2)

section
variable {α : Type} {key k : String} {a : α} {ps : List (String × α)}

@[simp] theorem valuesOf_nil : valuesOf key ([] : List (String × α)) = [] := rfl

@[simp] theorem valuesOf_cons_self : valuesOf key ((key, a) :: ps) = a :: valuesOf key ps := by
  simp [valuesOf]

theorem valuesOf_cons_ne (h : k ≠ key) : valuesOf key ((k, a) :: ps) = valuesOf key ps := by
  simp [valuesOf, h]

theorem valuesOf_append (ps qs : List (String × α)) :
    valuesOf key (ps ++ qs) = valuesOf key ps ++ valuesOf key qs := by
  simp [valuesOf]

theorem mem_valuesOf : a ∈ valuesOf key ps ↔ (key, a) ∈ ps := by
  simp [valuesOf]

end

def Gives {α : Type} (ps : List (String × Node)) (key : String) (stands : Node → α → Prop)
    (a : α) : Prop :=
  ∃ node, valuesOf key ps = [node] ∧ stands node a

/-- A key is given once, or it is left out or given as nothing. -/
def MayGive {α : Type} (ps : List (String × Node)) (key : String) (stands : Node → α → Prop) :
    Option α → Prop
  | some a => Gives ps key stands a
  | none => valuesOf key ps = [] ∨ valuesOf key ps = [.null]

section
variable {α β : Type} {R : α → β → Prop} {ps : List (String × Node)} {key : String}
  {stands : Node → α → Prop} {stands' : Node → β → Prop}

/-- What stands for one value stands for a related one. -/
theorem Gives.related {a : α} (h : Gives ps key stands a)
    (hrelated : ∀ p ∈ ps, ∀ a, stands p.2 a → ∃ b, stands' p.2 b ∧ R a b) :
    ∃ b, Gives ps key stands' b ∧ R a b := by
  obtain ⟨node, hvalues, hnode⟩ := h
  have hmem : (key, node) ∈ ps := by
    rw [← mem_valuesOf, hvalues]
    exact List.mem_singleton_self node
  obtain ⟨b, hb, hab⟩ := hrelated _ hmem a hnode
  exact ⟨b, ⟨node, hvalues, hb⟩, hab⟩

theorem MayGive.related {a : Option α} (h : MayGive ps key stands a)
    (hrelated : ∀ p ∈ ps, ∀ a, stands p.2 a → ∃ b, stands' p.2 b ∧ R a b) :
    ∃ b, MayGive ps key stands' b ∧ Option.Rel R a b := by
  cases a with
  | none => exact ⟨none, h, .none⟩
  | some a =>
    obtain ⟨b, hb, hab⟩ := Gives.related h hrelated
    exact ⟨some b, hb, .some hab⟩

end

theorem skip_of_lists {members : Members} {ps : List (String × Node)} (h : members.Lists ps)
    (hskip : members.skip = .ok ()) : ∀ p ∈ ps, p.2.skip = .ok () := by
  induction h with
  | nil => exact List.forall_mem_nil _
  | @cons key k node members ps _ _ ih =>
    rw [Members.skip] at hskip
    cases hkey : key.skip with
    | error why => rw [hkey] at hskip; cases hskip
    | ok _ =>
      cases hnode : node.skip with
      | error why => rw [hkey, hnode] at hskip; cases hskip
      | ok _ =>
        rw [hkey, hnode] at hskip
        exact List.forall_mem_cons.mpr ⟨hnode, ih hskip⟩

theorem skip_of_mem_valuesOf {members : Members} {ps : List (String × Node)}
    (h : members.Lists ps) (hskip : members.skip = .ok ()) {key : String} {node : Node}
    (hnode : node ∈ valuesOf key ps) : node.skip = .ok () :=
  skip_of_lists h hskip _ (mem_valuesOf.mp hnode)

theorem skip_of_items {items : Items} {nodes : List Node} (h : items.Lists nodes)
    (hskip : items.skip = .ok ()) : ∀ node ∈ nodes, node.skip = .ok () := by
  induction h with
  | nil => exact List.forall_mem_nil _
  | @cons node items nodes _ ih =>
    rw [Items.skip] at hskip
    cases hnode : node.skip with
    | error why => rw [hnode] at hskip; cases hskip
    | ok _ =>
      rw [hnode] at hskip
      exact List.forall_mem_cons.mpr ⟨hnode, ih hskip⟩

theorem foldMembers_eq {σ : Type} {step : σ → String → Node → Except Fault σ}
    {members : Members} {ps : List (String × Node)} (h : members.Lists ps) (state : σ) :
    foldMembers step members state = ps.foldlM (fun state p => step state p.1 p.2) state := by
  induction h generalizing state with
  | nil => rfl
  | @cons key k node members ps hkey _ ih =>
    rw [foldMembers, hkey, List.foldlM_cons]
    dsimp only
    cases step state k node with
    | error fault => rfl
    | ok state => exact ih state

theorem decodeItems_eq {α : Type} {decode : Decoder α} {items : Items} {nodes : List Node}
    (h : items.Lists nodes) : decodeItems decode items = nodes.mapM decode := by
  induction h with
  | nil => rfl
  | @cons node items nodes _ ih =>
    rw [decodeItems, List.mapM_cons, ih]
    cases decode node with
    | error fault => rfl
    | ok a => cases nodes.mapM decode <;> rfl

/-! ## Records -/

/-- What the values listed under its name give for a field, which may have been filled before. -/
def Field.Presented {α : Type} (f : Field α) : Option α → List Node → α → Prop
  | some v, [], a => v = a
  | none, [], a => f.absent = some a
  | none, [node], a => f.decode node = .ok a
  | _, _, _ => False

theorem Field.presented_first {α : Type} {f : Field α} {node : Node} {nodes : List Node} {a : α} :
    f.Presented none (node :: nodes) a ↔
      ∃ v, f.decode node = .ok v ∧ f.Presented (some v) nodes a := by
  cases nodes with
  | nil => exact ⟨fun h => ⟨a, h, rfl⟩, fun ⟨_, h, heq⟩ => heq ▸ h⟩
  | cons => exact iff_of_false id fun ⟨_, _, h⟩ => h

theorem presented_required {α : Type} {name : String} {decode : Decoder α} {nodes : List Node}
    {a : α} : (required name decode).Presented none nodes a ↔
      ∃ node, nodes = [node] ∧ decode node = .ok a := by
  match nodes with
  | [] => exact iff_of_false nofun fun ⟨_, h, _⟩ => nomatch h
  | [node] => exact ⟨fun h => ⟨node, rfl, h⟩, fun ⟨_, heq, h⟩ => (List.singleton_inj.mp heq) ▸ h⟩
  | _ :: _ :: _ => exact iff_of_false id fun ⟨_, h, _⟩ => nomatch h

theorem presented_of_gives {α β : Type} {ps : List (String × Node)} {key : String}
    {stands : Node → α → Prop} {decode : Decoder β} {a : α} {b : β}
    (hdecode : ∀ node ∈ valuesOf key ps, stands node a → decode node = .ok b)
    (h : Gives ps key stands a) : (required key decode).Presented none (valuesOf key ps) b := by
  obtain ⟨node, hvalues, hnode⟩ := h
  exact presented_required.mpr ⟨node, hvalues, hdecode node (by simp [hvalues]) hnode⟩

namespace Slots

def Presented {τ : Type} : Slots τ → List (String × Node) → τ → Prop
  | .done, _, _ => True
  | .field f value rest, ps, t =>
    f.Presented value (valuesOf f.name ps) t.1 ∧ rest.Presented ps t.2

section
variable {α β τ : Type} {key : String} {node : Node}

theorem put_first (f : Field α) (rest : Slots β) (node : Node) :
    (field f none rest).put f.name node = (f.decode node).map fun a => .field f (some a) rest := by
  rw [put.eq_def]
  exact if_pos rfl

theorem put_again (f : Field α) (v : α) (rest : Slots β) (node : Node) :
    (field f (some v) rest).put f.name node = .error (.mismatch (.duplicate f.name)) := by
  rw [put.eq_def]
  exact if_pos rfl

theorem put_other {f : Field α} (h : f.name ≠ key) (value : Option α) (rest : Slots β)
    (node : Node) :
    (field f value rest).put key node =
      (rest.put key node).map fun rest => .field f value rest := by
  rw [put.eq_def]
  exact if_neg h

theorem names_put {slots after : Slots τ} (h : slots.put key node = .ok after) :
    after.names = slots.names := by
  induction slots with
  | done =>
    obtain ⟨_, -, rfl⟩ := Attempts.map_eq_ok_iff.mp h
    rfl
  | field f value rest ih =>
    by_cases hkey : f.name = key
    · subst hkey
      cases value with
      | some v =>
        rw [put_again] at h
        exact nomatch h
      | none =>
        rw [put_first] at h
        obtain ⟨a, -, rfl⟩ := Attempts.map_eq_ok_iff.mp h
        rfl
    · rw [put_other hkey] at h
      obtain ⟨rest', hrest, rfl⟩ := Attempts.map_eq_ok_iff.mp h
      rw [names, names, ih hrest]

theorem presented_cons_of_not_mem {slots : Slots τ} (hkey : key ∉ slots.names)
    (ps : List (String × Node)) (t : τ) :
    slots.Presented ((key, node) :: ps) t ↔ slots.Presented ps t := by
  induction slots with
  | done => exact Iff.rfl
  | field f value rest ih =>
    rw [names, List.mem_cons, not_or] at hkey
    rw [Presented, Presented, valuesOf_cons_ne hkey.1, ih hkey.2]

theorem finish_eq_ok_iff {slots : Slots τ} {t : τ} :
    slots.finish = .ok t ↔ slots.Presented [] t := by
  induction slots with
  | done => exact iff_of_true rfl trivial
  | @field α β f value rest ih =>
    obtain ⟨a, b⟩ := t
    have hfinish : ∀ v : α, (rest.finish.map fun b => (v, b)) = .ok (a, b) ↔
        v = a ∧ rest.Presented [] b := by
      intro v
      rw [← ih, Attempts.map_eq_ok_iff]
      aesop
    cases value with
    | some v => exact hfinish v
    | none =>
      rw [Presented, valuesOf_nil, finish]
      cases habsent : f.absent with
      | none => exact iff_of_false nofun fun h => nomatch habsent.symm.trans h.1
      | some v =>
        refine (hfinish v).trans (and_congr_left fun _ => ?_)
        rw [Field.Presented, habsent, Option.some_inj]

/-- A member that is put into its slot need not be listed any more. -/
theorem presented_put {slots : Slots τ} (hnames : slots.names.Nodup) (hskip : node.skip = .ok ())
    (ps : List (String × Node)) (t : τ) :
    slots.Presented ((key, node) :: ps) t ↔
      ∃ after, slots.put key node = .ok after ∧ after.Presented ps t := by
  induction slots with
  | done =>
    rw [put, hskip]
    exact iff_of_true trivial ⟨.done, rfl, trivial⟩
  | field f value rest ih =>
    rw [names, List.nodup_cons] at hnames
    rw [Presented]
    by_cases hkey : f.name = key
    · subst hkey
      rw [valuesOf_cons_self, presented_cons_of_not_mem hnames.1]
      cases value with
      | some v =>
        rw [put_again]
        exact iff_of_false (fun h => h.1) (fun ⟨_, h, _⟩ => nomatch h)
      | none =>
        rw [Field.presented_first, put_first]
        constructor
        · rintro ⟨⟨v, hv, hgiven⟩, hrest⟩
          exact ⟨_, Attempts.map_eq_ok_iff.mpr ⟨v, hv, rfl⟩, hgiven, hrest⟩
        · rintro ⟨after, hafter, hpresented⟩
          obtain ⟨v, hv, rfl⟩ := Attempts.map_eq_ok_iff.mp hafter
          exact ⟨⟨v, hv, hpresented.1⟩, hpresented.2⟩
    · rw [valuesOf_cons_ne (Ne.symm hkey), ih hnames.2, put_other hkey]
      constructor
      · rintro ⟨hgiven, rest', hput, hrest⟩
        exact ⟨_, Attempts.map_eq_ok_iff.mpr ⟨rest', hput, rfl⟩, hgiven, hrest⟩
      · rintro ⟨after, hafter, hpresented⟩
        obtain ⟨rest', hput, rfl⟩ := Attempts.map_eq_ok_iff.mp hafter
        exact ⟨hpresented.1, rest', hput, hpresented.2⟩

theorem putAll_eq_ok_iff {members : Members} {ps : List (String × Node)} (h : members.Lists ps)
    (hskip : ∀ p ∈ ps, p.2.skip = .ok ()) {slots : Slots τ} (hnames : slots.names.Nodup) {t : τ} :
    (slots.putAll members).bind finish = .ok t ↔ slots.Presented ps t := by
  induction h generalizing slots with
  | nil => exact finish_eq_ok_iff
  | @cons key k node members ps hkey h ih =>
    obtain ⟨hnode, hskip⟩ := List.forall_mem_cons.mp hskip
    rw [presented_put hnames hnode, putAll, hkey]
    dsimp only
    cases hput : slots.put k node with
    | error fault => exact iff_of_false nofun fun ⟨_, h, _⟩ => nomatch h
    | ok after =>
      dsimp only
      rw [ih hskip ((names_put hput).symm ▸ hnames)]
      exact ⟨fun h => ⟨after, rfl, h⟩, fun ⟨_, heq, h⟩ => Except.ok.inj heq ▸ h⟩

end

end Slots

/-- A record depends on what is listed under the names of its fields and on nothing else. -/
theorem record_eq_ok_iff {τ : Type} {name : String} {slots : Slots τ} (hnames : slots.names.Nodup)
    {members : Members} {ps : List (String × Node)} (h : members.Lists ps)
    (hskip : members.skip = .ok ()) {t : τ} :
    record name slots (.object members) = .ok t ↔ slots.Presented ps t := by
  rw [← Slots.putAll_eq_ok_iff h (skip_of_lists h hskip) hnames, record]
  cases slots.putAll members <;> rfl

/-! ## Maps -/

/-- A list of members from which each is found under its key: in ascending order of the keys, with
the last value for each key. -/
structure Keeps {α : Type} (kvs m : List (String × α)) : Prop where
  ascending : (m.map (·.1)).Pairwise (· < ·)
  last : ∀ key, m.lookup key = (valuesOf key kvs).getLast?

section
variable {α : Type} {key : String} {a : α} {m : List (String × α)}

theorem lookup_cons_eq (k name : String) (old : α) (rest : List (String × α)) :
    ((name, old) :: rest).lookup k = if k = name then some old else rest.lookup k := by
  rw [List.lookup_cons]
  split
  next h => rw [if_pos (by simpa using h)]
  next h => rw [if_neg (by simpa using h)]

theorem lookup_insertMember (key : String) (a : α) (m : List (String × α)) (k : String) :
    (insertMember key a m).lookup k = if k = key then some a else m.lookup k := by
  induction m with
  | nil => exact lookup_cons_eq k key a []
  | cons entry rest ih =>
    obtain ⟨name, old⟩ := entry
    rw [insertMember]
    split
    · exact lookup_cons_eq k key a _
    · split
      next heq =>
        subst heq
        rw [lookup_cons_eq, lookup_cons_eq]
        split
        · rfl
        · rfl
      next hne =>
        rw [lookup_cons_eq, lookup_cons_eq, ih]
        split
        next h => rw [if_neg (by rintro rfl; exact hne h)]
        next => rfl

theorem mem_insertMember {entry : String × α} (h : entry ∈ insertMember key a m) :
    entry = (key, a) ∨ entry ∈ m := by
  induction m with
  | nil => exact .inl (List.mem_singleton.mp h)
  | cons head rest ih =>
    obtain ⟨name, old⟩ := head
    rw [insertMember] at h
    split at h
    · exact List.mem_cons.mp h
    · split at h
      · exact (List.mem_cons.mp h).imp_right (List.mem_cons_of_mem _)
      · rcases List.mem_cons.mp h with rfl | h
        · exact .inr List.mem_cons_self
        · exact (ih h).imp_right (List.mem_cons_of_mem _)

theorem ascending_insertMember (h : (m.map (·.1)).Pairwise (· < ·)) :
    ((insertMember key a m).map (·.1)).Pairwise (· < ·) := by
  induction m with
  | nil => exact List.pairwise_singleton _ _
  | cons head rest ih =>
    obtain ⟨name, old⟩ := head
    obtain ⟨hname, hrest⟩ := List.pairwise_cons.mp h
    rw [insertMember]
    split
    next hlt =>
      refine List.pairwise_cons.mpr ⟨fun other hother => ?_, h⟩
      rcases List.mem_cons.mp hother with rfl | hother
      · exact hlt
      · exact hlt.trans (hname other hother)
    next hnot =>
      split
      next heq => exact heq ▸ h
      next hne =>
        refine List.pairwise_cons.mpr ⟨fun other hother => ?_, ih hrest⟩
        obtain ⟨entry, hentry, rfl⟩ := List.mem_map.mp hother
        rcases mem_insertMember hentry with rfl | hentry
        · exact (lt_of_le_of_ne (not_lt.mp hnot) (Ne.symm hne))
        · exact hname _ (List.mem_map_of_mem hentry)

def merged (kvs : List (String × α)) : List (String × α) :=
  kvs.foldl (fun m kv => insertMember kv.1 kv.2 m) []

theorem merged_append (kvs : List (String × α)) (key : String) (a : α) :
    merged (kvs ++ [(key, a)]) = insertMember key a (merged kvs) := by
  rw [merged, List.foldl_append]
  rfl

theorem keeps_merged (kvs : List (String × α)) : Keeps kvs (merged kvs) := by
  induction kvs using List.reverseRecOn with
  | nil => exact ⟨.nil, fun _ => rfl⟩
  | append_singleton kvs kv ih =>
    obtain ⟨k, a⟩ := kv
    rw [merged_append]
    refine ⟨ascending_insertMember ih.ascending, fun key => ?_⟩
    rw [lookup_insertMember, ih.last, valuesOf_append]
    split
    next heq => simp [heq]
    next hne => simp [valuesOf_cons_ne (Ne.symm hne)]

theorem lookup_eq_some_iff (h : (m.map (·.1)).Pairwise (· < ·)) :
    m.lookup key = some a ↔ (key, a) ∈ m := by
  induction m with
  | nil => simp
  | cons head rest ih =>
    obtain ⟨name, old⟩ := head
    obtain ⟨hname, hrest⟩ := List.pairwise_cons.mp h
    rw [lookup_cons_eq, List.mem_cons, Prod.mk.injEq]
    split
    next heq =>
      subst heq
      have hnot : (key, a) ∉ rest := fun hmem =>
        absurd (hname key (List.mem_map_of_mem hmem)) (lt_irrefl key)
      simp [hnot, eq_comm]
    next hne => simp [hne, ih hrest]

theorem nodup_of_ascending (h : (m.map (·.1)).Pairwise (· < ·)) : m.Nodup := by
  refine (List.pairwise_map.mp h).imp fun hlt => ?_
  rintro rfl
  exact lt_irrefl _ hlt

/-- Two ascending lists in which the same is found are the same. -/
theorem eq_of_lookup {m m' : List (String × α)} (h : (m.map (·.1)).Pairwise (· < ·))
    (h' : (m'.map (·.1)).Pairwise (· < ·)) (heq : ∀ key, m.lookup key = m'.lookup key) :
    m = m' := by
  refine List.Perm.eq_of_pairwise (fun a b _ _ hab hba => absurd hab (lt_asymm hba))
    (List.pairwise_map.mp h) (List.pairwise_map.mp h') ?_
  rw [List.perm_ext_iff_of_nodup (nodup_of_ascending h) (nodup_of_ascending h')]
  intro entry
  rw [← lookup_eq_some_iff h, ← lookup_eq_some_iff h', heq]

theorem Keeps.eq_merged {kvs m : List (String × α)} (h : Keeps kvs m) : m = merged kvs :=
  eq_of_lookup h.ascending (keeps_merged kvs).ascending fun key =>
    (h.last key).trans ((keeps_merged kvs).last key).symm

def Matched {β : Type} (R : α → β → Prop) : List (String × α) → List (String × β) → Prop :=
  List.Forall₂ fun p q => q.1 = p.1 ∧ R p.2 q.2

theorem Matched.insertMember {β : Type} {R : α → β → Prop} {b : β} {m' : List (String × β)}
    (h : Matched R m m') (hab : R a b) :
    Matched R (insertMember key a m) (insertMember key b m') := by
  induction h with
  | nil => exact .cons ⟨rfl, hab⟩ .nil
  | @cons p q _ _ hpq hrest ih =>
    obtain ⟨name, old⟩ := p
    obtain ⟨_, new⟩ := q
    obtain ⟨rfl, hnew⟩ := hpq
    rw [Json.insertMember, Json.insertMember]
    split
    · exact .cons ⟨rfl, hab⟩ (.cons ⟨rfl, hnew⟩ hrest)
    · split
      · exact .cons ⟨rfl, hab⟩ hrest
      · exact .cons ⟨rfl, hnew⟩ ih

theorem Matched.merged {β : Type} {R : α → β → Prop} {kvs : List (String × α)}
    {kvs' : List (String × β)} (h : Matched R kvs kvs') :
    Matched R (Json.merged kvs) (Json.merged kvs') := by
  have hstart : ∀ m m', Matched R m m' →
      Matched R (kvs.foldl (fun m kv => Json.insertMember kv.1 kv.2 m) m)
        (kvs'.foldl (fun m kv => Json.insertMember kv.1 kv.2 m) m') := by
    induction h with
    | nil => exact fun _ _ h => h
    | @cons p q _ _ hpq _ ih =>
      obtain ⟨key, a⟩ := p
      obtain ⟨_, b⟩ := q
      obtain ⟨rfl, hab⟩ := hpq
      exact fun m m' hm => ih _ _ (hm.insertMember hab)
  exact hstart _ _ .nil

end

def Decoded {α ε : Type} (decode : Node → Except ε α) :
    List (String × Node) → List (String × α) → Prop :=
  List.Forall₂ fun p kv => kv.1 = p.1 ∧ decode p.2 = .ok kv.2

theorem Decoded.of_mem {α ε : Type} {decode : Node → Except ε α} {ps : List (String × Node)}
    {kvs : List (String × α)} (h : Decoded decode ps kvs) {p : String × Node} (hp : p ∈ ps) :
    ∃ a, decode p.2 = .ok a := by
  induction h with
  | nil => exact nomatch hp
  | @cons q kv _ _ hkv _ ih =>
    rcases List.mem_cons.mp hp with rfl | hp
    · exact ⟨kv.2, hkv.2⟩
    · exact ih hp

theorem foldlM_insertMember {α ε : Type} {decode : Node → Except ε α}
    {ps : List (String × Node)} {before m : List (String × α)} :
    ps.foldlM (fun m p => (decode p.2).map (insertMember p.1 · m)) before = .ok m ↔
      ∃ kvs, Decoded decode ps kvs ∧
        kvs.foldl (fun m kv => insertMember kv.1 kv.2 m) before = m := by
  induction ps generalizing before with
  | nil =>
    constructor
    · intro h
      exact ⟨[], .nil, Except.ok.inj h⟩
    · rintro ⟨kvs, hdecoded, rfl⟩
      cases hdecoded
      rfl
  | cons p ps ih =>
    rw [List.foldlM_cons]
    refine Attempts.bind_eq_ok_iff.trans ?_
    constructor
    · rintro ⟨next, hnext, hrest⟩
      obtain ⟨a, ha, rfl⟩ := Attempts.map_eq_ok_iff.mp hnext
      obtain ⟨kvs, hdecoded, hm⟩ := ih.mp hrest
      exact ⟨(p.1, a) :: kvs, .cons ⟨rfl, ha⟩ hdecoded, hm⟩
    · rintro ⟨kvs, hdecoded, hm⟩
      cases hdecoded with
      | @cons _ kv _ kvs hkv hdecoded =>
        obtain ⟨k, a⟩ := kv
        obtain ⟨rfl, ha⟩ := hkv
        exact ⟨_, Attempts.map_eq_ok_iff.mpr ⟨a, ha, rfl⟩, ih.mpr ⟨kvs, hdecoded, hm⟩⟩

/-- A map is made of everything that is listed, and keeps the last value for each key. -/
theorem map_eq_ok_iff {α : Type} {decode : Decoder α} {members : Members}
    {ps : List (String × Node)} (h : members.Lists ps) {m : List (String × α)} :
    map decode (.object members) = .ok m ↔ ∃ kvs, Decoded decode ps kvs ∧ Keeps kvs m := by
  rw [map, foldMembers_eq h, foldlM_insertMember]
  refine exists_congr fun kvs => and_congr_right fun _ => ⟨?_, fun hkeeps => ?_⟩
  · rintro rfl
    exact keeps_merged kvs
  · exact hkeeps.eq_merged.symm

end PerfGate.Json
