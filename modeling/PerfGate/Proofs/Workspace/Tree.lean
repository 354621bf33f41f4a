import PerfGate.Workspace.Tree
import Mathlib.Tactic

/-!
# Trees that grow

A tree is proper if the numbers in its directories belong to nodes of it. It stays proper and it
is extended when a name that leads nowhere is given to a new node, and when a file has a new text.
-/

set_option autoImplicit false

namespace PerfGate

structure Tree.Proper (t : Tree) : Prop where
  root : Tree.root < t.nodes.size
  parents : ∀ node, t.parent node < t.nodes.size
  children : ∀ node, ∀ p ∈ t.names node, p.2 < t.nodes.size

/-- The same but for the texts of files and the names in directories. -/
def Entry.Alike : Entry → Entry → Prop
  | .directory parent _, .directory parent' _ => parent' = parent
  | .file _ _, .file _ _ => True
  | .link target, .link target' => target' = target
  | .device d, .device d' => d' = d
  | .program name, .program name' => name' = name
  | _, _ => False

def Entry.IsFile (e : Entry) : Prop :=
  ∃ text executable, e = .file text executable

def Entry.IsLink (e : Entry) : Prop :=
  ∃ target, e = .link target

/-- Nodes keep their places and their names, and a name that is new leads to no link. -/
structure Tree.Extends (t t' : Tree) : Prop where
  size : t.nodes.size ≤ t'.nodes.size
  alike : ∀ node < t.nodes.size, (t.entry node).Alike (t'.entry node)
  kept : ∀ directory < t.nodes.size, ∀ name node, t.child? directory name = some node →
    t'.child? directory name = some node
  fresh : ∀ directory < t.nodes.size, ∀ name node, t.child? directory name = none →
    t'.child? directory name = some node → ¬ (t'.entry node).IsLink

namespace Tree

variable {t t' : Tree} {home directory node : Nat} {name path text : Octets} {e : Entry}

/-! ## Entries -/

theorem entry_of_size_le (h : t.nodes.size ≤ node) : t.entry node = .directory root [] :=
  Array.getD_eq_getD_getElem? .. |>.trans (by rw [Array.getElem?_eq_none h]; rfl)

theorem entry_push_self : (Tree.mk (t.nodes.push e)).entry t.nodes.size = e := by
  simp [entry]

theorem entry_push (h : node < t.nodes.size) :
    (Tree.mk (t.nodes.push e)).entry node = t.entry node := by
  simp [entry, Array.getD_eq_getD_getElem?, Array.getElem?_push, h.ne]

theorem entry_put_self (h : node < t.nodes.size) : (t.put node e).entry node = e := by
  simp [entry, put, h]

theorem entry_put_ne {other : Nat} (h : other ≠ node) :
    (t.put node e).entry other = t.entry other := by
  simp [entry, put, Array.getD_eq_getD_getElem?, h.symm]

@[simp] theorem size_put : (t.put node e).nodes.size = t.nodes.size :=
  Array.size_setIfInBounds

theorem names_of_entry {parent : Nat} {names : List (Octets × Nat)}
    (h : t.entry node = .directory parent names) : t.names node = names := by
  rw [Tree.names, h]

theorem parent_of_entry {parent : Nat} {names : List (Octets × Nat)}
    (h : t.entry node = .directory parent names) : t.parent node = parent := by
  rw [Tree.parent, h]

theorem isDirectory_iff : t.isDirectory node = true ↔ ∃ parent names,
    t.entry node = .directory parent names := by
  rw [isDirectory]
  cases t.entry node <;> simp

theorem Proper.child_lt (hp : t.Proper) (h : t.child? directory name = some node) :
    node < t.nodes.size := by
  have hmem : (name, node) ∈ t.names directory := by
    obtain ⟨before, after, hsplit, -⟩ := List.lookup_eq_some_iff.mp h
    rw [hsplit]
    simp
  exact hp.children directory _ hmem

/-! ## Additions -/

/-- A node as it is below a directory. -/
def under (directory : Nat) : Entry → Entry
  | .directory _ below => .directory directory below
  | e => e

/-- The tree in which a directory has one more name, and the tree one more node. -/
structure Adds (t : Tree) (directory : Nat) (name : Octets) (e : Entry) (t' : Tree) : Prop where
  size : t'.nodes.size = t.nodes.size + 1
  made : t'.entry t.nodes.size = under directory e
  above : t'.entry directory = .directory (t.parent directory)
    ((t.names directory).filter (·.1 ≠ name) ++ [(name, t.nodes.size)])
  others : ∀ other < t.nodes.size, other ≠ directory → t'.entry other = t.entry other

theorem adds_add (h : directory < t.nodes.size) (name : Octets) (e : Entry) :
    Adds t directory name e (t.add directory name e).1 := by
  have hparent : (Tree.mk (t.nodes.push e)).parent directory = t.parent directory := by
    rw [parent, entry_push h, parent]
  have hnames : (Tree.mk (t.nodes.push e)).names directory = t.names directory := by
    rw [names, entry_push h, names]
  have hsize : directory < (Tree.mk (t.nodes.push e)).nodes.size := by
    rw [Array.size_push]
    omega
  simp only [add, Tree.bind, rename, hparent, hnames]
  rw [entry_put_ne h.ne', entry_push_self]
  cases e with
  | directory above below =>
    refine ⟨by simp, ?_, ?_, fun other hother hne => ?_⟩
    · exact entry_put_self (by simp)
    · rw [entry_put_ne h.ne, entry_put_self hsize]
    · rw [entry_put_ne hother.ne, entry_put_ne hne, entry_push hother]
  | _ =>
    refine ⟨by simp, ?_, ?_, fun other hother hne => ?_⟩
    · rw [entry_put_ne h.ne', entry_push_self]
      rfl
    · exact entry_put_self hsize
    · rw [entry_put_ne hne, entry_push hother]

theorem names_of_size_le (h : t.nodes.size ≤ node) : t.names node = [] :=
  names_of_entry (entry_of_size_le h)

theorem parent_of_size_le (h : t.nodes.size ≤ node) : t.parent node = root :=
  parent_of_entry (entry_of_size_le h)

theorem names_congr (h : t'.entry node = t.entry node) : t'.names node = t.names node := by
  rw [names, h, names]

theorem parent_congr (h : t'.entry node = t.entry node) : t'.parent node = t.parent node := by
  rw [parent, h, parent]

theorem Adds.entry_cases (h : Adds t directory name e t') (node : Nat) :
    node = directory ∨ node = t.nodes.size ∨ t'.entry node = t.entry node := by
  rcases lt_trichotomy node t.nodes.size with hlt | heq | hgt
  · by_cases heq : node = directory
    · exact .inl heq
    · exact .inr (.inr (h.others node hlt heq))
  · exact .inr (.inl heq)
  · have hsize : t'.nodes.size ≤ node := by
      rw [h.size]
      exact hgt
    exact .inr (.inr ((entry_of_size_le hsize).trans (entry_of_size_le hgt.le).symm))

theorem Proper.adds (hp : t.Proper) (hdirectory : directory < t.nodes.size)
    (h : Adds t directory name e t') (hempty : ∀ parent below, e = .directory parent below →
      below = []) : t'.Proper where
  root := by
    rw [h.size]
    exact Nat.lt_succ_of_lt hp.root
  parents node := by
    rw [h.size]
    refine Nat.lt_succ_of_lt ?_
    rcases h.entry_cases node with rfl | rfl | heq
    · rw [parent_of_entry h.above]
      exact hp.parents node
    · rw [parent, h.made]
      cases e with
      | directory => exact hdirectory
      | _ => exact hp.root
    · rw [parent_congr heq]
      exact hp.parents node
  children node p hmem := by
    rw [h.size]
    rcases h.entry_cases node with rfl | rfl | heq
    · rw [names_of_entry h.above, List.mem_append, List.mem_singleton] at hmem
      rcases hmem with hmem | rfl
      · exact Nat.lt_succ_of_lt (hp.children node p (List.mem_of_mem_filter hmem))
      · exact Nat.lt_succ_self _
    · rw [names, h.made] at hmem
      cases e with
      | directory above below =>
        rw [hempty above below rfl] at hmem
        exact absurd hmem List.not_mem_nil
      | _ => exact absurd hmem List.not_mem_nil
    · rw [names_congr heq] at hmem
      exact Nat.lt_succ_of_lt (hp.children node p hmem)

theorem alike_refl (e : Entry) : e.Alike e := by
  cases e <;> simp [Entry.Alike]

theorem lookup_filter_append {names : List (Octets × Nat)} {other : Octets} :
    (names.filter (·.1 ≠ name) ++ [(name, node)]).lookup other =
      if other = name then some node else names.lookup other := by
  induction names with
  | nil =>
    by_cases h : other = name
    · simp [h]
    · simp [h, List.lookup_cons, beq_eq_false_iff_ne.mpr h]
  | cons p names ih =>
    obtain ⟨key, below⟩ := p
    by_cases hkey : key = name
    · rw [List.filter_cons_of_neg (by simpa using hkey), ih]
      by_cases h : other = name
      · rw [if_pos h, if_pos h]
      · rw [if_neg h, if_neg h, List.lookup_cons,
          beq_eq_false_iff_ne.mpr (fun heq => h (heq.trans hkey))]
    · rw [List.filter_cons_of_pos (by simpa using hkey), List.cons_append, List.lookup_cons,
        List.lookup_cons, ih]
      by_cases h : other = key
      · simp [h, hkey]
      · simp [beq_eq_false_iff_ne.mpr h]

theorem Adds.child? (h : Adds t directory name e t') {other : Nat} (hother : other < t.nodes.size)
    (key : Octets) : t'.child? other key =
      if other = directory ∧ key = name then some t.nodes.size else t.child? other key := by
  by_cases heq : other = directory
  · rw [Tree.child?, heq, names_of_entry h.above, lookup_filter_append, Tree.child?]
    simp
  · rw [Tree.child?, names_congr (h.others other hother heq), if_neg fun h => heq h.1, Tree.child?]

theorem Adds.extends (h : Adds t directory name e t') (hdirectory : t.isDirectory directory = true)
    (hnew : t.child? directory name = none) (hlink : ¬ e.IsLink) : t.Extends t' where
  size := by
    rw [h.size]
    exact Nat.le_succ _
  alike node hnode := by
    by_cases heq : node = directory
    · obtain ⟨parent, names, hentry⟩ := isDirectory_iff.mp hdirectory
      rw [heq, h.above, hentry, parent_of_entry hentry]
      exact rfl
    · rw [h.others node hnode heq]
      exact alike_refl _
  kept other hother key node hchild := by
    rw [h.child? hother, if_neg, hchild]
    rintro ⟨rfl, rfl⟩
    rw [hnew] at hchild
    exact nomatch hchild
  fresh other hother key node hnone hchild := by
    rw [h.child? hother] at hchild
    split at hchild
    · obtain rfl := Option.some.inj hchild
      rw [h.made]
      cases e with
      | link target => exact absurd ⟨target, rfl⟩ hlink
      | _ => exact fun ⟨_, heq⟩ => nomatch heq
    · rw [hnone] at hchild
      exact nomatch hchild

/-! ## Texts -/

theorem setText_of_file {old : Octets} {executable : Bool}
    (h : t.entry node = .file old executable) :
    t.setText node text = t.put node (.file text executable) := by
  rw [setText, h]

theorem lt_size_of_file (h : (t.entry node).IsFile) : node < t.nodes.size := by
  by_contra! hle
  obtain ⟨text, executable, hentry⟩ := h
  rw [entry_of_size_le hle] at hentry
  exact nomatch hentry

theorem entry_setText (h : (t.entry node).IsFile) (text : Octets) : ∃ executable,
    (t.setText node text).entry node = .file text executable := by
  have hlt := lt_size_of_file h
  obtain ⟨old, executable, hentry⟩ := h
  exact ⟨executable, by rw [setText_of_file hentry, entry_put_self hlt]⟩

theorem entry_setText_ne {other : Nat} (h : other ≠ node) :
    (t.setText node text).entry other = t.entry other := by
  rw [setText]
  split
  · exact entry_put_ne h
  · rfl

@[simp] theorem size_setText : (t.setText node text).nodes.size = t.nodes.size := by
  rw [setText]
  split
  · exact size_put
  · rfl

theorem setText_of_not_file (h : ¬ (t.entry node).IsFile) : t.setText node text = t := by
  rw [setText]
  split
  next old executable hentry => exact absurd ⟨old, executable, hentry⟩ h
  · rfl

theorem setText_setText (first second : Octets) :
    (t.setText node first).setText node second = t.setText node second := by
  by_cases h : (t.entry node).IsFile
  · obtain ⟨old, executable, hold⟩ := id h
    have hentry : (t.setText node first).entry node = .file first executable := by
      rw [setText_of_file hold, entry_put_self (lt_size_of_file h)]
    rw [setText_of_file hentry, setText_of_file hold, setText_of_file hold, put, put, put,
      Array.setIfInBounds_setIfInBounds]
  · rw [setText_of_not_file h, setText_of_not_file h]

theorem textOf_setText (h : (t.entry node).IsFile) : (t.setText node text).textOf node = text := by
  obtain ⟨executable, hentry⟩ := entry_setText h text
  rw [textOf, hentry]

theorem textOf_setText_ne {other : Nat} (h : other ≠ node) :
    (t.setText node text).textOf other = t.textOf other := by
  rw [textOf, entry_setText_ne h, textOf]

theorem names_setText (h : (t.entry node).IsFile) (other : Nat) :
    (t.setText node text).names other = t.names other := by
  by_cases heq : other = node
  · obtain ⟨executable, hentry⟩ := entry_setText h text
    obtain ⟨old, before, hold⟩ := h
    rw [heq, names, hentry, names, hold]
  · exact names_congr (entry_setText_ne heq)

theorem Proper.setText (hp : t.Proper) (h : (t.entry node).IsFile) :
    (t.setText node text).Proper where
  root := by
    rw [size_setText]
    exact hp.root
  parents other := by
    rw [size_setText]
    by_cases heq : other = node
    · obtain ⟨executable, hentry⟩ := entry_setText h text
      rw [heq, parent, hentry]
      exact hp.root
    · rw [parent_congr (entry_setText_ne heq)]
      exact hp.parents other
  children other p hmem := by
    rw [names_setText h] at hmem
    rw [size_setText]
    exact hp.children other p hmem

theorem extends_setText (h : (t.entry node).IsFile) : t.Extends (t.setText node text) where
  size := size_setText.ge
  alike other _ := by
    by_cases heq : other = node
    · obtain ⟨executable, hentry⟩ := entry_setText h text
      obtain ⟨old, before, hold⟩ := h
      rw [heq, hentry, hold]
      exact trivial
    · rw [entry_setText_ne heq]
      exact alike_refl _
  kept other _ key below hchild := by
    rw [Tree.child?, names_setText h]
    exact hchild
  fresh other _ key below hnone hchild := by
    rw [Tree.child?, names_setText h] at hchild
    exact nomatch hnone.symm.trans hchild

/-! ## Planting -/

/-- What is planted keeps a tree proper and takes no node away. -/
structure Plants (t t' : Tree) : Prop where
  proper : t'.Proper
  size : t.nodes.size ≤ t'.nodes.size

theorem Plants.trans {t'' : Tree} (h : t.Plants t') (h' : t'.Plants t'') : t.Plants t'' :=
  ⟨h'.proper, h.size.trans h'.size⟩

theorem bare_proper : bare.Proper where
  root := Nat.zero_lt_one
  parents node := by
    cases node with
    | zero => exact Nat.zero_lt_one
    | succ node =>
      rw [parent_of_size_le (Nat.le_add_left 1 node)]
      exact Nat.zero_lt_one
  children node p hmem := by
    cases node with
    | zero => exact absurd hmem List.not_mem_nil
    | succ node =>
      rw [names_of_size_le (Nat.le_add_left 1 node)] at hmem
      exact absurd hmem List.not_mem_nil

theorem Proper.plants_add (hp : t.Proper) (hlt : directory < t.nodes.size) (name : Octets)
    (hempty : ∀ parent below, e = .directory parent below → below = []) :
    t.Plants (t.add directory name e).1 :=
  ⟨hp.adds hlt (adds_add hlt name e) hempty, (adds_add hlt name e).size.symm ▸ Nat.le_succ _⟩

theorem plantDirectory_plants (hp : t.Proper) (hlt : directory < t.nodes.size)
    (names : List Octets) : t.Plants (t.plantDirectory directory names).1 ∧
      (t.plantDirectory directory names).2 < (t.plantDirectory directory names).1.nodes.size := by
  induction names generalizing t directory with
  | nil => exact ⟨⟨hp, Nat.le_refl _⟩, hlt⟩
  | cons name rest ih =>
    rw [plantDirectory]
    cases hchild : t.child? directory name with
    | some node => exact ih hp (hp.child_lt hchild)
    | none =>
      have hadd := hp.plants_add (e := .directory directory []) hlt name
        fun _ _ heq => (Entry.directory.inj heq).2.symm
      have hnode : t.nodes.size < (t.add directory name (.directory directory [])).1.nodes.size :=
        (adds_add hlt name _).size.symm ▸ Nat.lt_succ_self _
      obtain ⟨hplants, hbelow⟩ := ih hadd.proper hnode
      exact ⟨hadd.trans hplants, hbelow⟩

theorem plantEntry_plants (hp : t.Proper) (hlt : directory < t.nodes.size) (names : List Octets)
    (hempty : ∀ parent below, e = .directory parent below → below = []) :
    t.Plants (t.plantEntry directory names e) := by
  obtain ⟨hplants, hbelow⟩ := plantDirectory_plants hp hlt names.dropLast
  rw [plantEntry]
  cases names.getLast? with
  | none => exact hplants
  | some name => exact hplants.trans (hplants.proper.plants_add hbelow name hempty)

theorem plant_plants (hp : t.Proper) (hhome : home < t.nodes.size) (path text : Octets) :
    t.Plants (t.plant home path text) := by
  rw [plant]
  split
  · exact (plantDirectory_plants hp hhome _).1
  · exact plantEntry_plants hp hhome _ nofun

theorem foldl_plants {α : Type} {f : Tree → α → Tree} (hp : t.Proper)
    (hf : ∀ t' a, t.Plants t' → t'.Plants (f t' a)) (xs : List α) : t.Plants (xs.foldl f t) := by
  have hfold (xs : List α) (t' : Tree) (h : t.Plants t') : t.Plants (xs.foldl f t') := by
    induction xs generalizing t' with
    | nil => exact h
    | cons x xs ih => exact ih _ (h.trans (hf t' x h))
  exact hfold xs t ⟨hp, Nat.le_refl _⟩

end Tree

end PerfGate
