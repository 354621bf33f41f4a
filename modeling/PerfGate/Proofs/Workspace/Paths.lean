import PerfGate.Proofs.Workspace.Tree

/-!
# Where paths lead as a tree grows

A path is followed one name at a time. What a path leads to it leads to in every extended tree,
and a place for a name is the same place. A file or a directory that is made extends the tree.
-/

set_option autoImplicit false

namespace PerfGate.Tree

variable {t t' : Tree} {home directory node : Nat} {name path text : Octets}

/-! ## One step -/

theorem Extends.isDirectory (h : t.Extends t') (hlt : node < t.nodes.size) :
    t'.isDirectory node = t.isDirectory node := by
  have halike := h.alike node hlt
  rw [Tree.isDirectory, Tree.isDirectory]
  cases hentry : t.entry node <;> cases hentry' : t'.entry node <;>
    rw [hentry, hentry'] at halike <;> first | rfl | exact halike.elim

theorem Extends.parent (h : t.Extends t') (hlt : node < t.nodes.size) :
    t'.parent node = t.parent node := by
  have halike := h.alike node hlt
  rw [Tree.parent, Tree.parent]
  cases hentry : t.entry node <;> cases hentry' : t'.entry node <;>
    rw [hentry, hentry'] at halike <;> first | rfl | exact halike | exact halike.elim

theorem Extends.isFile_iff (h : t.Extends t') (hlt : node < t.nodes.size) :
    (t'.entry node).IsFile ↔ (t.entry node).IsFile := by
  have halike := h.alike node hlt
  cases hentry : t.entry node <;> cases hentry' : t'.entry node <;>
    rw [hentry, hentry'] at halike <;> first | exact halike.elim | simp [Entry.IsFile]

/-- What one name of a path does: it ends the way, or the way goes on. -/
inductive Move where
  | stop (result : Except FileFault Target)
  | on (links directory : Nat) (names : List Octets)

/-- A name that leads to a node. -/
def reached (through : Bool) (links directory : Nat) (name : Octets) (rest : List Octets)
    (node : Nat) : Entry → Move
  | .link target =>
    if rest.all (· = "") ∧ ¬ ¬ rest.isEmpty ∧ ¬ through then
      .stop (.ok (.name directory name (¬ rest.isEmpty)))
    else if longestChain ≤ links then .stop (.error .linkLoop)
    else .on (links + 1) (start directory target) (segments target ++ rest)
  | .directory .. =>
    if rest.all (· = "") then .stop (.ok (.name directory name (¬ rest.isEmpty)))
    else .on links node rest
  | _ =>
    if rest.all (· = "") then .stop (.ok (.name directory name (¬ rest.isEmpty)))
    else .stop (.error .notDirectory)

/-- A name that is neither a dot nor two. -/
def entered (t : Tree) (through : Bool) (links directory : Nat) (name : Octets)
    (rest : List Octets) : Move :=
  match t.child? directory name with
  | some node => reached through links directory name rest node (t.entry node)
  | none =>
    if rest.all (· = "") then .stop (.ok (.name directory name (¬ rest.isEmpty)))
    else .stop (.error .notFound)

def move (t : Tree) (through : Bool) (links directory : Nat) (name : Octets)
    (rest : List Octets) : Move :=
  if ¬ t.isDirectory directory then .stop (.error .notDirectory)
  else if isStay name then .on links directory rest
  else if name = ".." then .on links (t.parent directory) rest
  else if longestName < name.length then .stop (.error .nameTooLong)
  else t.entered through links directory name rest

theorem follow_succ (t : Tree) (through : Bool) (fuel links directory : Nat) (name : Octets)
    (rest : List Octets) : t.follow through (fuel + 1) links directory (name :: rest) =
      match t.move through links directory name rest with
      | .stop result => result
      | .on links directory names => t.follow through fuel links directory names := by
  rw [follow, move]
  by_cases hdirectory : ¬ t.isDirectory directory = true
  · rw [if_pos hdirectory, if_pos hdirectory]
  by_cases hstay : isStay name = true
  · rw [if_neg hdirectory, if_neg hdirectory, if_pos hstay, if_pos hstay]
  by_cases hup : name = ".."
  · rw [if_neg hdirectory, if_neg hdirectory, if_neg hstay, if_neg hstay, if_pos hup, if_pos hup]
  by_cases hlong : longestName < name.length
  · rw [if_neg hdirectory, if_neg hdirectory, if_neg hstay, if_neg hstay, if_neg hup, if_neg hup,
      if_pos hlong, if_pos hlong]
  rw [if_neg hdirectory, if_neg hdirectory, if_neg hstay, if_neg hstay, if_neg hup, if_neg hup,
    if_neg hlong, if_neg hlong, entered]
  cases t.child? directory name with
  | none =>
    dsimp only
    split_ifs <;> rfl
  | some node =>
    dsimp only
    cases t.entry node with
    | _ =>
      simp only [reached]
      split_ifs <;> rfl

/-! ## Following -/

/-- The place is in the tree, and a name is in a directory. -/
def Within (t : Tree) : Target → Prop
  | .itself directory => directory < t.nodes.size
  | .name directory _ _ => directory < t.nodes.size ∧ t.isDirectory directory = true

def Move.Within (t : Tree) : Move → Prop
  | .stop (.ok target) => t.Within target
  | .stop (.error _) => True
  | .on _ directory _ => directory < t.nodes.size

theorem start_lt (hp : t.Proper) (h : home < t.nodes.size) (path : Octets) :
    start home path < t.nodes.size := by
  rw [start]
  split
  · exact hp.root
  · exact h

theorem reached_within (hp : t.Proper) (hlt : directory < t.nodes.size)
    (hdirectory : t.isDirectory directory = true) (hnode : node < t.nodes.size) (through : Bool)
    (links : Nat) (name : Octets) (rest : List Octets) (e : Entry) :
    (reached through links directory name rest node e).Within t := by
  have htarget : t.Within (.name directory name (¬ rest.isEmpty)) := ⟨hlt, hdirectory⟩
  cases e with
  | link target =>
    simp only [reached]
    split_ifs
    · exact htarget
    · exact trivial
    · exact start_lt hp hlt target
  | directory =>
    simp only [reached]
    split_ifs
    · exact htarget
    · exact hnode
  | _ =>
    simp only [reached]
    split_ifs
    · exact htarget
    · exact trivial

theorem move_within (hp : t.Proper) (hlt : directory < t.nodes.size) (through : Bool)
    (links : Nat) (name : Octets) (rest : List Octets) :
    (t.move through links directory name rest).Within t := by
  rw [move]
  by_cases hdirectory : t.isDirectory directory = true
  · rw [if_neg (not_not.mpr hdirectory)]
    by_cases hstay : isStay name = true
    · rw [if_pos hstay]
      exact hlt
    by_cases hup : name = ".."
    · rw [if_neg hstay, if_pos hup]
      exact hp.parents directory
    by_cases hlong : longestName < name.length
    · rw [if_neg hstay, if_neg hup, if_pos hlong]
      exact trivial
    rw [if_neg hstay, if_neg hup, if_neg hlong, entered]
    cases hchild : t.child? directory name with
    | some node => exact reached_within hp hlt hdirectory (hp.child_lt hchild) ..
    | none =>
      dsimp only
      split_ifs
      · exact ⟨hlt, hdirectory⟩
      · exact trivial
  · rw [if_pos hdirectory]
    exact trivial

theorem follow_within (hp : t.Proper) {through : Bool} {fuel links : Nat} {names : List Octets}
    (hlt : directory < t.nodes.size) {target : Target}
    (h : t.follow through fuel links directory names = .ok target) : t.Within target := by
  induction fuel generalizing links directory names with
  | zero => exact nomatch h
  | succ fuel ih =>
    cases names with
    | nil =>
      obtain rfl := Except.ok.inj h
      exact hlt
    | cons name rest =>
      have hmove := move_within hp hlt through links name rest
      rw [follow_succ] at h
      cases hstep : t.move through links directory name rest with
      | stop result =>
        rw [hstep] at h hmove
        dsimp only at h
        rw [h] at hmove
        exact hmove
      | on links directory names =>
        rw [hstep] at h hmove
        exact ih hmove h

/-! ## In an extended tree -/

theorem reached_extends {e e' : Entry} (h : e.Alike e') (through : Bool) (links directory : Nat)
    (name : Octets) (rest : List Octets) (node : Nat) :
    reached through links directory name rest node e' =
      reached through links directory name rest node e := by
  cases e <;> cases e' <;> first
    | exact h.elim
    | rfl
    | rw [show _ = _ from h]

theorem entered_extends (h : t.Extends t') (hp : t.Proper) (hlt : directory < t.nodes.size)
    {through : Bool} {links : Nat} {rest : List Octets}
    (hfound : t.entered through links directory name rest ≠ .stop (.error .notFound)) :
    t'.entered through links directory name rest =
      t.entered through links directory name rest := by
  rw [entered] at hfound
  rw [entered, entered]
  cases hchild : t.child? directory name with
  | some node =>
    rw [h.kept directory hlt name node hchild]
    exact reached_extends (h.alike node (hp.child_lt hchild)) ..
  | none =>
    cases hchild' : t'.child? directory name with
    | none => rfl
    | some node =>
      -- Only the last name of a path can be new.
      have hlink := h.fresh directory hlt name node hchild hchild'
      rw [hchild] at hfound
      dsimp only at hfound ⊢
      by_cases hlast : rest.all (· = "") = true
      · rw [if_pos hlast]
        cases hentry : t'.entry node with
        | link target => exact absurd ⟨target, hentry⟩ hlink
        | _ => simp only [reached, if_pos hlast]
      · exact absurd (if_neg hlast) hfound

theorem move_extends (h : t.Extends t') (hp : t.Proper) (hlt : directory < t.nodes.size)
    {through : Bool} {links : Nat} {rest : List Octets}
    (hfound : t.move through links directory name rest ≠ .stop (.error .notFound)) :
    t'.move through links directory name rest = t.move through links directory name rest := by
  rw [move] at hfound
  rw [move, move, h.isDirectory hlt, h.parent hlt]
  by_cases hno : ¬ t.isDirectory directory = true
  · rw [if_pos hno, if_pos hno]
  by_cases hstay : isStay name = true
  · rw [if_pos hstay, if_pos hstay]
  by_cases hup : name = ".."
  · rw [if_pos hup, if_pos hup]
  by_cases hlong : longestName < name.length
  · rw [if_pos hlong, if_pos hlong]
  rw [if_neg hno, if_neg hstay, if_neg hup, if_neg hlong] at hfound
  rw [if_neg hlong, if_neg hlong, entered_extends h hp hlt hfound]

theorem follow_extends (h : t.Extends t') (hp : t.Proper) {through : Bool} {fuel links : Nat}
    {names : List Octets} (hlt : directory < t.nodes.size)
    (hfound : t.follow through fuel links directory names ≠ .error .notFound) :
    t'.follow through fuel links directory names =
      t.follow through fuel links directory names := by
  induction fuel generalizing links directory names with
  | zero => rfl
  | succ fuel ih =>
    cases names with
    | nil => rfl
    | cons name rest =>
      have hmove := move_within hp hlt through links name rest
      rw [follow_succ] at hfound
      have hstep : t'.move through links directory name rest =
          t.move through links directory name rest := by
        refine move_extends h hp hlt fun hnone => ?_
        rw [hnone] at hfound
        exact hfound rfl
      rw [follow_succ, follow_succ, hstep]
      cases hon : t.move through links directory name rest with
      | stop result => rfl
      | on links directory names =>
        rw [hon] at hmove hfound
        exact ih hmove hfound

theorem locateBy_extends (h : t.Extends t') (hp : t.Proper) (hhome : home < t.nodes.size)
    {through : Bool} {target : Target} (hfound : t.locateBy through home path = .ok target) :
    t'.locateBy through home path = .ok target := by
  rw [locateBy] at hfound ⊢
  by_cases hzero : path.toList.contains '\x00' = true
  · rw [if_pos hzero] at hfound
    exact nomatch hfound
  by_cases hempty : path.isEmpty = true
  · rw [if_neg hzero, if_pos hempty] at hfound
    exact nomatch hfound
  by_cases hlong : longestPath < path.length
  · rw [if_neg hzero, if_neg hempty, if_pos hlong] at hfound
    exact nomatch hfound
  rw [if_neg hzero, if_neg hempty, if_neg hlong] at hfound ⊢
  rw [follow_extends h hp (start_lt hp hhome path) (by rw [hfound]; exact nofun), hfound]

theorem locateBy_within (hp : t.Proper) (hhome : home < t.nodes.size) {through : Bool}
    {target : Target} (hfound : t.locateBy through home path = .ok target) : t.Within target := by
  rw [locateBy] at hfound
  split_ifs at hfound
  exact follow_within hp (start_lt hp hhome path) hfound

/-! ## Finding -/

theorem find_eq_ok_iff : t.find home path = .ok node ↔
    ∃ target, t.locate home path = .ok target ∧ t.nodeOf target = .ok node := by
  rw [find]
  cases t.locate home path with
  | error cause => simp [Bind.bind, Except.bind]
  | ok target => simp [Bind.bind, Except.bind]

theorem nodeOf_name_eq_ok_iff {slash : Bool} : t.nodeOf (.name directory name slash) = .ok node ↔
    t.child? directory name = some node ∧ (slash = true → t.isDirectory node = true) := by
  rw [nodeOf]
  cases t.child? directory name with
  | none => simp
  | some below =>
    cases slash <;> cases hdirectory : t.isDirectory below <;> simp [hdirectory]
    · rintro rfl
      simp [hdirectory]
    · rintro rfl
      exact hdirectory

theorem find_lt (hp : t.Proper) (hhome : home < t.nodes.size)
    (h : t.find home path = .ok node) : node < t.nodes.size := by
  obtain ⟨target, hlocate, hnode⟩ := find_eq_ok_iff.mp h
  have hwithin := locateBy_within hp hhome hlocate
  cases target with
  | itself directory =>
    obtain rfl := Except.ok.inj hnode
    exact hwithin
  | name directory name slash => exact hp.child_lt (nodeOf_name_eq_ok_iff.mp hnode).1

/-- What a path leads to it leads to in an extended tree. -/
theorem find_extends (h : t.Extends t') (hp : t.Proper) (hhome : home < t.nodes.size)
    (hfound : t.find home path = .ok node) : t'.find home path = .ok node := by
  have hlt := find_lt hp hhome hfound
  obtain ⟨target, hlocate, hnode⟩ := find_eq_ok_iff.mp hfound
  have hwithin := locateBy_within hp hhome hlocate
  refine find_eq_ok_iff.mpr ⟨target, locateBy_extends h hp hhome hlocate, ?_⟩
  cases target with
  | itself directory => exact hnode
  | name directory name slash =>
    obtain ⟨hchild, hslash⟩ := nodeOf_name_eq_ok_iff.mp hnode
    refine nodeOf_name_eq_ok_iff.mpr ⟨h.kept directory hwithin.1 name node hchild, fun heq => ?_⟩
    rw [h.isDirectory hlt]
    exact hslash heq

theorem Extends.trans {t'' : Tree} (hp : t'.Proper) (h : t.Extends t') (h' : t'.Extends t'') :
    t.Extends t'' where
  size := h.size.trans h'.size
  alike node hlt := by
    have hfirst := h.alike node hlt
    have hsecond := h'.alike node (hlt.trans_le h.size)
    cases hentry : t.entry node <;> cases hentry' : t'.entry node <;>
      cases hentry'' : t''.entry node <;> rw [hentry, hentry'] at hfirst <;>
      rw [hentry', hentry''] at hsecond <;>
      first | exact hfirst.elim | exact hsecond.elim | exact Eq.trans hsecond hfirst | exact trivial
  kept directory hlt name node hchild :=
    h'.kept directory (hlt.trans_le h.size) name node (h.kept directory hlt name node hchild)
  fresh directory hlt name node hnone hchild := by
    cases hbetween : t'.child? directory name with
    | none => exact h'.fresh directory (hlt.trans_le h.size) name node hbetween hchild
    | some below =>
      obtain rfl : below = node := Option.some.inj
        ((h'.kept directory (hlt.trans_le h.size) name below hbetween).symm.trans hchild)
      have hlink := h.fresh directory hlt name below hnone hbetween
      have halike := h'.alike below (hp.child_lt hbetween)
      rintro ⟨target, hentry⟩
      rw [hentry] at halike
      cases hbefore : t'.entry below with
      | link target => exact hlink ⟨target, hbefore⟩
      | _ =>
        rw [hbefore] at halike
        exact halike.elim

/-! ## Making -/

structure Grows (t t' : Tree) : Prop where
  proper : t'.Proper
  extended : t.Extends t'
  texts : ∀ node < t.nodes.size, t'.textOf node = t.textOf node

theorem grows_self (hp : t.Proper) : t.Grows t where
  proper := hp
  extended :=
    { size := Nat.le_refl _
      alike := fun _ _ => alike_refl _
      kept := fun _ _ _ _ hchild => hchild
      fresh := fun _ _ _ _ hnone hchild => nomatch hnone.symm.trans hchild }
  texts _ _ := rfl

theorem Grows.trans {t'' : Tree} (h : t.Grows t') (h' : t'.Grows t'') : t.Grows t'' where
  proper := h'.proper
  extended := h.extended.trans h.proper h'.extended
  texts node hlt :=
    (h'.texts node (hlt.trans_le h.extended.size)).trans (h.texts node hlt)

theorem grows_add {e : Entry} {slash : Bool} (hp : t.Proper)
    (hwithin : t.Within (.name directory name slash)) (hnew : t.child? directory name = none)
    (hlink : ¬ e.IsLink) (hempty : ∀ parent below, e = .directory parent below → below = []) :
    t.Grows (t.add directory name e).1 where
  proper := hp.adds hwithin.1 (adds_add hwithin.1 name e) hempty
  extended := (adds_add hwithin.1 name e).extends hwithin.2 hnew hlink
  texts node hlt := by
    have hadds := adds_add hwithin.1 name e
    by_cases heq : node = directory
    · obtain ⟨parent, names, hentry⟩ := isDirectory_iff.mp hwithin.2
      rw [heq, textOf, hadds.above, textOf, hentry]
    · rw [textOf, hadds.others node hlt heq, textOf]

section
variable (h : t.locate home path = .ok (.name directory name false))
include h

theorem openForWriting_of_some (hchild : t.child? directory name = some node) :
    t.openForWriting home path =
      if t.isDirectory node then .error .isDirectory else .ok (t, node) := by
  simp only [openForWriting, h, hchild]

theorem openForWriting_of_none (hchild : t.child? directory name = none) :
    t.openForWriting home path = .ok (t.add directory name (.file "" false)) := by
  simp only [openForWriting, h, hchild]

end

theorem place_of_openForWriting (h : t.openForWriting home path = .ok (t', node)) :
    ∃ directory name, t.locate home path = .ok (.name directory name false) := by
  rw [openForWriting] at h
  split at h
  · exact nomatch h
  · exact nomatch h
  · exact nomatch h
  next directory name hlocate => exact ⟨directory, name, hlocate⟩

/-- The node that is opened for writing is the one that the path leads to then. A node that is made
is an empty file. -/
theorem openForWriting_grows (hp : t.Proper) (hhome : home < t.nodes.size)
    (h : t.openForWriting home path = .ok (t', node)) :
    t.Grows t' ∧ t'.find home path = .ok node ∧
      (t' = t ∨ t'.entry node = .file "" false ∧ t.nodes.size ≤ node) := by
  obtain ⟨directory, name, hlocate⟩ := place_of_openForWriting h
  cases hchild : t.child? directory name with
  | some below =>
    rw [openForWriting_of_some hlocate hchild] at h
    split at h
    · exact nomatch h
    · obtain ⟨rfl, rfl⟩ := Prod.mk.inj (Except.ok.inj h)
      exact ⟨grows_self hp, find_eq_ok_iff.mpr ⟨_, hlocate, nodeOf_name_eq_ok_iff.mpr
        ⟨hchild, nofun⟩⟩, .inl rfl⟩
  | none =>
    rw [openForWriting_of_none hlocate hchild] at h
    have hwithin := locateBy_within hp hhome hlocate
    have hadds := adds_add hwithin.1 name (.file "" false)
    have hgrows : t.Grows (t.add directory name (.file "" false)).1 :=
      grows_add hp hwithin hchild (fun ⟨_, h⟩ => nomatch h) nofun
    have hnode : t.nodes.size = node := congrArg Prod.snd (Except.ok.inj h)
    have htree : (t.add directory name (.file "" false)).1 = t' :=
      congrArg Prod.fst (Except.ok.inj h)
    rw [htree] at hadds hgrows
    subst hnode
    have hplace := locateBy_extends hgrows.extended hp hhome hlocate
    have hfound := (hadds.child? hwithin.1 name).trans (if_pos ⟨rfl, rfl⟩)
    exact ⟨hgrows, find_eq_ok_iff.mpr ⟨_, hplace, nodeOf_name_eq_ok_iff.mpr ⟨hfound, nofun⟩⟩,
      .inr ⟨hadds.made, Nat.le_refl _⟩⟩

theorem makeOne_grows (hp : t.Proper) (hhome : home < t.nodes.size)
    (h : t.makeOne home path = .ok t') : t.Grows t' := by
  rw [makeOne] at h
  cases hlocate : t.locateBy false home path with
  | error cause =>
    rw [hlocate] at h
    exact nomatch h
  | ok target =>
    rw [hlocate] at h
    cases target with
    | itself directory => exact nomatch h
    | name directory name slash =>
      dsimp only at h
      cases hchild : t.child? directory name with
      | some node =>
        rw [hchild] at h
        exact nomatch h
      | none =>
        rw [hchild] at h
        obtain rfl := Except.ok.inj h
        have hwithin := locateBy_within hp hhome hlocate
        exact grows_add hp hwithin hchild (fun ⟨_, h⟩ => nomatch h)
          fun _ _ heq => (Entry.directory.inj heq).2.symm

def Growing {α : Type} (home : Nat) (task : StateM Tree α) : Prop :=
  ∀ t : Tree, t.Proper → home < t.nodes.size → t.Grows (task.run t).2

section
variable {α β : Type}

theorem growing_pure (a : α) : Growing home (pure a) :=
  fun _ hp _ => grows_self hp

theorem Growing.bind {task : StateM Tree α} {f : α → StateM Tree β} (h : Growing home task)
    (hf : ∀ a, Growing home (f a)) : Growing home (task >>= f) := fun t hp hhome =>
  have hfirst := h t hp hhome
  hfirst.trans (hf _ _ hfirst.proper (hhome.trans_le hfirst.extended.size))

end

theorem makeOrKeep_growing (path : String) : Growing home ((directories home).makeOrKeep path) := by
  have hmake : Growing home ((directories home).make path) := fun t hp hhome => by
    simp only [directories, StateT.run]
    cases h : t.makeOne home (Octets.encode path) with
    | error cause => exact grows_self hp
    | ok t' => exact makeOne_grows hp hhome h
  refine hmake.bind fun result => ?_
  cases result with
  | ok => exact growing_pure _
  | error cause => exact Growing.bind (fun _ hp _ => grows_self hp) fun _ => growing_pure _

theorem makeBelow_growing (depth : Nat) (path : String) :
    Growing home ((directories home).makeBelow depth path) := by
  induction depth generalizing path with
  | zero => exact growing_pure _
  | succ depth ih =>
    rw [Directories.makeBelow]
    split
    · exact growing_pure _
    refine (makeOrKeep_growing path).bind fun result => ?_
    split
    · split
      · exact growing_pure _
      · refine (ih _).bind fun result => ?_
        split
        · exact growing_pure _
        · exact makeOrKeep_growing path
    · exact growing_pure _

theorem makeDirectory_grows {path : String} (hp : t.Proper) (hhome : home < t.nodes.size)
    (h : t.makeDirectory home path = .ok t') : t.Grows t' := by
  have hgrows := makeBelow_growing (path.length + 1) path t hp hhome
  rw [makeDirectory, Directories.makeAll] at h
  split at h
  · exact nomatch h
  next hrun =>
    rw [hrun] at hgrows
    obtain rfl := Except.ok.inj h
    exact hgrows

end PerfGate.Tree
