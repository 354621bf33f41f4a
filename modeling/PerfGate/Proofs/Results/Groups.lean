import PerfGate.Proofs.Text.Bytewise
import PerfGate.Results.Grouping

/-!
# Groups of rows

Rows are added one at a time, each to the group of its key or, if there is none, to a new one in
its place. Through all of it the keys ascend and are those of the rows, each group holds the
rows of its key in the order in which they came, and the groups together hold every row once.
-/

set_option autoImplicit false

namespace PerfGate.Groups

open Bytewise

/-! ## Keys in order -/

/-- Keys are ordered by the bytes of their first names and then of their second names. -/
def KeyLt (a b : GroupKey) : Prop :=
  bytes a.first < bytes b.first ∨ a.first = b.first ∧ bytes a.second < bytes b.second

section
variable {a b c : GroupKey}

theorem before_iff : a.before b = true ↔ KeyLt a b := by
  simp [GroupKey.before, KeyLt, bytes_lt_bytes_iff]

theorem keyLt_iff : KeyLt a b ↔ a.first < b.first ∨ a.first = b.first ∧ a.second < b.second := by
  rw [KeyLt, bytes_lt_bytes_iff, bytes_lt_bytes_iff]

theorem KeyLt.ne (h : KeyLt a b) : a ≠ b := by
  rintro rfl
  rw [keyLt_iff] at h
  exact h.elim (lt_irrefl _) fun h => lt_irrefl _ h.2

theorem KeyLt.trans (hab : KeyLt a b) (hbc : KeyLt b c) : KeyLt a c := by
  rw [keyLt_iff] at *
  rcases hab with hab | ⟨hab, hab'⟩ <;> rcases hbc with hbc | ⟨hbc, hbc'⟩
  · exact .inl (hab.trans hbc)
  · exact .inl (hbc ▸ hab)
  · exact .inl (hab ▸ hbc)
  · exact .inr ⟨hab.trans hbc, hab'.trans hbc'⟩

theorem KeyLt.asymm (hab : KeyLt a b) : ¬ KeyLt b a := fun hba => (hab.trans hba).ne rfl

theorem keyLt_of_not (hne : a ≠ b) (h : ¬ KeyLt a b) : KeyLt b a := by
  rw [keyLt_iff] at *
  rcases lt_trichotomy a.first b.first with hlt | heq | hlt
  · exact absurd (.inl hlt) h
  · rcases lt_trichotomy a.second b.second with hlt' | heq' | hlt'
    · exact absurd (.inr ⟨heq, hlt'⟩) h
    · cases a
      cases b
      cases heq
      cases heq'
      exact absurd rfl hne
    · exact .inr ⟨heq.symm, hlt'⟩
  · exact .inl hlt

end

/-! ## One row -/

section
variable {α : Type} {key k : GroupKey} {row : α} {groups rest : Groups α}
  {group : GroupKey × List α}

def keys (groups : Groups α) : List GroupKey := groups.map (·.1)

@[simp] theorem keys_cons : keys (group :: rest) = group.1 :: keys rest := rfl

def Ascending (groups : Groups α) : Prop := (keys groups).Pairwise KeyLt

theorem mem_keys_of_mem (h : group ∈ groups) : group.1 ∈ keys groups := List.mem_map_of_mem h

theorem mem_keys_add : k ∈ keys (add key row groups) ↔ k = key ∨ k ∈ keys groups := by
  induction groups with
  | nil => simp [add, keys]
  | cons head rest ih =>
    obtain ⟨name, rows⟩ := head
    rw [add]
    split
    next heq => simp [keys, heq]
    next =>
      split
      next => simp [keys]
      next =>
        rw [keys_cons, keys_cons, List.mem_cons, List.mem_cons, ih]
        exact or_left_comm

theorem ascending_cons : Ascending (group :: rest) ↔
    (∀ name ∈ keys rest, KeyLt group.1 name) ∧ Ascending rest :=
  List.pairwise_cons

theorem add_ascending (h : Ascending groups) : Ascending (add key row groups) := by
  induction groups with
  | nil => exact List.pairwise_singleton _ _
  | cons head rest ih =>
    obtain ⟨name, rows⟩ := head
    obtain ⟨hhead, hrest⟩ := ascending_cons.mp h
    rw [add]
    split
    next => exact ascending_cons.mpr ⟨hhead, hrest⟩
    next hne =>
      split
      next hbefore =>
        have hlt := before_iff.mp hbefore
        refine ascending_cons.mpr ⟨fun k hk => ?_, h⟩
        rcases List.mem_cons.mp hk with rfl | hk
        · exact hlt
        · exact hlt.trans (hhead k hk)
      next hbefore =>
        refine ascending_cons.mpr ⟨fun k hk => ?_, ih hrest⟩
        rcases mem_keys_add.mp hk with rfl | hk
        · exact keyLt_of_not hne (hbefore ∘ before_iff.mpr)
        · exact hhead k hk

/-- A row joins the group of its key, or is the first of it; the other groups stay. -/
theorem mem_add (h : Ascending groups) (hgroup : group ∈ add key row groups) :
    group ∈ groups ∧ group.1 ≠ key ∨
      ∃ rows, group = (key, rows ++ [row]) ∧
        ((key, rows) ∈ groups ∨ rows = [] ∧ key ∉ keys groups) := by
  induction groups with
  | nil =>
    obtain rfl := List.mem_singleton.mp hgroup
    exact .inr ⟨[], rfl, .inr ⟨rfl, List.not_mem_nil⟩⟩
  | cons head rest ih =>
    obtain ⟨name, rows⟩ := head
    obtain ⟨hhead, hrest⟩ := ascending_cons.mp h
    rw [add] at hgroup
    split at hgroup
    next heq =>
      obtain rfl := heq
      rcases List.mem_cons.mp hgroup with rfl | hmem
      · exact .inr ⟨rows, rfl, .inl List.mem_cons_self⟩
      · exact .inl ⟨List.mem_cons_of_mem _ hmem, (hhead _ (mem_keys_of_mem hmem)).ne.symm⟩
    next hne =>
      split at hgroup
      next hbefore =>
        have hlt := before_iff.mp hbefore
        have hbelow : ∀ k ∈ keys ((name, rows) :: rest), KeyLt key k := fun k hk => by
          rcases List.mem_cons.mp hk with rfl | hk
          · exact hlt
          · exact hlt.trans (hhead k hk)
        rcases List.mem_cons.mp hgroup with rfl | hmem
        · exact .inr ⟨[], rfl, .inr ⟨rfl, fun hkey => (hbelow key hkey).ne rfl⟩⟩
        · exact .inl ⟨hmem, (hbelow _ (mem_keys_of_mem hmem)).ne.symm⟩
      next =>
        rcases List.mem_cons.mp hgroup with rfl | hmem
        · exact .inl ⟨List.mem_cons_self, Ne.symm hne⟩
        rcases ih hrest hmem with ⟨hmem', hkey⟩ | ⟨rows', rfl, hrows⟩
        · exact .inl ⟨List.mem_cons_of_mem _ hmem', hkey⟩
        · refine .inr ⟨rows', rfl, hrows.imp (List.mem_cons_of_mem _) fun ⟨hempty, hnone⟩ => ?_⟩
          exact ⟨hempty, fun hkey => (List.mem_cons.mp hkey).elim hne hnone⟩

theorem add_perm : ((add key row groups).flatMap (·.2)).Perm (row :: groups.flatMap (·.2)) := by
  induction groups with
  | nil => exact .refl _
  | cons head rest ih =>
    obtain ⟨name, rows⟩ := head
    rw [add]
    split
    next =>
      rw [List.flatMap_cons, List.flatMap_cons, List.append_assoc]
      exact List.perm_middle
    next =>
      split
      next => exact .refl _
      next =>
        rw [List.flatMap_cons, List.flatMap_cons]
        exact (ih.append_left rows).trans List.perm_middle

/-! ## All rows -/

structure Partition (key : α → GroupKey) (rows : List α) (groups : Groups α) : Prop where
  ascending : Ascending groups
  mem_keys : ∀ k, k ∈ keys groups ↔ ∃ row ∈ rows, key row = k
  members : ∀ group ∈ groups, group.2 = rows.filter (key · = group.1)
  perm : (groups.flatMap (·.2)).Perm rows

variable {rows : List α}

theorem Partition.add {key : α → GroupKey} (h : Partition key rows groups) (row : α) :
    Partition key (rows ++ [row]) (groups.add (key row) row) where
  ascending := add_ascending h.ascending
  mem_keys k := by
    rw [mem_keys_add, h.mem_keys]
    simp [or_and_right, exists_or, eq_comm, or_comm]
  members group hgroup := by
    rcases mem_add h.ascending hgroup with ⟨hmem, hkey⟩ | ⟨before, rfl, hmem | ⟨rfl, hnone⟩⟩
    · rw [h.members group hmem, List.filter_append, List.filter_singleton]
      simp [Ne.symm hkey]
    · have hbefore := h.members _ hmem
      simp only at hbefore
      simp [hbefore]
    · have hempty : rows.filter (key · = key row) = [] :=
        List.filter_eq_nil_iff.mpr fun x hx hkey =>
          hnone ((h.mem_keys _).mpr ⟨x, hx, of_decide_eq_true hkey⟩)
      simp [hempty]
  perm := add_perm.trans ((h.perm.cons row).trans (List.perm_append_singleton row rows).symm)

theorem of_partition (key : α → GroupKey) (rows : List α) : Partition key rows (of key rows) := by
  induction rows using List.reverseRecOn with
  | nil => exact ⟨.nil, by simp [of, keys], List.forall_mem_nil _, .refl _⟩
  | append_singleton rows row ih =>
    rw [of, List.foldl_append]
    exact ih.add row

/-- No group is empty: its key is that of a row. -/
theorem Partition.ne_nil {key : α → GroupKey} (h : Partition key rows groups)
    (hgroup : group ∈ groups) : group.2 ≠ [] := by
  obtain ⟨row, hrow, hkey⟩ := (h.mem_keys _).mp (mem_keys_of_mem hgroup)
  rw [h.members group hgroup]
  exact List.ne_nil_of_mem (List.mem_filter.mpr ⟨hrow, decide_eq_true hkey⟩)

/-! ## Groups with the same keys -/

variable {others : Groups α}

theorem Ascending.nodup (h : Ascending groups) : (keys groups).Nodup := List.Pairwise.imp KeyLt.ne h

/-- Ascending keys are known by what is among them. -/
theorem Ascending.keys_eq (h : Ascending groups) (h' : Ascending others)
    (hmem : ∀ k, k ∈ keys groups ↔ k ∈ keys others) : keys groups = keys others := by
  have hperm : (keys groups).Perm (keys others) :=
    (List.perm_ext_iff_of_nodup h.nodup h'.nodup).mpr hmem
  refine List.Perm.eq_of_pairwise ?_ h h' hperm
  intro a b _ _ hab hba
  exact absurd hba hab.asymm

/-- Groups whose rows are known by their keys. -/
theorem eq_map_keys (members : GroupKey → List α)
    (h : ∀ group ∈ groups, group.2 = members group.1) :
    groups = (keys groups).map fun k => (k, members k) := by
  rw [keys, List.map_map]
  refine (List.map_id groups).symm.trans (List.map_congr_left fun group hgroup => ?_)
  exact Prod.ext rfl (h group hgroup)

/-- There is one way only to part rows by a key of theirs. -/
theorem Partition.unique {key : α → GroupKey} (h : Partition key rows groups)
    (h' : Partition key rows others) : groups = others := by
  have hkeys : keys groups = keys others :=
    h.ascending.keys_eq h'.ascending fun k => (h.mem_keys k).trans (h'.mem_keys k).symm
  rw [eq_map_keys (fun k => rows.filter (key · = k)) h.members,
    eq_map_keys (fun k => rows.filter (key · = k)) h'.members, hkeys]

end

end PerfGate.Groups
