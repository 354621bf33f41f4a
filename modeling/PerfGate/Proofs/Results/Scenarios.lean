import PerfGate.Proofs.Results.Groups

/-!
# Results by scenario

Results are grouped by scenario and scale, whatever the scale is called. The groups part the
results and keep their order, and no other list of groups does both.
-/

set_option autoImplicit false

namespace PerfGate.Scenarios

open Groups

/-- The results in groups: a group for each pair of a scenario and a scale, in ascending order of
the pairs, with the results of the pair in their order. -/
structure Parted (rows : List ResultRow) (groups : Groups ResultRow) : Prop where
  keys : ∀ scenario scale, ⟨scenario, scale⟩ ∈ keys groups ↔
    ∃ row ∈ rows, row.scenario = scenario ∧ row.scale = scale
  ascending : (Groups.keys groups).Pairwise KeyLt
  nonempty : ∀ group ∈ groups, group.2 ≠ []
  members : ∀ group ∈ groups, group.2 =
    rows.filter fun row => row.scenario = group.1.first ∧ row.scale = group.1.second
  perm : (groups.flatMap (·.2)).Perm rows

def rowKey (row : ResultRow) : GroupKey := ⟨row.scenario, row.scale⟩

section
variable {rows : List ResultRow} {groups : Groups ResultRow}

theorem rowKey_eq_iff {row : ResultRow} {key : GroupKey} :
    rowKey row = key ↔ row.scenario = key.first ∧ row.scale = key.second := by
  obtain ⟨first, second⟩ := key
  rw [rowKey, GroupKey.mk.injEq]

theorem members_iff {group : GroupKey × List ResultRow} :
    group.2 = rows.filter (rowKey · = group.1) ↔ group.2 =
      rows.filter fun row => row.scenario = group.1.first ∧ row.scale = group.1.second := by
  simp only [rowKey_eq_iff]

theorem parted_of_partition (h : Partition rowKey rows groups) : Parted rows groups where
  keys scenario scale := by
    simp only [h.mem_keys, rowKey_eq_iff]
  ascending := h.ascending
  nonempty _ hgroup := h.ne_nil hgroup
  members group hgroup := members_iff.mp (h.members group hgroup)
  perm := h.perm

theorem Parted.partition (h : Parted rows groups) : Partition rowKey rows groups where
  ascending := h.ascending
  mem_keys k := by
    simp only [rowKey_eq_iff]
    exact h.keys k.first k.second
  members group hgroup := members_iff.mpr (h.members group hgroup)
  perm := h.perm

end

/-- The groups of results by scenario part them, and nothing else does. -/
theorem scenarios_part (rows : List ResultRow) (groups : Groups ResultRow) :
    Parted rows groups ↔ groups = scenarioGroups rows := by
  have hpartition : Partition rowKey rows (scenarioGroups rows) := of_partition rowKey rows
  constructor
  · intro h
    exact h.partition.unique hpartition
  · rintro rfl
    exact parted_of_partition hpartition

end PerfGate.Scenarios
