import PerfGate.Measurement.Statistics
import PerfGate.Proofs.Number.Exact

/-!
# Durations in ascending order

Nothing is lost when durations are moved into order. If all of them are numbers, infinities
included, the result ascends in value: it begins with the least duration and ends with the
greatest.
-/

set_option autoImplicit false

namespace PerfGate.Statistics

open Number

def Numbers (xs : List Float) : Prop := ∀ x ∈ xs, x.isNaN = false

instance (xs : List Float) : Decidable (Numbers xs) :=
  inferInstanceAs (Decidable (∀ x ∈ xs, x.isNaN = false))

def Ascends (xs : List Float) : Prop := xs.Pairwise fun x y => value x ≤ value y

def Descends (xs : List Float) : Prop := xs.Pairwise fun x y => value y ≤ value x

section
variable {x : Float} {xs placed : List Float}

/-! ## Nothing is lost -/

theorem place_perm (x : Float) (placed : List Float) :
    (place x placed).Perm (x :: placed) := by
  induction placed with
  | nil => exact .refl _
  | cons y rest ih =>
    rw [place]
    split
    · exact (ih.cons y).trans (.swap x y rest)
    · exact .refl _

theorem foldl_place_perm (xs placed : List Float) :
    (xs.foldl (fun placed x => place x placed) placed).Perm (xs ++ placed) := by
  induction xs generalizing placed with
  | nil => exact .refl _
  | cons x xs ih => exact (ih _).trans (((place_perm x placed).append_left xs).trans
      List.perm_middle)

theorem ascending_perm (xs : List Float) : (ascending xs).Perm xs := by
  have hperm := foldl_place_perm xs []
  rw [List.append_nil] at hperm
  exact (List.reverse_perm _).trans hperm

theorem mem_ascending : x ∈ ascending xs ↔ x ∈ xs :=
  (ascending_perm xs).mem_iff

theorem ascending_ne_nil (h : xs ≠ []) : ascending xs ≠ [] := fun hnil =>
  h (List.nil_perm.mp (hnil ▸ ascending_perm xs))

/-! ## The order -/

theorem Numbers.of_perm {ys : List Float} (h : Numbers xs) (hperm : ys.Perm xs) : Numbers ys :=
  fun x hx => h x (hperm.mem_iff.mp hx)

theorem place_descends (hx : x.isNaN = false) (hnumbers : Numbers placed)
    (h : Descends placed) : Descends (place x placed) := by
  induction placed with
  | nil => exact List.pairwise_singleton _ _
  | cons y rest ih =>
    obtain ⟨hy, hrest⟩ := List.forall_mem_cons.mp hnumbers
    obtain ⟨hhead, htail⟩ := List.pairwise_cons.mp h
    have hiff := lt_iff_value hx hy
    rw [place]
    split
    next hlt =>
      refine List.pairwise_cons.mpr ⟨fun z hz => ?_, ih hrest htail⟩
      rcases List.mem_cons.mp ((place_perm x rest).mem_iff.mp hz) with rfl | hz
      · exact (hiff.mp hlt).le
      · exact hhead z hz
    next hge =>
      have hle := not_lt.mp (hge ∘ hiff.mpr)
      refine List.pairwise_cons.mpr ⟨fun z hz => ?_, h⟩
      rcases List.mem_cons.mp hz with rfl | hz
      · exact hle
      · exact (hhead z hz).trans hle

theorem foldl_place_descends (hxs : Numbers xs) (hplaced : Numbers placed)
    (h : Descends placed) : Descends (xs.foldl (fun placed x => place x placed) placed) := by
  induction xs generalizing placed with
  | nil => exact h
  | cons x xs ih =>
    obtain ⟨hx, hrest⟩ := List.forall_mem_cons.mp hxs
    have hnumbers : Numbers (place x placed) :=
      Numbers.of_perm (List.forall_mem_cons.mpr ⟨hx, hplaced⟩) (place_perm x placed)
    exact ih hrest hnumbers (place_descends hx hplaced h)

theorem ascending_ascends (h : Numbers xs) : Ascends (ascending xs) :=
  List.pairwise_reverse.mpr (foldl_place_descends h (List.forall_mem_nil _) .nil)

/-! ## The ends of the order -/

theorem Ascends.head_le {least : Float} {rest : List Float} (h : Ascends (least :: rest)) :
    ∀ x ∈ least :: rest, value least ≤ value x :=
  List.forall_mem_cons.mpr ⟨le_rfl, (List.pairwise_cons.mp h).1⟩

theorem Ascends.le_last (h : Ascends xs) (hne : xs ≠ []) :
    ∀ x ∈ xs, value x ≤ value (xs.getLast hne) := fun _ hx =>
  have : Std.Refl fun x y : Float => value x ≤ value y := ⟨fun _ => le_rfl⟩
  List.Pairwise.rel_getLast h hx

end

end PerfGate.Statistics
