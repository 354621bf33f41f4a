import Mathlib.Tactic

/-!
# Stable sorting

Sorting leaves elements that no comparison tells apart in their order. Where any two elements are
told apart, nothing is left of the order that they came in.
-/

set_option autoImplicit false

namespace PerfGate.Sorting

variable {α : Type} {le : α → α → Bool}

/-- The elements of one level stay in their order. -/
theorem filter_mergeSort (trans : ∀ a b c, le a b = true → le b c = true → le a c = true)
    (total : ∀ a b, (le a b || le b a) = true) {p : α → Bool}
    (level : ∀ a b, p a = true → p b = true → le a b = true) (xs : List α) :
    (xs.mergeSort le).filter p = xs.filter p := by
  have hlevel : (xs.filter p).Pairwise (le · ·) :=
    List.pairwise_of_forall_mem_list fun a ha b hb =>
      level a b (List.mem_filter.mp ha).2 (List.mem_filter.mp hb).2
  have hsub := (List.sublist_mergeSort trans total hlevel List.filter_sublist).filter p
  rw [List.filter_filter] at hsub
  simp only [Bool.and_self] at hsub
  exact (hsub.eq_of_length ((List.mergeSort_perm xs le).filter p).length_eq.symm).symm

/-- Elements that are told apart are sorted into one order, whatever order they came in. -/
theorem mergeSort_eq_of_perm (trans : ∀ a b c, le a b = true → le b c = true → le a c = true)
    (total : ∀ a b, (le a b || le b a) = true) {xs ys : List α} (hperm : ys.Perm xs)
    (apart : ∀ a ∈ xs, ∀ b ∈ xs, le a b = true → le b a = true → a = b) :
    ys.mergeSort le = xs.mergeSort le := by
  have hys : (ys.mergeSort le).Perm xs := (List.mergeSort_perm ys le).trans hperm
  have hxs : (xs.mergeSort le).Perm xs := List.mergeSort_perm xs le
  refine List.Perm.eq_of_pairwise ?_ (List.pairwise_mergeSort trans total ys)
    (List.pairwise_mergeSort trans total xs) (hys.trans hxs.symm)
  intro a b ha hb
  exact apart a (hys.mem_iff.mp ha) b (hxs.mem_iff.mp hb)

end PerfGate.Sorting
