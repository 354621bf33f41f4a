import Mathlib.Tactic

/-!
# Lists of attempts

Attempts made along a list succeed in every place, or the first one that fails is the outcome
of all.
-/

set_option autoImplicit false

namespace PerfGate.Attempts

theorem map_eq_ok_iff.{u, v, w} {α : Type u} {β : Type v} {ε : Type w} {attempt : Except ε α}
    {f : α → β} {y : β} : attempt.map f = .ok y ↔ ∃ x, attempt = .ok x ∧ f x = y := by
  cases attempt <;> simp [Except.map]

theorem bind_eq_ok_iff.{u, v, w} {α : Type u} {β : Type v} {ε : Type w} {attempt : Except ε α}
    {f : α → Except ε β} {y : β} :
    attempt.bind f = .ok y ↔ ∃ x, attempt = .ok x ∧ f x = .ok y := by
  cases attempt <;> simp [Except.bind]

variable {α β ε : Type} {f : α → Except ε β}

theorem mapM_cons_ok {x : α} {xs : List α} {y : β} {ys : List β} (hx : f x = .ok y)
    (hxs : xs.mapM f = .ok ys) : (x :: xs).mapM f = .ok (y :: ys) := by
  rw [List.mapM_cons, hx, hxs]
  rfl

theorem mapM_cons_error {x : α} {xs : List α} {y : β} {cause : ε} (hx : f x = .ok y)
    (hxs : xs.mapM f = .error cause) : (x :: xs).mapM f = .error cause := by
  rw [List.mapM_cons, hx, hxs]
  rfl

theorem mapM_first_error {x : α} (xs : List α) {cause : ε} (hx : f x = .error cause) :
    (x :: xs).mapM f = .error cause := by
  rw [List.mapM_cons, hx]
  rfl

theorem mapM_of_forall₂ {xs : List α} {ys : List β}
    (h : List.Forall₂ (fun x y => f x = .ok y) xs ys) : xs.mapM f = .ok ys := by
  induction h with
  | nil => rfl
  | cons hx _ ih => exact mapM_cons_ok hx ih

/-- A list of attempts succeeds in every place, or the first that fails is its outcome. -/
theorem mapM_cases (f : α → Except ε β) (xs : List α) :
    (∃ ys, List.Forall₂ (fun x y => f x = .ok y) xs ys ∧ xs.mapM f = .ok ys) ∨
      ∃ before x after cause, xs = before ++ x :: after ∧
        (∀ z ∈ before, ∃ y, f z = .ok y) ∧ f x = .error cause ∧ xs.mapM f = .error cause := by
  induction xs with
  | nil => exact .inl ⟨[], .nil, rfl⟩
  | cons x xs ih =>
    cases hx : f x with
    | error cause => exact .inr ⟨[], x, xs, cause, rfl, by simp, hx, mapM_first_error xs hx⟩
    | ok y =>
      rcases ih with ⟨ys, hys, hm⟩ | ⟨before, z, after, cause, rfl, hbefore, hz, hm⟩
      · exact .inl ⟨y :: ys, .cons hx hys, mapM_cons_ok hx hm⟩
      · refine .inr ⟨x :: before, z, after, cause, rfl, ?_, hz, mapM_cons_error hx hm⟩
        intro w hw
        rcases List.mem_cons.mp hw with rfl | hw
        · exact ⟨y, hx⟩
        · exact hbefore w hw

theorem mapM_eq_ok_iff {xs : List α} {ys : List β} :
    xs.mapM f = .ok ys ↔ List.Forall₂ (fun x y => f x = .ok y) xs ys := by
  refine ⟨fun h => ?_, mapM_of_forall₂⟩
  rcases mapM_cases f xs with ⟨zs, hzs, hm⟩ | ⟨_, _, _, cause, _, _, _, hm⟩
  · obtain rfl : zs = ys := Except.ok.inj (hm.symm.trans h)
    exact hzs
  · exact nomatch hm.symm.trans h

theorem ok_of_mem {xs : List α} {ys : List β}
    (h : List.Forall₂ (fun x y => f x = .ok y) xs ys) {x : α} (hx : x ∈ xs) :
    ∃ y, f x = .ok y := by
  induction h with
  | nil => exact nomatch hx
  | @cons z y _ _ hz _ ih =>
    rcases List.mem_cons.mp hx with rfl | hx
    · exact ⟨y, hz⟩
    · exact ih hx

theorem mapM_error_of_first {before : List α} {x : α} (after : List α) {cause : ε}
    (hbefore : ∀ z ∈ before, ∃ y, f z = .ok y) (hx : f x = .error cause) :
    (before ++ x :: after).mapM f = .error cause := by
  induction before with
  | nil => exact mapM_first_error after hx
  | cons z before ih =>
    obtain ⟨y, hz⟩ := hbefore z List.mem_cons_self
    exact mapM_cons_error hz (ih fun w hw => hbefore w (List.mem_cons_of_mem z hw))

theorem mapM_eq_error_iff {xs : List α} {cause : ε} :
    xs.mapM f = .error cause ↔ ∃ before x after, xs = before ++ x :: after ∧
      (∀ z ∈ before, ∃ y, f z = .ok y) ∧ f x = .error cause := by
  constructor
  · intro h
    rcases mapM_cases f xs with ⟨ys, _, hm⟩ | ⟨before, x, after, cause', hxs, hbefore, hx, hm⟩
    · exact nomatch hm.symm.trans h
    · obtain rfl : cause' = cause := Except.error.inj (hm.symm.trans h)
      exact ⟨before, x, after, hxs, hbefore, hx⟩
  · rintro ⟨before, x, after, rfl, hbefore, hx⟩
    exact mapM_error_of_first after hbefore hx

end PerfGate.Attempts
