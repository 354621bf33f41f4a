import PerfGate.Machine.Dialogue
import Mathlib.Tactic

/-!
# The conduct of dialogues

`Ensures` bounds what a dialogue can ask and give whatever it is answered. `Takes` is one run
of a dialogue that can fail: from a state to its result, the requests made on the way and the
state it ends in. A run of a sequence is made of the runs of its parts, up to the first that
fails.
-/

set_option autoImplicit false

namespace PerfGate.Dialogue

/-! ## Whatever the answers -/

section
variable {α β σ : Type} {P : Request → Prop} {Q : α → Prop} {R : β → Prop}

/-- Every request satisfies `P` and every value `Q`. -/
def Ensures (P : Request → Prop) (Q : α → Prop) : Dialogue α → Prop
  | done a => Q a
  | ask request next => P request ∧ ∀ answer, (next answer).Ensures P Q

theorem Ensures.bind {d : Dialogue α} {f : α → Dialogue β} (hd : d.Ensures P Q)
    (hf : ∀ a, Q a → (f a).Ensures P R) : (d.bind f).Ensures P R := by
  induction d with
  | done a => exact hf a hd
  | ask request next ih => exact ⟨hd.1, fun answer => ih answer (hd.2 answer)⟩

theorem Ensures.run {d : Dialogue α} (hd : d.Ensures P Q) (machine : Machine σ) (s : σ) :
    Q (d.run machine s).1 := by
  induction d generalizing s with
  | done a => exact hd
  | ask request next ih => exact ih _ (hd.2 _) _

theorem Ensures.requests {d : Dialogue α} (hd : d.Ensures P Q) (machine : Machine σ) (s : σ) :
    ∀ request ∈ d.requests machine s, P request := by
  induction d generalizing s with
  | done a => simp [Dialogue.requests]
  | ask request next ih =>
    intro r hr
    rcases List.mem_cons.mp hr with rfl | hr
    · exact hd.1
    · exact ih _ (hd.2 _) _ r hr

theorem ensures_request {request : Request} (h : P request) :
    (Dialogue.request request).Ensures P (fun _ => True) :=
  ⟨h, fun _ => trivial⟩

end

/-! ## One run -/

section
variable {α β σ : Type} {machine : Machine σ}

structure Plays (machine : Machine σ) (d : Dialogue α) (s : σ) (a : α) (asked : List Request)
    (t : σ) : Prop where
  run : d.run machine s = (a, t)
  requests : d.requests machine s = asked

theorem plays_pure (machine : Machine σ) (a : α) (s : σ) : Plays machine (Pure.pure a) s a [] s :=
  ⟨rfl, rfl⟩

theorem plays_request (machine : Machine σ) (r : Request) (s : σ) :
    Plays machine (request r) s (machine.answer r s).1 [r] (machine.answer r s).2 :=
  ⟨rfl, rfl⟩

theorem Plays.bind {d : Dialogue α} {f : α → Dialogue β} {s t u : σ} {a : α} {b : β}
    {asked others : List Request} (first : Plays machine d s a asked t)
    (after : Plays machine (f a) t b others u) :
    Plays machine (d >>= f) s b (asked ++ others) u := by
  have hrun := run_bind machine d f s
  have hrequests := requests_bind machine d f s
  rw [first.run] at hrun hrequests
  rw [first.requests] at hrequests
  exact ⟨hrun.trans after.run, hrequests.trans (congrArg (asked ++ ·) after.requests)⟩

end

/-! ## Dialogues that can fail -/

section
variable {α β ε σ : Type} {P : Request → Prop}

def Obeys (P : Request → Prop) (Q : α → Prop) (d : ExceptT ε Dialogue α) : Prop :=
  d.run.Ensures P (fun result => ∀ a, result = .ok a → Q a)

theorem Obeys.bind {Q : α → Prop} {R : β → Prop} {d : ExceptT ε Dialogue α}
    {f : α → ExceptT ε Dialogue β} (hd : Obeys P Q d) (hf : ∀ a, Q a → Obeys P R (f a)) :
    Obeys P R (d >>= f) := by
  apply Ensures.bind hd
  intro result hresult
  cases result with
  | ok a => exact hf a (hresult a rfl)
  | error cause => exact fun b hb => nomatch hb

theorem Obeys.pure {Q : α → Prop} {a : α} (h : Q a) :
    Obeys P Q (Pure.pure a : ExceptT ε Dialogue α) := by
  intro b hb
  cases hb
  exact h

theorem obeys_of_except {Q : α → Prop} {result : Except ε α} (h : ∀ a, result = .ok a → Q a) :
    Obeys P Q (ExceptT.mk (Pure.pure result) : ExceptT ε Dialogue α) := h

theorem obeys_lift {Q : α → Prop} {d : Dialogue α} (h : d.Ensures P Q) :
    Obeys P Q (ExceptT.lift d : ExceptT ε Dialogue α) :=
  Ensures.bind h fun _ ha _ hb => by cases hb; exact ha

structure Takes (machine : Machine σ) (d : ExceptT ε Dialogue α) (s : σ) (result : Except ε α)
    (asked : List Request) (t : σ) : Prop where
  run : d.run.run machine s = (result, t)
  requests : d.run.requests machine s = asked

theorem takes_run (machine : Machine σ) (d : ExceptT ε Dialogue α) (s : σ) :
    Takes machine d s (d.run.run machine s).1 (d.run.requests machine s)
      (d.run.run machine s).2 :=
  ⟨rfl, rfl⟩

theorem Takes.unique {machine : Machine σ} {d : ExceptT ε Dialogue α} {s t t' : σ}
    {result result' : Except ε α} {asked asked' : List Request}
    (h : Takes machine d s result asked t) (h' : Takes machine d s result' asked' t') :
    result = result' ∧ asked = asked' ∧ t = t' := by
  have hrun := Prod.mk.inj (h.run.symm.trans h'.run)
  exact ⟨hrun.1, h.requests.symm.trans h'.requests, hrun.2⟩

theorem takes_pure (machine : Machine σ) (a : α) (s : σ) :
    Takes machine (Pure.pure a : ExceptT ε Dialogue α) s (.ok a) [] s :=
  ⟨rfl, rfl⟩

theorem takes_except (machine : Machine σ) {given result : Except ε α} (h : given = result)
    (s : σ) :
    Takes machine (ExceptT.mk (Pure.pure given) : ExceptT ε Dialogue α) s result [] s := by
  subst h
  exact ⟨rfl, rfl⟩

theorem takes_lift {machine : Machine σ} {d : Dialogue α} {s t : σ} {a : α}
    {asked : List Request} (h : Plays machine d s a asked t) :
    Takes machine (ExceptT.lift d : ExceptT ε Dialogue α) s (.ok a) asked t := by
  have hlift := h.bind (f := fun a => Pure.pure (Except.ok (ε := ε) a)) (plays_pure machine _ t)
  rw [List.append_nil] at hlift
  exact ⟨hlift.run, hlift.requests⟩

theorem takes_request (machine : Machine σ) (r : Request) (s : σ) :
    Takes machine (ExceptT.lift (request r) : ExceptT ε Dialogue r.Answer) s
      (.ok (machine.answer r s).1) [r] (machine.answer r s).2 :=
  ⟨rfl, rfl⟩

theorem Takes.asking {machine : Machine σ} {d : ExceptT ε Dialogue α} {s t : σ}
    {result : Except ε α} {asked others : List Request} (h : Takes machine d s result asked t)
    (heq : asked = others) : Takes machine d s result others t :=
  heq ▸ h

theorem Takes.bind_ok {machine : Machine σ} {d : ExceptT ε Dialogue α}
    {f : α → ExceptT ε Dialogue β} {s t u : σ} {a : α} {asked others : List Request}
    {result : Except ε β} (first : Takes machine d s (.ok a) asked t)
    (after : Takes machine (f a) t result others u) :
    Takes machine (d >>= f) s result (asked ++ others) u := by
  have hrun := run_bind machine d.run (ExceptT.bindCont f) s
  have hrequests := requests_bind machine d.run (ExceptT.bindCont f) s
  rw [first.run] at hrun hrequests
  rw [first.requests] at hrequests
  exact ⟨hrun.trans after.run, hrequests.trans (congrArg (asked ++ ·) after.requests)⟩

theorem Takes.bind_error {machine : Machine σ} {d : ExceptT ε Dialogue α}
    {f : α → ExceptT ε Dialogue β} {s t : σ} {cause : ε} {asked : List Request}
    (first : Takes machine d s (.error cause) asked t) :
    Takes machine (d >>= f) s (.error cause) asked t := by
  have hrun := run_bind machine d.run (ExceptT.bindCont f) s
  have hrequests := requests_bind machine d.run (ExceptT.bindCont f) s
  rw [first.run] at hrun hrequests
  rw [first.requests] at hrequests
  exact ⟨hrun, hrequests.trans (List.append_nil asked)⟩

/-- A sequence that gives a value is made of parts that give one. -/
theorem Takes.parts {machine : Machine σ} {d : ExceptT ε Dialogue α}
    {f : α → ExceptT ε Dialogue β} {s u : σ} {b : β} {asked : List Request}
    (h : Takes machine (d >>= f) s (.ok b) asked u) :
    ∃ a first later t, Takes machine d s (.ok a) first t ∧ Takes machine (f a) t (.ok b) later u ∧
      asked = first ++ later := by
  have hd := takes_run machine d s
  cases hresult : (d.run.run machine s).1 with
  | error cause =>
    rw [hresult] at hd
    exact nomatch (h.unique (hd.bind_error (f := f))).1
  | ok a =>
    rw [hresult] at hd
    have hf := takes_run machine (f a) (d.run.run machine s).2
    obtain ⟨hb, hasked, hu⟩ := h.unique (hd.bind_ok hf)
    rw [← hb, ← hu] at hf
    exact ⟨a, _, _, _, hd, hf, hasked⟩

end

end PerfGate.Dialogue
