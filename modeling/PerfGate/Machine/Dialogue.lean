import PerfGate.Machine.Request

/-!
# Dialogues

A command is a dialogue: it either ends with a value or makes a request and goes on with the
answer. The same dialogue is performed on the machine at hand or run on one that is a state
with a function; in the second case the requests made are a list.
-/

set_option autoImplicit false

namespace PerfGate

inductive Dialogue (α : Type) : Type where
  | done (a : α)
  | ask (request : Request) (next : request.Answer → Dialogue α)

structure Machine (σ : Type) where
  answer : (request : Request) → σ → request.Answer × σ

namespace Dialogue

variable {α β σ : Type}

def bind (f : α → Dialogue β) : Dialogue α → Dialogue β
  | done a => f a
  | ask request next => ask request fun answer => (next answer).bind f

instance : Monad Dialogue where
  pure := done
  bind d f := d.bind f

def request (r : Request) : Dialogue r.Answer :=
  ask r done

def perform {m : Type → Type} [Monad m] (host : (r : Request) → m r.Answer) :
    Dialogue α → m α
  | done a => Pure.pure a
  | ask r next => do
    let answer ← host r
    (next answer).perform host

def run (machine : Machine σ) : Dialogue α → σ → α × σ
  | done a, s => (a, s)
  | ask r next, s =>
    let (answer, s) := machine.answer r s
    (next answer).run machine s

def requests (machine : Machine σ) : Dialogue α → σ → List Request
  | done _, _ => []
  | ask r next, s =>
    let (answer, s) := machine.answer r s
    r :: (next answer).requests machine s

/-! ## Laws -/

@[simp] theorem bind_done (a : α) (f : α → Dialogue β) : (done a).bind f = f a := rfl

@[simp] theorem bind_ask (r : Request) (next : r.Answer → Dialogue α) (f : α → Dialogue β) :
    (ask r next).bind f = ask r fun answer => (next answer).bind f := rfl

theorem bind_pure (d : Dialogue α) : d.bind done = d := by
  induction d with
  | done a => rfl
  | ask r next ih => simp [ih]

theorem bind_assoc {γ : Type} (d : Dialogue α) (f : α → Dialogue β) (g : β → Dialogue γ) :
    (d.bind f).bind g = d.bind fun a => (f a).bind g := by
  induction d with
  | done a => rfl
  | ask r next ih => simp [ih]

instance : LawfulMonad Dialogue :=
  LawfulMonad.mk' Dialogue (fun d => bind_pure d) (fun _ _ => rfl) fun d f g => bind_assoc d f g

theorem run_bind (machine : Machine σ) (d : Dialogue α) (f : α → Dialogue β) (s : σ) :
    (d.bind f).run machine s = (f (d.run machine s).1).run machine (d.run machine s).2 := by
  induction d generalizing s with
  | done a => rfl
  | ask r next ih => simp [run, ih]

theorem requests_bind (machine : Machine σ) (d : Dialogue α) (f : α → Dialogue β) (s : σ) :
    (d.bind f).requests machine s =
      d.requests machine s ++ (f (d.run machine s).1).requests machine (d.run machine s).2 := by
  induction d generalizing s with
  | done a => rfl
  | ask r next ih => simp [run, requests, ih]

end Dialogue

end PerfGate
