import PerfGate.Proofs.Commands.Finishing

/-!
# Reading and saving documents

A document is read with one request and decoded. To save one, the directory in front of it is
made, if the path has one, and then the file is written.
-/

set_option autoImplicit false

namespace PerfGate.Saving

open Dialogue Finishing

/-! ## Reading -/

section
variable {σ : Type}

def contentOf (machine : Machine σ) (path : String) (state : σ) : Except FileFault String :=
  (machine.answer (.read path) state).1

def afterReading (machine : Machine σ) (path : String) (state : σ) : σ :=
  (machine.answer (.read path) state).2

variable {α : Type} {path : String} {decode : String → Except Json.Fault α}
  {content : Except FileFault String}

theorem decoded_eq_ok_iff {a : α} :
    Document.decoded path decode content = .ok a ↔
      ∃ text, content = .ok text ∧ decode text = .ok a := by
  cases content with
  | error cause => simp [Document.decoded]
  | ok text => cases h : decode text <;> simp [Document.decoded, h]

theorem load_takes (machine : Machine σ) (path : String)
    (decode : String → Except Json.Fault α) (state : σ) :
    Takes machine (Document.load path decode) state
      (Document.decoded path decode (contentOf machine path state)) [.read path]
      (afterReading machine path state) :=
  ⟨rfl, rfl⟩

end

/-! ## Telling -/

section
variable {ε σ : Type} (machine : Machine σ)

theorem say_takes (notice : Notice) (state : σ) :
    ∃ next, Takes machine (ExceptT.lift (say notice) : ExceptT ε Dialogue Unit) state (.ok ())
      [.say notice] next :=
  ⟨_, takes_request machine (.say notice) state⟩

theorem now_takes (state : σ) :
    ∃ (now : Instant) (next : σ), Takes machine
      (ExceptT.lift (request .now) : ExceptT ε Dialogue Instant) state (.ok now) [.now] next :=
  ⟨_, _, takes_request machine .now state⟩

end

/-! ## Saving -/

/-- The directory in front of a path. A bare name has none, and neither has the root. -/
def directory? (path : String) : Option String :=
  (Path.parent? path).filter (· ≠ "")

def stored (path text : String) : List Request :=
  (directory? path).toList.map .makeDirectory ++ [.write path text]

theorem mem_stored {path text : String} {r : Request} (h : r ∈ stored path text) :
    (∃ directory, r = .makeDirectory directory) ∨ r = .write path text := by
  simp only [stored, List.mem_append, List.mem_map, List.mem_singleton] at h
  rcases h with ⟨directory, _, rfl⟩ | rfl
  · exact .inl ⟨directory, rfl⟩
  · exact .inr rfl

theorem save_eq (path text : String) :
    Document.save path text = (do
      match directory? path with
      | some directory => Document.makeDirectory directory
      | none => pure ()
      Document.write path text) := by
  rw [Document.save, directory?]
  cases Path.parent? path with
  | none => rfl
  | some directory =>
    by_cases h : directory = ""
    · subst h
      rfl
    · simp [Option.filter, h]

theorem save_takes {σ : Type} {machine : Machine σ} (hsaves : Saves machine)
    (path text : String) (state : σ) :
    ∃ next, Takes machine (Document.save path text) state (.ok ()) (stored path text) next := by
  rw [save_eq, stored]
  cases directory? path with
  | none => exact ⟨_, write_takes (hsaves path text state).2⟩
  | some directory =>
    have hmade := makeDirectory_takes (hsaves directory text state).1
    exact ⟨_, hmade.bind_ok (write_takes (hsaves path text _).2)⟩

/-! ## A machine that saves -/

/-- A machine that saves all that it is given. Its files hold one text, and its state tells what
comes of an execution. -/
def obliging {σ : Type} (content : String) (execution : σ → Execution × σ) : Machine σ where
  answer
    | .read _, state => (.ok content, state)
    | .present _, state => (false, state)
    | .makeDirectory _, state => (.ok (), state)
    | .write _ _, state => (.ok (), state)
    | .execute _ _, state => (.ok (execution state).1, (execution state).2)
    | .now, state => (⟨0, 0⟩, state)
    | .word, state => ((0 : UInt64), state)
    | .say _, state => ((), state)

theorem obliging_saves {σ : Type} (content : String) (execution : σ → Execution × σ) :
    Saves (obliging content execution) :=
  fun _ _ _ => ⟨rfl, rfl⟩

end PerfGate.Saving
