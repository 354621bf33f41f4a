import PerfGate.Commands.Check
import PerfGate.Proofs.Machine.Conduct

/-!
# The end of the check

Once everything has been measured, the results are written and the assessment is told. If the
directory cannot be made or the file cannot be written, the check fails and tells nothing.
-/

set_option autoImplicit false

namespace PerfGate.Finishing

open Dialogue

def Saves {σ : Type} (machine : Machine σ) : Prop :=
  ∀ path text state,
    ((machine.answer (.makeDirectory path) state).1 : Except FileFault Unit) = .ok () ∧
    ((machine.answer (.write path text) state).1 : Except FileFault Unit) = .ok ()

def resultsOf (started : Instant) (measured : List (Summary × Comparison)) : ResultsFile :=
  .new started (measured.map (·.1))

def assessmentOf (s : CheckSettings) (measured : List (Summary × Comparison)) : Assessment :=
  ⟨measured.map (·.2), s.threshold⟩

def saving (s : CheckSettings) (file : ResultsFile) : List Request :=
  [.makeDirectory s.results, .write (Path.joined s.results file.fileName) file.json]

def telling (s : CheckSettings) (file : ResultsFile) (a : Assessment) : List Request :=
  [.say (.resultsSaved (Path.joined s.results file.fileName)), .say (.assessed a)]

section
variable {σ : Type} {machine : Machine σ} {state : σ}

theorem makeDirectory_takes {path : String} {answer : Except FileFault Unit}
    (h : (machine.answer (.makeDirectory path) state).1 = answer) :
    Takes machine (Document.makeDirectory path) state (Document.named path answer)
      [.makeDirectory path] (machine.answer (.makeDirectory path) state).2 := by
  subst h
  exact ⟨rfl, rfl⟩

theorem write_takes {path text : String} {answer : Except FileFault Unit}
    (h : (machine.answer (.write path text) state).1 = answer) :
    Takes machine (Document.write path text) state (Document.named path answer)
      [.write path text] (machine.answer (.write path text) state).2 := by
  subst h
  exact ⟨rfl, rfl⟩

variable (s : CheckSettings)

theorem saveResults_cases (machine : Machine σ) (file : ResultsFile) (state : σ) :
    (∃ next, Takes machine (s.saveResults file) state
      (.ok (Path.joined s.results file.fileName)) (saving s file) next) ∨
    ¬ Saves machine ∧ ∃ cause asked next,
      Takes machine (s.saveResults file) state (.error cause) asked next ∧
        asked <+: saving s file := by
  rcases hmade : ((machine.answer (.makeDirectory s.results) state).1 : Except FileFault Unit)
    with cause | made
  · refine .inr ⟨fun h => ?_, _, _, _, (makeDirectory_takes hmade).bind_error, _, rfl⟩
    exact nomatch hmade.symm.trans (h s.results "" state).1
  rcases hwritten : ((machine.answer (.write (Path.joined s.results file.fileName) file.json)
    (machine.answer (.makeDirectory s.results) state).2).1 : Except FileFault Unit)
    with cause | written
  · refine .inr ⟨fun h => ?_, _, _, _,
      (makeDirectory_takes hmade).bind_ok (write_takes hwritten).bind_error, List.prefix_rfl⟩
    exact nomatch hwritten.symm.trans (h _ _ _).2
  · exact .inl ⟨_, (makeDirectory_takes hmade).bind_ok
      ((write_takes hwritten).bind_ok (takes_pure machine _ _))⟩

/-- The check saves its results, tells its assessment and gives the status of it, or it fails
while it saves. -/
theorem finish_cases (machine : Machine σ) (started : Instant)
    (measured : List (Summary × Comparison)) (state : σ) :
    (∃ next, Takes machine (s.finish started measured) state
      (.ok (assessmentOf s measured).exitCode)
      (saving s (resultsOf started measured) ++
        telling s (resultsOf started measured) (assessmentOf s measured)) next) ∨
    ¬ Saves machine ∧ ∃ cause asked next,
      Takes machine (s.finish started measured) state (.error cause) asked next ∧
        asked <+: saving s (resultsOf started measured) := by
  rcases saveResults_cases s machine (resultsOf started measured) state with
    ⟨saved, hsave⟩ | ⟨hnever, cause, asked, next, hsave, hprefix⟩
  · exact .inl ⟨_, hsave.bind_ok ((takes_request machine _ saved).bind_ok
      ((takes_request machine _ _).bind_ok (takes_pure machine _ _)))⟩
  · exact .inr ⟨hnever, cause, asked, next, hsave.bind_error, hprefix⟩

end

end PerfGate.Finishing
