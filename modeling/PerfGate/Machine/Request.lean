import PerfGate.Calendar
import PerfGate.Notice

/-!
# Requests to the machine

All that a command can ask of the machine it runs on, and what each request is answered with.
Nothing else that a command does can be seen from outside.
-/

set_option autoImplicit false

namespace PerfGate

inductive Exit where
  | status (code : Nat)
  | signal (number : Nat)
  deriving DecidableEq, Repr

structure Execution where
  exit : Exit
  /-- What the program wrote to its error stream. -/
  complaint : String
  milliseconds : Float

inductive Request where
  | read (path : String)
  | present (path : String)
  /-- Makes a directory and all that are missing above it. -/
  | makeDirectory (path : String)
  /-- Replaces the content of a file or makes a new one. -/
  | write (path text : String)
  /-- Starts a program and waits for its end. -/
  | execute (program : String) (arguments : List String)
  | now
  | word
  | say (notice : Notice)

def Request.Answer : Request → Type
  | .read _ => Except FileFault String
  | .present _ => Bool
  | .makeDirectory _ => Except FileFault Unit
  | .write _ _ => Except FileFault Unit
  | .execute _ _ => Except FileFault Execution
  | .now => Instant
  | .word => UInt64
  | .say _ => Unit

/-! ## Texts of exits -/

def signalNames : List (Nat × String) := [
  (1, "SIGHUP"), (2, "SIGINT"), (3, "SIGQUIT"), (4, "SIGILL"), (5, "SIGTRAP"), (6, "SIGABRT"),
  (7, "SIGBUS"), (8, "SIGFPE"), (9, "SIGKILL"), (10, "SIGUSR1"), (11, "SIGSEGV"),
  (12, "SIGUSR2"), (13, "SIGPIPE"), (14, "SIGALRM"), (15, "SIGTERM"), (16, "SIGSTKFLT"),
  (17, "SIGCHLD"), (18, "SIGCONT"), (19, "SIGSTOP"), (20, "SIGTSTP"), (21, "SIGTTIN"),
  (22, "SIGTTOU"), (23, "SIGURG"), (24, "SIGXCPU"), (25, "SIGXFSZ"), (26, "SIGVTALRM"),
  (27, "SIGPROF"), (28, "SIGWINCH"), (29, "SIGIO"), (30, "SIGPWR"), (31, "SIGSYS")]

def Exit.text : Exit → String
  | .status code => "exit status: " ++ toString code
  | .signal number =>
    "signal: " ++ toString number ++
      match signalNames.lookup number with
      | some name => " (" ++ name ++ ")"
      | none => ""

end PerfGate
