/-!
# Texts without control sequences

A text may hold sequences that steer a terminal: an escape with what belongs to it, a
parameterised sequence up to its final letter, or a string up to its end. What is left
without them and without other controls is the plain text. White space stays, also inside a
sequence, which it ends. So does a character beyond ASCII, but inside a sequence its first
byte is lost and each other byte is shown as a replacement.
-/

set_option autoImplicit false

namespace PerfGate.Text

inductive Control where
  | none
  | escape
  /-- An escape that has been led on by a mark. -/
  | marked
  | parameters
  /-- A string that only another escape ends. -/
  | device
  /-- A string that a bell ends as well. -/
  | title
  deriving DecidableEq, Repr

def escapeChar : Char := '\x1b'

/-- The controls that end a sequence without any effect. -/
def isCancel (c : Char) : Bool :=
  c = '\x18' || c = '\x1a'

def isControlSpace (c : Char) : Bool :=
  c = '\t' || c = '\n' || c = '\x0c' || c = '\x0d'

namespace Control

def afterEscape (c : Char) : Control :=
  if c.toNat < 0x20 ∨ c = '\x7f' then .escape
  else if c.toNat < 0x30 then .marked
  else if c = '[' then .parameters
  else if c = ']' then .title
  else if c ∈ ['P', 'X', '^', '_'] then .device
  else .none

def next : Control → Char → Control
  | .none, _ => .none
  | .escape, c => afterEscape c
  | .marked, c => if '0' ≤ c ∧ c ≠ '\x7f' then .none else .marked
  | .parameters, c => if '@' ≤ c ∧ c ≠ '\x7f' then .none else .parameters
  | .device, _ => .device
  | .title, c => if c = '\x07' then .none else .title

def showsSpace : Control → Bool
  | .device => false
  | .title => false
  | _ => true

end Control

def replacement : Char := '\ufffd'

def plainFrom : Control → List Char → List Char
  | _, [] => []
  | control, c :: rest =>
    if c = escapeChar then plainFrom .escape rest
    else if isCancel c then plainFrom .none rest
    else if 128 ≤ c.toNat then
      if control = .none then c :: plainFrom .none rest
      else List.replicate (c.utf8Size - 1) replacement ++ plainFrom .none rest
    else if isControlSpace c ∧ control.showsSpace then c :: plainFrom .none rest
    else if control = .none ∧ ' ' ≤ c ∧ c ≠ '\x7f' then c :: plainFrom .none rest
    else plainFrom (control.next c) rest

def plain (s : String) : String :=
  String.ofList (plainFrom .none s.toList)

/-- A text between a sequence that starts a style and one that ends every style. -/
def styled (s : String) : String :=
  "\x1b[33m" ++ s ++ "\x1b[0m"

end PerfGate.Text
