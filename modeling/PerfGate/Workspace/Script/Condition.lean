import PerfGate.Workspace.Script.Sum

/-!
# Conditions

A condition is a row of words: operands, and operators with one operand or two, joined by
conjunctions and disjunctions. A word that could be an operator is an operand where the words
after it leave no other reading.
-/

set_option autoImplicit false

namespace PerfGate.Script.Condition

inductive Kind where
  | unary
  | binary
  | negation
  | conjunction
  | disjunction
  | opening
  | closing
  deriving DecidableEq, Repr

def kind? (s : Octets) : Option Kind :=
  if s ∈ ["-r", "-w", "-x", "-e", "-f", "-d", "-c", "-b", "-p", "-u", "-g", "-k", "-s", "-t",
      "-z", "-n", "-h", "-L", "-O", "-G", "-S"] then some .unary
  else if s ∈ ["=", "!=", "<", ">", "-eq", "-ne", "-ge", "-gt", "-le", "-lt", "-nt", "-ot",
      "-ef"] then some .binary
  else if s = "!" then some .negation
  else if s = "-a" then some .conjunction
  else if s = "-o" then some .disjunction
  else if s = "(" then some .opening
  else if s = ")" then some .closing
  else none

/-- Whether a word before these can only be an operand. -/
def isOperand : List Octets → Bool
  | [] => true
  | [_] => false
  | s :: _ => kind? s = some .binary

/-- The operator at the front, if there is one. -/
def operator? : List Octets → Option Kind
  | [] => none
  | s :: rest =>
    match kind? s with
    | some .unary => if isOperand rest then none else some .unary
    | some .opening => if rest.isEmpty then none else some .opening
    | k => k

def fault {α : Type} (word message : Octets) : Act α :=
  Act.fail (if word.isEmpty then message else word ++ ": " ++ message)

/-! ## Operators -/

def decimal? (text : Octets) : Option Int :=
  let cs := text.toList.dropWhile Octets.isBlank
  let (negative, digits) := match cs with
    | '-' :: rest => (true, rest)
    | '+' :: rest => (false, rest)
    | _ => (false, cs)
  let number := digits.takeWhile Char.isDigit
  let value := Sum.valueIn 10 number
  if number.isEmpty ∨ ¬ (digits.drop number.length).all Octets.isBlank then none
  else if clamped64 value ≠ value then none
  else some (if negative then -value else value)

def number (text : Octets) : Act Int :=
  match decimal? text with
  | some n => pure n
  | none => Act.fail ("Illegal number: " ++ text)

def entry? (p : Process) (path : Octets) : Option Entry :=
  match p.tree.find p.home path with
  | .ok node => some (p.tree.entry node)
  | .error _ => none

def isLink (p : Process) (path : Octets) : Bool :=
  match p.tree.findSelf p.home path with
  | .ok node =>
    match p.tree.entry node with
    | .link _ => true
    | _ => false
  | .error _ => false

def isExecutable : Entry → Bool
  | .directory .. => true
  | .file _ executable => executable
  | .program _ => true
  | _ => false

def isFile : Entry → Bool
  | .file .. => true
  | .program _ => true
  | _ => false

def isDirectory : Entry → Bool
  | .directory .. => true
  | _ => false

def isDevice : Entry → Bool
  | .device _ => true
  | _ => false

def isEmpty : Entry → Bool
  | .file text _ => text.isEmpty
  | .device _ => true
  | _ => false

def holds (p : Process) (operator path : Octets) : Bool :=
  if operator = "-h" ∨ operator = "-L" then isLink p path
  else
    match entry? p path with
    | none => false
    | some e =>
      match operator with
      | "-e" | "-r" | "-w" | "-O" | "-G" => true
      | "-x" => isExecutable e
      | "-f" => isFile e
      | "-d" => isDirectory e
      | "-c" => isDevice e
      | "-s" => ¬ isEmpty e
      | _ => false

def unary (operator operand : Octets) : Act Bool :=
  match operator with
  | "-z" => pure operand.isEmpty
  | "-n" => pure (¬ operand.isEmpty)
  | "-t" => do
    discard (number operand)
    return false
  | _ => do return holds (← get).process operator operand

def sameNode (p : Process) (a b : Octets) : Bool :=
  match p.tree.find p.home a, p.tree.find p.home b with
  | .ok m, .ok n => m = n
  | _, _ => false

def compared (r : Int → Int → Bool) (a b : Octets) : Act Bool := do
  return r (← number a) (← number b)

def binary (operator a b : Octets) : Act Bool :=
  match operator with
  | "=" => pure (a = b)
  | "!=" => pure (a ≠ b)
  | "<" => pure (a < b)
  | ">" => pure (b < a)
  | "-eq" => compared (fun m n => m = n) a b
  | "-ne" => compared (fun m n => m ≠ n) a b
  | "-ge" => compared (fun m n => m ≥ n) a b
  | "-gt" => compared (fun m n => m > n) a b
  | "-le" => compared (fun m n => m ≤ n) a b
  | "-lt" => compared (fun m n => m < n) a b
  | "-ef" => do return sameNode (← get).process a b
  | _ => pure false

/-! ## Conditions -/

/-- What a condition comes to, and the words from the last one that it took on. -/
abbrev Reached := Bool × List Octets

mutual

def primary : Nat → List Octets → Act Reached
  | 0, _ => fault "" "closing paren expected"
  | _, [] => pure (false, [])
  | fuel + 1, s :: rest =>
    match operator? (s :: rest) with
    | some .opening =>
      if operator? rest = some .closing then pure (false, rest)
      else do
        let (b, last) ← disjunction fuel rest
        if operator? (last.drop 1) = some .closing then return (b, last.drop 1)
        else fault "" "closing paren expected"
    | some .unary =>
      match rest with
      | [] => fault s "argument expected"
      | operand :: _ => do return (← unary s operand, rest)
    | _ =>
      match operator? rest, rest with
      | some .binary, o :: b :: more => do return (← binary o s b, b :: more)
      | some .binary, [o] => fault o "argument expected"
      | _, _ => pure (¬ s.isEmpty, s :: rest)

def negation : Nat → List Octets → Act Reached
  | 0, _ => fault "" "closing paren expected"
  | fuel + 1, ts =>
    match operator? ts with
    | some .negation =>
      if (ts.drop 1).isEmpty then pure (true, ts)
      else do
        let (b, last) ← negation fuel (ts.drop 1)
        return (!b, last)
    | _ => primary fuel ts

def conjunction : Nat → List Octets → Act Reached
  | 0, _ => fault "" "closing paren expected"
  | fuel + 1, ts => do
    let (a, last) ← negation fuel ts
    if operator? (last.drop 1) = some .conjunction then
      let (b, last) ← conjunction fuel (last.drop 2)
      return (a && b, last)
    else return (a, last)

def disjunction : Nat → List Octets → Act Reached
  | 0, _ => fault "" "closing paren expected"
  | fuel + 1, ts => do
    let (a, last) ← conjunction fuel ts
    if operator? (last.drop 1) = some .disjunction then
      let (b, last) ← disjunction fuel (last.drop 2)
      return (a || b, last)
    else return (a, last)

end

def complete (ts : List Octets) (reached : Reached) : Act Bool :=
  match reached.2 with
  | s :: _ :: _ => if ts.isEmpty then pure reached.1 else fault s "unexpected operator"
  | _ => pure reached.1

/-- Whether a row of words holds. Two words after a negation, and what stands between the only
two parentheses, are conditions of their own; three words around an operator are just that. -/
def evaluate : Nat → List Octets → Act Bool
  | 0, _ => return false
  | _, [] => return false
  | fuel + 1, ts => do
    let all : Act Bool := do complete ts (← disjunction (8 * ts.length + 8) ts)
    match ts with
    | [a, o, b] =>
      if kind? o = some .binary then binary o a b
      else if a = "(" ∧ b = ")" then plainly [o]
      else if a = "!" then return ! (← evaluate fuel [o, b])
      else all
    | [a, b, c, d] =>
      if a = "(" ∧ d = ")" then plainly [b, c]
      else if a = "!" then return ! (← evaluate fuel [b, c, d])
      else all
    | _ => all
where
  plainly (ts : List Octets) : Act Bool := do
    complete ts (← disjunction (8 * ts.length + 8) ts)

end PerfGate.Script.Condition
