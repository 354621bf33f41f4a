import PerfGate.Workspace.Regular
import PerfGate.Workspace.Utility.Options

/-!
# Utilities on numbers and names

Series of numbers, expressions over words, waiting, and what a process is told about itself.
-/

set_option autoImplicit false

namespace PerfGate.Utility

/-! ## Series -/

/-- A decimal as an integer and how many of its digits are after the point. -/
def decimal? (s : Octets) : Option (Int × Nat) :=
  let (negative, cs) := match s.toList with
    | '-' :: rest => (true, rest)
    | '+' :: rest => (false, rest)
    | cs => (false, cs)
  let whole := cs.takeWhile Char.isDigit
  let signed (n : Nat) : Int := if negative then -n else n
  match cs.drop whole.length with
  | [] => if whole.isEmpty then none else some (signed (Json.digitsValue whole), 0)
  | '.' :: fraction =>
    if fraction.all Char.isDigit ∧ ¬ (whole.isEmpty ∧ fraction.isEmpty) then
      some (signed (Json.digitsValue (whole ++ fraction)), fraction.length)
    else none
  | _ => none

def scaled (places : Nat) (n : Int × Nat) : Int :=
  n.1 * Int.ofNat (Nat.pow 10 (places - n.2))

def shownDecimal (places : Nat) (n : Int) : Octets :=
  let digits := (toString n.natAbs).toList
  let digits := List.replicate (places + 1 - digits.length) '0' ++ digits
  let whole := digits.take (digits.length - places)
  let text := if places = 0 then whole else whole ++ '.' :: digits.drop (digits.length - places)
  (if n < 0 then "-" else "") ++ String.ofList text

/-- From a number on by steps, as long as the last number is not passed. -/
def series (step last : Int) : Nat → Int → List Int
  | 0, _ => []
  | fuel + 1, n =>
    if (0 < step ∧ last < n) ∨ (step < 0 ∧ n < last) then []
    else n :: series step last fuel (n + step)

def widened (width : Nat) (s : Octets) : Octets :=
  let (sign, digits) := match s.toList with
    | '-' :: rest => (['-'], rest)
    | cs => ([], cs)
  String.ofList (sign ++ List.replicate (width - s.length) '0' ++ digits)

def seqOf (g : Given) (operands : List Octets) : Doing Nat :=
  match operands.find? fun o => (decimal? o).isNone with
  | some wrong => misused ("invalid floating point argument: " ++ quoted wrong) 1
  | none =>
    match operands.filterMap decimal? with
    | [] => misused "missing operand" 1
    | [last] => printed (1, 0) (1, 0) last
    | [first, last] => printed first (1, 0) last
    | [first, step, last] =>
      if step.1 = 0 then
        misused ("invalid Zero increment value: " ++ quoted (operands.getD 1 "")) 1
      else printed first step last
    | _ => misused ("extra operand " ++ quoted (operands.getD 3 "")) 1
where
  printed (first step last : Int × Nat) : Doing Nat := do
    let shownPlaces := max first.2 step.2
    let places := max shownPlaces last.2
    let start := scaled places first
    let stride := scaled places step
    let goal := scaled places last
    let numbers := series stride goal ((goal - start).natAbs / max 1 stride.natAbs + 2) start
    let drop (n : Int) : Int := n.tdiv (Int.ofNat (Nat.pow 10 (places - shownPlaces)))
    let texts := numbers.map fun n => shownDecimal shownPlaces (drop n)
    let texts := if g.has 'w' then
        let width := texts.foldl (fun n s => max n s.length) 0
        texts.map (widened width)
      else texts
    let separator := (g.last? 's').getD "\n"
    if texts.isEmpty then return 0
    else output (separator.intercalate texts ++ "\n")

/-- The options at the front, and the words from the first number on. -/
def beforeNumbers : Nat → List Octets → List Octets × List Octets
  | 0, words => ([], words)
  | _, [] => ([], [])
  | fuel + 1, word :: rest =>
    if (decimal? word).isSome ∨ word.toList.head? ≠ some '-' then ([], word :: rest)
    else
      let taken := if word = "-s" ∨ word = "-f" then 1 else 0
      let (options, operands) := beforeNumbers fuel (rest.drop taken)
      (word :: rest.take taken ++ options, operands)

/-- A number below zero is no option. -/
def seq : Tool := fun words =>
  let (options, operands) := beforeNumbers (words.length + 1) words
  utility ⟨"f:s:w", [("separator", 's'), ("equal-width", 'w')], 1, false⟩
    (fun g => seqOf g (g.operands ++ operands)) options

/-! ## Expressions over words -/

def integer? (s : Octets) : Option Int :=
  match s.toList with
  | '-' :: rest => (natural? (String.ofList rest)).map fun n => -(n : Int)
  | _ => (natural? s).map fun n => (n : Int)

inductive ExprFault where
  | missing (after : Octets)
  | unexpected (word : Octets)
  | expectingClose (after : Octets)
  | notInteger
  | zeroDivision

def ExprFault.message : ExprFault → Octets
  | .missing after => "syntax error: missing argument after " ++ quoted after
  | .unexpected word => "syntax error: unexpected argument " ++ quoted word
  | .expectingClose after => "syntax error: expecting ')' after " ++ quoted after
  | .notInteger => "non-integer argument"
  | .zeroDivision => "division by zero"

def isNothing (s : Octets) : Bool :=
  s.isEmpty || integer? s == some 0

/-- What an expression matches at the start of a text: its first group, or how much. -/
def matched (text pattern : Octets) : Octets :=
  match Regular.read? false pattern.toList with
  | none => "0"
  | some r =>
    let hasGroup := (pattern.splitOn "\\(").length > 1
    match Regular.find? Regular.exactCase (.both .start r) text.toList 0 with
    | some f =>
      if hasGroup then
        match f.groups.lookup 1 with
        | some (a, b) => String.ofList ((text.toList.take b).drop a)
        | none => ""
      else toString f.last
    | none => if hasGroup then "" else "0"

def comparison (o : Octets) (a b : Octets) : Octets :=
  let holds : Bool := match integer? a, integer? b with
    | some m, some n =>
      match o with
      | "=" | "==" => m = n
      | "!=" => m ≠ n
      | "<" => m < n
      | "<=" => m ≤ n
      | ">" => m > n
      | _ => m ≥ n
    | _, _ =>
      match o with
      | "=" | "==" => a = b
      | "!=" => a ≠ b
      | "<" => a < b
      | "<=" => ¬ (b < a)
      | ">" => b < a
      | _ => ¬ (a < b)
  if holds then "1" else "0"

def calculated (o : Octets) (a b : Octets) : Except ExprFault Octets :=
  match integer? a, integer? b with
  | some m, some n =>
    match o with
    | "+" => .ok (toString (m + n))
    | "-" => .ok (toString (m - n))
    | "*" => .ok (toString (m * n))
    | "/" => if n = 0 then .error .zeroDivision else .ok (toString (m.tdiv n))
    | _ => if n = 0 then .error .zeroDivision else .ok (toString (m.tmod n))
  | _, _ => .error .notInteger

/-- How tightly an operator binds: the choice least, the match most. -/
def level? (o : Octets) : Option Nat :=
  if o = "|" then some 0
  else if o = "&" then some 1
  else if o ∈ ["=", "==", "!=", "<", "<=", ">", ">="] then some 2
  else if o ∈ ["+", "-"] then some 3
  else if o ∈ ["*", "/", "%"] then some 4
  else if o = ":" then some 5
  else none

def applied (o a b : Octets) : Except ExprFault Octets :=
  match level? o with
  | some 0 => .ok (if isNothing a then (if isNothing b then "0" else b) else a)
  | some 1 => .ok (if isNothing a ∨ isNothing b then "0" else a)
  | some 2 => .ok (comparison o a b)
  | some 5 => .ok (matched a b)
  | _ => calculated o a b

mutual

def exprOperand : Nat → Octets → List Octets → Except ExprFault (Octets × List Octets)
  | 0, before, _ => .error (.missing before)
  | _, before, [] => .error (.missing before)
  | fuel + 1, _, "(" :: rest => do
    let (value, rest) ← exprAt fuel 0 "(" rest
    match rest with
    | ")" :: rest => return (value, rest)
    | w :: _ => .error (.unexpected w)
    | [] => .error (.expectingClose value)
  | fuel + 1, before, w :: rest =>
    match w, rest with
    | "+", w :: rest => .ok (w, rest)
    | "length", _ :: _ => do
      let (s, rest) ← exprOperand fuel before rest
      return (toString s.length, rest)
    | "match", _ :: _ => do
      let (s, rest) ← exprOperand fuel before rest
      let (p, rest) ← exprOperand fuel s rest
      return (matched s p, rest)
    | "index", _ :: _ => do
      let (s, rest) ← exprOperand fuel before rest
      let (set, rest) ← exprOperand fuel s rest
      let place := (s.toList.findIdx? fun c => set.toList.contains c).map (· + 1)
      return (toString (place.getD 0), rest)
    | "substr", _ :: _ => do
      let (s, rest) ← exprOperand fuel before rest
      let (i, rest) ← exprOperand fuel s rest
      let (n, rest) ← exprOperand fuel i rest
      match integer? i, integer? n with
      | some i, some n =>
        if i ≤ 0 ∨ n ≤ 0 then return ("", rest)
        else return (String.ofList ((s.toList.drop (i - 1).toNat).take n.toNat), rest)
      | _, _ => return ("", rest)
    | ")", _ => .error (.unexpected ")")
    | w, _ => .ok (w, rest)

def exprAt : Nat → Nat → Octets → List Octets → Except ExprFault (Octets × List Octets)
  | 0, _, before, _ => .error (.missing before)
  | fuel + 1, level, before, words => do
    let (a, rest) ← exprOperand fuel before words
    exprAfter fuel level a rest

def exprAfter : Nat → Nat → Octets → List Octets → Except ExprFault (Octets × List Octets)
  | 0, _, a, rest => .ok (a, rest)
  | _, _, a, [] => .ok (a, [])
  | fuel + 1, level, a, o :: rest =>
    match level? o with
    | none => .ok (a, o :: rest)
    | some l =>
      if l < level then .ok (a, o :: rest)
      else do
        let (b, rest) ← exprAt fuel (l + 1) o rest
        exprAfter fuel level (← applied o a b) rest

end

def expr : Tool := fun words => do
  let words := if words.head? = some "--" then words.drop 1 else words
  if words.isEmpty then misused "missing operand" 2
  else
    match exprAt (8 * words.length + 8) 0 "" words with
    | .error fault => failing fault.message 2
    | .ok (_, extra :: _) => failing (ExprFault.message (.unexpected extra)) 2
    | .ok (value, []) =>
      let status ← output (value ++ "\n")
      return if status ≠ 0 then 3 else if isNothing value then 1 else 0

/-! ## Words and waiting -/

/-- Words with blanks between them, with escapes only if that is asked for. -/
def echo : Tool := fun words =>
  go false true words
where
  go (escapes ends : Bool) : List Octets → Doing Nat
    | "-n" :: rest => go escapes false rest
    | "-e" :: rest => go true ends rest
    | "-E" :: rest => go false ends rest
    | "-ne" :: rest => go true false rest
    | "-en" :: rest => go true false rest
    | words =>
      let text := " ".intercalate words
      let text := if escapes then String.ofList (plain text.toList) else text
      output (text ++ if ends then "\n" else "")
  plain : List Char → List Char
    | '\\' :: 'n' :: rest => '\n' :: plain rest
    | '\\' :: 't' :: rest => '\t' :: plain rest
    | '\\' :: 'r' :: rest => '\r' :: plain rest
    | '\\' :: '\\' :: rest => '\\' :: plain rest
    | c :: rest => c :: plain rest
    | [] => []

def isInterval (s : Octets) : Bool :=
  let cs := s.toList
  let cs := match cs.getLast? with
    | some c => if c ∈ ['s', 'm', 'h', 'd'] then cs.dropLast else cs
    | none => cs
  match decimal? (String.ofList cs) with
  | some (n, _) => 0 ≤ n
  | none => s = "inf" || s = "infinity"

def sleep : Tool :=
  utility ⟨"", [], 1, true⟩ fun g =>
    match g.operands.filter fun o => ¬ isInterval o with
    | [] => if g.operands.isEmpty then misused "missing operand" 1 else pure 0
    | wrong => misused ("\n".intercalate (wrong.zipIdx.map fun (w, i) =>
        (if i = 0 then "" else "sleep: ") ++ "invalid time interval " ++ quoted w)) 1

def succeeding : Tool := fun _ => pure 0

def failingAlways : Tool := fun _ => pure 1

/-! ## Names -/

/-- A utility that tells one thing or nothing, whichever of its options it is given. -/
def fact (letters text : Octets) : Tool :=
  utility ⟨letters, [], 1, true⟩ fun _ => output (if text.isEmpty then "" else text ++ "\n")

def identity : Tool :=
  utility ⟨"agGnruz", [("user", 'u'), ("group", 'g'), ("name", 'n')], 1, true⟩ fun g =>
    if g.has 'n' then output "root\n"
    else if g.has 'u' ∨ g.has 'g' ∨ g.has 'G' then output "0\n"
    else output "uid=0(root) gid=0(root) groups=0(root)\n"

def printenv : Tool := utility ⟨"0", [("null", '0')], 2, false⟩ fun g => do
  let environment := (← get).environment
  match g.operands with
  | [] => output (ofLines (environment.map fun (n, v) => n ++ "=" ++ v))
  | names =>
    let values := names.filterMap fun n => environment.lookup n
    let status ← output (ofLines values)
    return if values.length < names.length then 1 else status

def readlink : Tool :=
  utility ⟨"femnqsvz", [], 1, true⟩ fun g => do
    let p ← get
    let found := g.operands.filterMap fun path =>
      match p.tree.findSelf p.home path with
      | .ok node =>
        match p.tree.entry node with
        | .link target => some target
        | _ => if g.has 'f' ∨ g.has 'e' ∨ g.has 'm' then some path else none
      | .error _ => none
    let status ← output (ofLines found)
    return if found.length < g.operands.length then 1 else status

end PerfGate.Utility
