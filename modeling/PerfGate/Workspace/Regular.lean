import PerfGate.Workspace.Wildcard

/-!
# Regular expressions

An expression in one of two notations: the basic one, in which groups, counts and choices are
written with a backslash, and the extended one, in which they are not. The first place where it
fits is found, and each repetition takes as much as it can.
-/

set_option autoImplicit false

namespace PerfGate

inductive Regular where
  | nothing
  | exactly (c : Char)
  | any
  | oneOf (negative : Bool) (members : List Wildcard.Member)
  | start
  | finish
  /-- Where a word begins or ends. -/
  | edge
  | group (index : Nat) (inside : Regular)
  | again (index : Nat)
  | both (first second : Regular)
  | either (first second : Regular)
  | repeated (least : Nat) (most : Option Nat) (r : Regular)

namespace Regular

/-! ## Reading -/

/-- A part of an expression, what is left of its text, and how many groups have begun. -/
abbrev Part := Regular × List Char × Nat

/-- The count between braces: at least and at most. -/
def count? (extended : Bool) (cs : List Char) : Option (Nat × Option Nat × List Char) :=
  let low := cs.takeWhile Char.isDigit
  let rest := cs.drop low.length
  let value (ds : List Char) : Nat := ds.foldl (fun n c => n * 10 + (c.toNat - 48)) 0
  let close (rest : List Char) : Option (List Char) :=
    match extended, rest with
    | true, '\x7d' :: rest => some rest
    | false, '\\' :: '\x7d' :: rest => some rest
    | _, _ => none
  match rest with
  | ',' :: rest =>
    let high := rest.takeWhile Char.isDigit
    (close (rest.drop high.length)).map fun rest =>
      (value low, if high.isEmpty then none else some (value high), rest)
  | _ =>
    if low.isEmpty then none
    else (close rest).map fun rest => (value low, some (value low), rest)

def quantifier? (extended : Bool) (cs : List Char) : Option (Nat × Option Nat × List Char) :=
  match extended, cs with
  | _, '*' :: rest => some (0, none, rest)
  | true, '+' :: rest => some (1, none, rest)
  | true, '?' :: rest => some (0, some 1, rest)
  | true, '\x7b' :: rest => count? true rest
  | false, '\\' :: '+' :: rest => some (1, none, rest)
  | false, '\\' :: '?' :: rest => some (0, some 1, rest)
  | false, '\\' :: '\x7b' :: rest => count? false rest
  | _, _ => none

def quantified (extended : Bool) : Nat → Regular → List Char → Regular × List Char
  | 0, r, cs => (r, cs)
  | fuel + 1, r, cs =>
    match quantifier? extended cs with
    | some (least, most, rest) => quantified extended fuel (.repeated least most r) rest
    | none => (r, cs)

def opens (extended : Bool) : List Char → Option (List Char)
  | '(' :: rest => if extended then some rest else none
  | '\\' :: '(' :: rest => if extended then none else some rest
  | _ => none

def closes (extended : Bool) : List Char → Option (List Char)
  | ')' :: rest => if extended then some rest else none
  | '\\' :: ')' :: rest => if extended then none else some rest
  | _ => none

def chooses (extended : Bool) : List Char → Option (List Char)
  | '|' :: rest => if extended then some rest else none
  | '\\' :: '|' :: rest => if extended then none else some rest
  | _ => none

def wordMembers : List Wildcard.Member := [.kind "alnum", .one '_']

/-- The members of a set. No character loses its meaning by a backslash there. -/
def set? (cs : List Char) : Option (Regular × List Char) :=
  let inside (negative : Bool) (cs : List Char) : Option (Regular × List Char) :=
    (Wildcard.members (cs.length + 1) true (cs.map fun c => (c, false))).map fun (ms, rest) =>
      (.oneOf negative ms, rest.map (·.1))
  match cs with
  | '^' :: rest => inside true rest
  | _ => inside false cs

mutual

def choice (extended : Bool) : Nat → List Char → Nat → Option Part
  | 0, _, _ => none
  | fuel + 1, cs, n => do
    let (a, cs, n) ← series extended fuel true cs n
    match chooses extended cs with
    | some rest =>
      let (b, cs, n) ← choice extended fuel rest n
      return (.either a b, cs, n)
    | none => return (a, cs, n)

def series (extended : Bool) : Nat → Bool → List Char → Nat → Option Part
  | 0, _, _, _ => none
  | fuel + 1, first, cs, n =>
    if cs.isEmpty ∨ (chooses extended cs).isSome ∨ (closes extended cs).isSome then
      some (.nothing, cs, n)
    else do
      let (a, cs, n) ← single extended fuel first cs n
      let (a, cs) := match a with
        | .start => (a, cs)
        | a => quantified extended (cs.length + 1) a cs
      let isStart := match a with
        | .start => true
        | _ => false
      let (b, cs, n) ← series extended fuel (isStart && ¬ extended) cs n
      return (.both a b, cs, n)

def single (extended : Bool) : Nat → Bool → List Char → Nat → Option Part
  | 0, _, _, _ => none
  | fuel + 1, first, cs, n =>
    match opens extended cs with
    | some rest => do
      let (inside, cs, m) ← choice extended fuel rest (n + 1)
      let cs ← closes extended cs
      return (.group (n + 1) inside, cs, m)
    | none =>
      match cs with
      | [] => some (.nothing, [], n)
      | '.' :: rest => some (.any, rest, n)
      | '[' :: rest => do
        let (r, rest) ← set? rest
        return (r, rest, n)
      | '^' :: rest =>
        if extended ∨ first then some (.start, rest, n) else some (.exactly '^', rest, n)
      | '$' :: rest =>
        if extended ∨ rest.isEmpty ∨ (closes extended rest).isSome ∨ (chooses extended rest).isSome
        then some (.finish, rest, n)
        else some (.exactly '$', rest, n)
      | '\\' :: c :: rest =>
        let r := match c with
          | 'n' => .exactly '\n'
          | 't' => .exactly '\t'
          | 'w' => .oneOf false wordMembers
          | 'W' => .oneOf true wordMembers
          | 's' => .oneOf false [.kind "space"]
          | 'S' => .oneOf true [.kind "space"]
          | 'b' | '<' | '>' => .edge
          | c => if '1' ≤ c ∧ c ≤ '9' then .again (c.toNat - 48) else .exactly c
        some (r, rest, n)
      | c :: rest => some (.exactly c, rest, n)

end

/-- The expression that a text is, unless its groups or sets do not close. -/
def read? (extended : Bool) (text : List Char) : Option Regular :=
  match choice extended (8 * text.length + 16) text 0 with
  | some (r, [], _) => some r
  | _ => none

/-- The expression for a text without any meaning of its own. -/
def literal (text : List Char) : Regular :=
  text.foldr (fun c r => .both (.exactly c) r) .nothing

/-! ## Fitting -/

/-- A place in a text: the character before it, the characters after it, how many there were,
and where each group began and ended. -/
structure Place where
  before : Option Char
  rest : List Char
  index : Nat
  groups : List (Nat × Nat × Nat)

def Place.step (p : Place) : Option (Char × Place) :=
  match p.rest with
  | [] => none
  | c :: rest => some (c, { p with before := some c, rest := rest, index := p.index + 1 })

def isWordChar (c : Char) : Bool := c.isAlphanum || c = '_'

def atEdge (p : Place) : Bool :=
  ((p.before.map isWordChar).getD false) != ((p.rest.head?.map isWordChar).getD false)

def past (same : Char → Char → Bool) : List Char → Place → Option Place
  | [], p => some p
  | c :: cs, p =>
    match p.step with
    | some (d, next) => if same c d then past same cs next else none
    | none => none

/-- Whether an expression may fit without taking anything. -/
def canBeEmpty : Regular → Bool
  | .nothing | .start | .finish | .edge => true
  | .group _ r => canBeEmpty r
  | .again _ => true
  | .both a b => canBeEmpty a && canBeEmpty b
  | .either a b => canBeEmpty a || canBeEmpty b
  | .repeated least _ r => least = 0 || canBeEmpty r
  | _ => false

variable (all : List Char) (same : Char → Char → Bool)

def fit : Nat → Regular → Place → (Place → Option Place) → Option Place
  | 0, _, _, _ => none
  | fuel + 1, r, p, next =>
    match r with
    | .nothing => next p
    | .exactly c =>
      match p.step with
      | some (d, q) => if same c d then next q else none
      | none => none
    | .any => p.step.bind fun (_, q) => next q
    | .oneOf negative members =>
      match p.step with
      | some (d, q) =>
        let here := Wildcard.contains false members d || members.any (fun
          | .one c => same c d
          | .range a b => (a ≤ d.toLower && d.toLower ≤ b && same d d.toLower) ||
              (a ≤ d.toUpper && d.toUpper ≤ b && same d d.toUpper)
          | _ => false)
        if here != negative then next q else none
      | none => none
    | .start => if p.index = 0 then next p else none
    | .finish => if p.rest.isEmpty then next p else none
    | .edge => if atEdge p then next p else none
    | .group index inside =>
      fit fuel inside p fun q =>
        next { q with groups := (index, p.index, q.index) :: q.groups }
    | .again index =>
      match p.groups.lookup index with
      | some (a, b) =>
        match past same ((all.drop a).take (b - a)) p with
        | some q => next q
        | none => none
      | none => none
    | .both a b => fit fuel a p fun q => fit fuel b q next
    | .either a b => fit fuel a p next <|> fit fuel b p next
    | .repeated least most r =>
      let more : Option Place :=
        if most = some 0 then none
        else
          fit fuel r p fun q =>
            if q.index = p.index then none
            else fit fuel (.repeated (least - 1) (most.map (· - 1)) r) q next
      if least = 0 then more <|> next p
      else if r.canBeEmpty then more <|> next p
      else more

end Regular

/-- Where an expression fits: from one place to another, with its groups. -/
structure Fit where
  first : Nat
  last : Nat
  groups : List (Nat × Nat × Nat)

namespace Regular

def fitFrom (same : Char → Char → Bool) (r : Regular) (all : List Char) :
    List Char → Option Char → Nat → Option Fit
  | rest, before, index =>
    let place : Place := ⟨before, rest, index, []⟩
    match fit all same (16 * all.length + 4096) r place some with
    | some q => some ⟨index, q.index, q.groups⟩
    | none =>
      match rest with
      | [] => none
      | c :: rest => fitFrom same r all rest (some c) (index + 1)

def find? (same : Char → Char → Bool) (r : Regular) (all : List Char) (start : Nat) :
    Option Fit :=
  fitFrom same r all (all.drop start) (if start = 0 then none else all[start - 1]?) start

def exactCase (a b : Char) : Bool := a = b

def anyCase (a b : Char) : Bool := a.toLower = b.toLower

end Regular

end PerfGate
