import PerfGate.Workspace.Tree

/-!
# Wildcards

A pattern is a text in which some characters are quoted and stand for themselves. A star
stands for any text, a question mark for one character and brackets for one of a set. The
paths that a pattern stands for are found name by name; a dot at the front of a name has to
be written out.
-/

set_option autoImplicit false

namespace PerfGate

abbrev Inked := Char × Bool

namespace Wildcard

inductive Member where
  | one (c : Char)
  | range (low high : Char)
  | kind (name : String)

inductive Part where
  | exactly (c : Char)
  | any
  | anyText
  | oneOf (negative : Bool) (members : List Member)

/-! ## Sets of characters -/

def isPunctuation (c : Char) : Bool :=
  '!' ≤ c && c ≤ '~' && ¬ c.isAlphanum

def ofKind : String → Char → Bool
  | "alpha", c => c.isAlpha
  | "digit", c => c.isDigit
  | "alnum", c => c.isAlphanum
  | "upper", c => c.isUpper
  | "lower", c => c.isLower
  | "space", c => Octets.isBlank c
  | "blank", c => c = ' ' || c = '\t'
  | "punct", c => isPunctuation c
  | "print", c => ' ' ≤ c && c ≤ '~'
  | "graph", c => '!' ≤ c && c ≤ '~'
  | "cntrl", c => c < ' ' || c.toNat = 127
  | "xdigit", c => c.isDigit || ('a' ≤ c && c ≤ 'f') || ('A' ≤ c && c ≤ 'F')
  | _, _ => false

def kinds : List String :=
  ["alpha", "digit", "alnum", "upper", "lower", "space", "blank", "punct", "print", "graph",
    "cntrl", "xdigit"]

def Member.contains (c : Char) : Member → Bool
  | .one d => c = d
  | .range low high => low ≤ c && c ≤ high
  | .kind name => ofKind name c

def contains (negative : Bool) (members : List Member) (c : Char) : Bool :=
  (members.any fun m => m.contains c) != negative

def kind? (cs : List Char) : Option (String × Nat) :=
  match cs with
  | '[' :: ':' :: rest =>
    let name := String.ofList (rest.takeWhile Char.isAlpha)
    if name ∈ kinds ∧ [':', ']'].isPrefixOf (rest.drop name.length) then
      some (name, name.length + 4)
    else none
  | _ => none

/-- The members of a set up to its bracket; `none` if there is none. The first member may be
the bracket. -/
def members : Nat → Bool → List Inked → Option (List Member × List Inked)
  | 0, _, _ => none
  | _, _, [] => none
  | fuel + 1, first, (c, quoted) :: rest =>
    if c = ']' ∧ ¬ quoted ∧ ¬ first then some ([], rest)
    else
      match kind? (if quoted then [] else c :: rest.map (·.1)) with
      | some (name, length) => do
        let (ms, rest) ← members fuel false (rest.drop (length - 1))
        return (.kind name :: ms, rest)
      | none =>
        match rest with
        | ('-', false) :: (d, _) :: after =>
          if d = ']' then do
            let (ms, rest) ← members fuel false rest
            return (.one c :: ms, rest)
          else do
            let (ms, rest) ← members fuel false after
            return (.range c d :: ms, rest)
        | _ => do
          let (ms, rest) ← members fuel false rest
          return (.one c :: ms, rest)

def set? (cs : List Inked) : Option (Part × List Inked) :=
  let inside (negative : Bool) (cs : List Inked) : Option (Part × List Inked) :=
    (members (cs.length + 1) true cs).map fun (ms, rest) => (.oneOf negative ms, rest)
  match cs with
  | ('!', false) :: rest => inside true rest
  | _ => inside false cs

def parts : Nat → List Inked → List Part
  | 0, _ => []
  | _, [] => []
  | fuel + 1, (c, quoted) :: rest =>
    if quoted then .exactly c :: parts fuel rest
    else if c = '*' then .anyText :: parts fuel rest
    else if c = '?' then .any :: parts fuel rest
    else if c = '[' then
      match set? rest with
      | some (p, after) => p :: parts fuel after
      | none => .exactly c :: parts fuel rest
    else .exactly c :: parts fuel rest

def ofInked (cs : List Inked) : List Part :=
  parts (cs.length + 1) cs

/-! ## Matching -/

def someRest (p : List Char → Bool) : List Char → Bool
  | [] => p []
  | c :: cs => p (c :: cs) || someRest p cs

def fits : List Part → List Char → Bool
  | [], cs => cs.isEmpty
  | .anyText :: ps, cs => someRest (fits ps) cs
  | _ :: _, [] => false
  | .exactly d :: ps, c :: cs => c = d && fits ps cs
  | .any :: ps, _ :: cs => fits ps cs
  | .oneOf negative ms :: ps, c :: cs => contains negative ms c && fits ps cs

def isWild (cs : List Inked) : Bool :=
  (ofInked cs).any fun
    | .exactly _ => false
    | _ => true

/-! ## Paths -/

def names : List Inked → List (List Inked)
  | [] => [[]]
  | (c, quoted) :: rest =>
    if c = '/' then [] :: names rest
    else
      match names rest with
      | [] => [[(c, quoted)]]
      | name :: more => ((c, quoted) :: name) :: more

def plain (cs : List Inked) : Octets :=
  String.ofList (cs.map (·.1))

def candidates (t : Tree) (directory : Nat) (pattern : List Inked) : List Octets :=
  let ps := ofInked pattern
  let dotted := pattern.head?.map (·.1) = some '.'
  let all := (t.names directory).map (·.1) ++ (if dotted then [".", ".."] else [])
  all.filter fun name =>
    (dotted || name.toList.head? ≠ some '.') && fits ps name.toList

def pathsFrom (t : Tree) (home : Nat) : List (List Inked) → Octets → List Octets
  | [], sofar => [sofar]
  | name :: rest, sofar =>
    let slash := if rest.isEmpty then "" else "/"
    let here := if sofar.isEmpty then "." else sofar
    if ¬ isWild name then
      let path := sofar ++ plain name ++ slash
      if rest.isEmpty ∧ ¬ t.present home (if path.isEmpty then "." else path) then []
      else pathsFrom t home rest path
    else
      match t.find home here with
      | .error _ => []
      | .ok directory =>
        (candidates t directory name).flatMap fun found =>
          let path := sofar ++ found ++ slash
          if ¬ rest.isEmpty ∧ ¬ t.leadsToDirectory home path then []
          else pathsFrom t home rest path

def sorted (paths : List Octets) : List Octets :=
  paths.mergeSort fun a b => ¬ (b < a)

/-- The paths that a pattern stands for, in order; none if it is just a text. -/
def paths (t : Tree) (home : Nat) (pattern : List Inked) : List Octets :=
  if isWild pattern then sorted (pathsFrom t home (names pattern) "") else []

end Wildcard

end PerfGate
