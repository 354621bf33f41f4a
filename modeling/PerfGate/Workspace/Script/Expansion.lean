import PerfGate.Workspace.Script.Sum
import PerfGate.Workspace.Wildcard

/-!
# Expanding words

The pieces of a word become a row of characters, each of which knows whether it is quoted and
whether it may separate words. The row is cut into words at the separators, patterns are
replaced by the paths that they stand for, and where no cutting takes place the row is a text.
-/

set_option autoImplicit false

namespace PerfGate.Script

inductive Element where
  | char (c : Char) (quoted separates : Bool)
  /-- There is a word here, even if nothing is in it. -/
  | present
  | cut

namespace Element

def row (quoted separates : Bool) (s : Octets) : List Element :=
  s.toList.map fun c => .char c quoted separates

def value (quoted : Bool) (s : Octets) : List Element :=
  row quoted (¬ quoted) s

def cuttable : Element → Element
  | .char c false _ => .char c false true
  | e => e

def inked : List Element → List Inked :=
  List.filterMap fun
    | .char c quoted _ => some (c, quoted)
    | _ => none

def text (es : List Element) : Octets :=
  Wildcard.plain (inked es)

/-! ## Cutting -/

/-- The words of a row, from the word so far on. After blanks that ended a word, another
separator belongs to them. -/
def words (separators : List Char) : List Element → List Inked → Bool → Bool → List (List Inked)
  | [], sofar, here, _ => if here then [sofar.reverse] else []
  | .present :: rest, sofar, _, _ => words separators rest sofar true false
  | .cut :: rest, sofar, here, _ =>
    let others := words separators rest [] false false
    if here then sofar.reverse :: others else others
  | .char c quoted separates :: rest, sofar, here, afterBlank =>
    if separates ∧ separators.contains c then
      if c = ' ' ∨ c = '\t' ∨ c = '\n' then
        if here then sofar.reverse :: words separators rest [] false true
        else words separators rest [] false afterBlank
      else if here ∨ ¬ afterBlank then
        sofar.reverse :: words separators rest [] false false
      else words separators rest [] false false
    else words separators rest ((c, quoted) :: sofar) true false

end Element

namespace Expansion

/-! ## Parameters -/

def joinedBy (separator : Octets) (texts : List Octets) : Octets :=
  separator.intercalate texts

def joint : Act Octets := do
  match ← Act.lookup? "IFS" with
  | none => return " "
  | some s => return String.ofList (s.toList.take 1)

def optionLetters (s : Scope) : Octets :=
  String.ofList s.options

def lastJob (s : Shell) : Option Octets :=
  s.jobs.getLast?.map fun j => toString j.number

def shellNumber : Nat := 2

def positional? (s : Scope) (index : Nat) : Option Octets :=
  if index = 0 then some s.name else s.arguments[index - 1]?

def parameter? (name : Octets) : Act (Option Octets) := do
  let s ← get
  match name with
  | "#" => return some (toString s.scope.arguments.length)
  | "?" => return some (toString s.status)
  | "$" => return some (toString shellNumber)
  | "!" => return lastJob s
  | "-" => return some (optionLetters s.scope)
  | "@" | "*" =>
    let separator ← joint
    return if s.scope.arguments.isEmpty then none
      else some (joinedBy separator s.scope.arguments)
  | _ =>
    if name.toList.all Char.isDigit then return positional? s.scope (name.toNat?.getD 0)
    else Act.lookup? name

def unsetFault {α : Type} (name reason : Octets) : Act α :=
  Act.fail (name ++ ": " ++ reason)

/-- The value of a parameter, which has to be set if the shell insists on it. -/
def insisted (name : Octets) : Act (Option Octets) := do
  let value ← parameter? name
  if value.isNone ∧ name ≠ "@" ∧ name ≠ "*" ∧ (← Act.isSet 'u') then
    unsetFault name "parameter not set"
  else return value

def arguments (name : Octets) (apart quoted : Bool) : Act (List Element) := do
  let arguments := (← Act.scope).arguments
  if name = "*" ∧ quoted then return Element.value true (joinedBy (← joint) arguments)
  else if apart then
    let each (s : Octets) : List Element :=
      (if quoted then [.present] else []) ++ Element.value quoted s
    return List.intercalate [.cut] (arguments.map each)
  else return Element.value quoted (joinedBy (← joint) arguments)

/-- A value without the shortest or longest part at its start that fits. -/
def withoutStart (longest : Bool) (pattern : List Wildcard.Part) (cs : List Char) : List Char :=
  let lengths := List.range (cs.length + 1)
  let lengths := if longest then lengths.reverse else lengths
  match lengths.find? fun n => Wildcard.fits pattern (cs.take n) with
  | some n => cs.drop n
  | none => cs

def withoutEnd (longest : Bool) (pattern : List Wildcard.Part) (cs : List Char) : List Char :=
  let lengths := List.range (cs.length + 1)
  let lengths := if longest then lengths else lengths.reverse
  match lengths.find? fun n => Wildcard.fits pattern (cs.drop n) with
  | some n => cs.take n
  | none => cs

/-! ## Words -/

def userHomes : List (Octets × Octets) := [("root", "/root")]

/-- The directory that a tilde at the start of a word stands for, with the words after it. -/
def tilde (home : Option Octets) : Word → Word
  | .text s false :: rest =>
    match s.toList with
    | '~' :: path =>
      let user := String.ofList (path.takeWhile (· ≠ '/'))
      let after := path.drop user.length
      let directory := if user.isEmpty then home else userHomes.lookup user
      match directory with
      | some directory =>
        if after.isEmpty ∧ ¬ rest.isEmpty then .text s false :: rest
        else .text directory true :: .text (String.ofList after) false :: rest
      | none => .text s false :: rest
    | _ => .text s false :: rest
  | word => word

def homeTilde (word : Word) : Act Word := do
  return tilde (← Act.lookup? "HOME") word

/-- The parts of an unquoted text between colons, each of which may start with a tilde. The last
one ends the word or not. -/
def betweenColons (home : Option Octets) (last : Bool) : List Octets → Word
  | [] => []
  | [s] => tilde home (.text s false :: if last then [] else [.text "" false])
  | s :: more => tilde home [.text s false] ++ .text ":" false :: betweenColons home last more

def laterTildes (home : Option Octets) : Word → Word
  | [] => []
  | .text s false :: rest =>
    match s.splitOn ":" with
    | first :: second :: more =>
      .text first false :: .text ":" false :: betweenColons home rest.isEmpty (second :: more) ++
        laterTildes home rest
    | _ => .text s false :: laterTildes home rest
  | piece :: rest => piece :: laterTildes home rest

def valueTildes (home : Option Octets) : Word → Word
  | .text s false :: rest =>
    betweenColons home rest.isEmpty (s.splitOn ":") ++ laterTildes home rest
  | word => laterTildes home word

def depthLimit : Nat := 1000

/-- The row of a word. In the places where words are cut, arguments stay apart. -/
def row (p : Powers) : Nat → Bool → Word → Act (List Element)
  | 0, _, _ => return []
  | depth + 1, apart, word => do
    let rows ← word.mapM fun piece =>
      match piece with
      | .text s quoted =>
        return (if quoted then [.present] else []) ++ Element.row quoted false s
      | .every => arguments "@" apart true
      | .output command quoted => do return Element.value quoted (← p.output command)
      | .sum expression quoted => do
        let text := Element.text (← row p depth false expression)
        return Element.value quoted (toString (← Sum.evaluate text))
      | .parameter name use quoted => parameter name use quoted (row p depth) apart
    return rows.flatten
where
  /-- The row of an expansion of a parameter; `below` gives the rows of its words. -/
  parameter (name : Octets) (use : Use) (quoted : Bool)
      (below : Bool → Word → Act (List Element)) (apart : Bool) : Act (List Element) := do
    let shown : Act (List Element) :=
      if name = "@" ∨ name = "*" then arguments name apart quoted
      else do return Element.value quoted ((← parameter? name).getD "")
    let instead (word : Word) : Act (List Element) := do
      let es ← below apart (← homeTilde word)
      return if quoted then es else es.map Element.cuttable
    match use with
    | .faulty => Act.fail "Bad substitution"
    | .value =>
      discard (insisted name)
      shown
    | .length => do
      return Element.value quoted (toString ((← insisted name).getD "").length)
    | .absent absence evenEmpty word =>
      let value ← parameter? name
      let isThere := value.isSome && ¬ (evenEmpty && value = some "")
      match absence with
      | .word => if isThere then shown else instead word
      | .opposite => if isThere then instead word else return []
      | .assigned =>
        if isThere then shown
        else
          let text := Element.text (← below false (← homeTilde word))
          if isName name then
            Act.assign name text
            return Element.value quoted text
          else Act.fail (name ++ ": bad variable name")
      | .fault =>
        if isThere then shown
        else
          let text := Element.text (← below false word)
          if word.isEmpty then
            unsetFault name ("parameter not set" ++ if evenEmpty then " or null" else "")
          else unsetFault name text
    | .without atEnd longest pattern =>
      let value := (← insisted name).getD ""
      let parts := Wildcard.ofInked (Element.inked (← below false pattern))
      let left := if atEnd then withoutEnd longest parts value.toList
        else withoutStart longest parts value.toList
      return Element.value quoted (String.ofList left)

def text (p : Powers) (word : Word) : Act Octets := do
  return Element.text (← row p depthLimit false (← homeTilde word))

/-- The text of a value, in which a tilde can also stand after a colon. -/
def valueText (p : Powers) (word : Word) : Act Octets := do
  let home ← Act.lookup? "HOME"
  return Element.text (← row p depthLimit false (valueTildes home word))

def pattern (p : Powers) (word : Word) : Act (List Wildcard.Part) := do
  return Wildcard.ofInked (Element.inked (← row p depthLimit false (← homeTilde word)))

def generated (word : List Inked) : Act (List Octets) := do
  if ← Act.isSet 'f' then return [Wildcard.plain word]
  else
    let process := (← get).process
    match Wildcard.paths process.tree process.home word with
    | [] => return [Wildcard.plain word]
    | paths => return paths

def fields (p : Powers) (word : Word) : Act (List Octets) := do
  let es ← row p depthLimit true (← homeTilde word)
  let separators ← Act.separators
  let words ← (Element.words separators.toList es [] false false).mapM generated
  return words.flatten

end Expansion

end PerfGate.Script
