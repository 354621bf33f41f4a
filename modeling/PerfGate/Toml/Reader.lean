import PerfGate.Toml.Lexical
import PerfGate.Toml.Value

/-!
# Reading TOML documents

A document is a sequence of lines, each with a header, a definition, or neither. Values on a
line may nest lists and inline tables; brackets may be nested 79 deep and a key may have 79
names.
-/

set_option autoImplicit false

namespace PerfGate.Toml

def nestingLimit : Nat := 80

def splitKey : List String → Option (List String × String)
  | [] => none
  | names =>
    if names.length < nestingLimit then names.getLast?.map fun last => (names.dropLast, last)
    else none

/-! ## Inline tables -/

/-- Defines a key inside an inline table; a dotted key may pass only through tables that
dotted keys made. -/
def putInline (value : Value) : List String → String → Entries → Option Entries
  | [], key, entries => if (entries.lookup key).isSome then none else some (entries.put key value)
  | name :: path, key, entries =>
    match entries.lookup name with
    | none => (putInline value path key []).map fun child =>
        entries.put name (.table .dotted child)
    | some (.table .dotted child) => (putInline value path key child).map fun child =>
        entries.put name (.table .dotted child)
    | some _ => none

def inlineTable (pairs : List (List String × Value)) : Option Value := do
  let entries ← pairs.foldlM
    (fun (entries : Entries) (pair : List String × Value) => do
      let (path, key) ← splitKey pair.1
      putInline pair.2 path key entries)
    []
  return .table .inline entries

/-! ## Values -/

def readWord (word : List Char) (value : Value) (s : List Char) : Option (Value × List Char) :=
  if word.isPrefixOf s then some (value, s.drop word.length) else none

def readNumber (s : List Char) : Option (Value × List Char) :=
  match readMoment s with
  | some rest => some (.moment, rest)
  | none =>
    match readReal s with
    | some (x, rest) => some (.real x, rest)
    | none => (readInteger s).map fun (n, rest) => (.integer n, rest)

mutual

/-- A value at the front of the text; `depth` counts the brackets that are open. -/
def readValue : Nat → Nat → Reader Value
  | 0, _, _ => none
  | fuel + 1, depth, s =>
    match s with
    | [] => none
    | c :: rest =>
      if c = '"' ∨ c = '\x27' then (readString s).map fun (text, rest) => (.text text, rest)
      else if c = '[' then
        if depth + 1 < nestingLimit then
          (readArray fuel (depth + 1) (skipLoose false rest)).map fun (items, rest) =>
            (.array items, rest)
        else none
      else if c = '\x7b' then
        if depth + 1 < nestingLimit then
          match skipBlanks rest with
          | '\x7d' :: rest => some (.table .inline [], rest)
          | rest => do
            let (pairs, rest) ← readPairs fuel (depth + 1) rest
            return (← inlineTable pairs, rest)
        else none
      else if c = 't' then readWord ['t', 'r', 'u', 'e'] (.boolean true) s
      else if c = 'f' then readWord ['f', 'a', 'l', 's', 'e'] (.boolean false) s
      else readNumber s

/-- The items of a list and its bracket; a comma may follow the last item. -/
def readArray : Nat → Nat → Reader (List Value)
  | 0, _, _ => none
  | fuel + 1, depth, s =>
    match s with
    | ']' :: rest => some ([], rest)
    | _ => do
      let (value, rest) ← readValue fuel depth s
      match skipLoose false rest with
      | ',' :: rest =>
        let (items, rest) ← readArray fuel depth (skipLoose false rest)
        return (value :: items, rest)
      | ']' :: rest => return ([value], rest)
      | _ => none

/-- The definitions of an inline table and its brace; no comma follows the last one. -/
def readPairs : Nat → Nat → Reader (List (List String × Value))
  | 0, _, _ => none
  | fuel + 1, depth, s => do
    let (key, rest) ← readKey (s.length + 1) s
    let rest ← expect '=' rest
    let (value, rest) ← readValue fuel depth (skipBlanks rest)
    match skipBlanks rest with
    | ',' :: rest =>
      let (pairs, rest) ← readPairs fuel depth rest
      return ((key, value) :: pairs, rest)
    | '\x7d' :: rest => return ([(key, value)], rest)
    | _ => none

end

/-! ## Lines -/

inductive Line where
  | header (path : List String) (key : String)
  | arrayHeader (path : List String) (key : String)
  | definition (path : List String) (key : String) (value : Value)

def readHeader (s : List Char) : Option (Line × List Char) := do
  let (names, rest) ← readKey (s.length + 1) s
  let (path, key) ← splitKey names
  let rest ← lineEnd? (← expect ']' rest)
  return (.header path key, rest)

def readArrayHeader (s : List Char) : Option (Line × List Char) := do
  let (names, rest) ← readKey (s.length + 1) s
  let (path, key) ← splitKey names
  let rest ← lineEnd? (← expect ']' (← expect ']' rest))
  return (.arrayHeader path key, rest)

def readDefinition (s : List Char) : Option (Line × List Char) := do
  let (names, rest) ← readKey (s.length + 1) s
  let (path, key) ← splitKey names
  let rest ← expect '=' rest
  let rest := skipBlanks rest
  let (value, rest) ← readValue (2 * rest.length + 2) 0 rest
  return (.definition path key value, ← lineEnd? rest)

def readLinesOf : Nat → List Char → Option (List Line)
  | 0, _ => none
  | fuel + 1, s =>
    match skipBlanks s with
    | [] => some []
    | c :: rest =>
      if c = '#' ∨ c = '\n' ∨ c = '\r' then do
        readLinesOf fuel (← lineEnd? (c :: rest))
      else do
        let (line, rest) ← match c :: rest with
          | '[' :: '[' :: rest => readArrayHeader rest
          | '[' :: rest => readHeader rest
          | s => readDefinition s
        let lines ← readLinesOf fuel rest
        return line :: lines

/-! ## Tables -/

/-- Changes the table at the end of a path, making the tables that are missing. Of several
tables under one header the last is meant. A path given by a dotted key passes only through
tables that have no header of their own. -/
def changeAt (dotted : Bool) (change : Origin → Entries → Option (Origin × Entries)) :
    List String → Origin → Entries → Option (Origin × Entries)
  | [], origin, entries => change origin entries
  | name :: path, origin, entries =>
    let made := if dotted then Origin.dotted else Origin.passed
    let child : Option Value := match entries.lookup name with
      | none => (changeAt dotted change path made []).map fun (o, es) => .table o es
      | some (.table o es) =>
        if o = .inline ∨ (dotted ∧ o = .header) then none
        else (changeAt dotted change path o es).map fun (o, es) => .table o es
      | some (.tables elements) =>
        match elements.getLast? with
        | some (.table o es) =>
          (changeAt dotted change path o es).map fun (o, es) =>
            .tables (elements.dropLast ++ [.table o es])
        | _ => none
      | some _ => none
    child.map fun child => (origin, entries.put name child)

/-- Opens a table by its header; it may have been passed through before, but not defined. -/
def openTable (key : String) (origin : Origin) (entries : Entries) : Option (Origin × Entries) :=
  match entries.lookup key with
  | none => some (origin, entries.put key (.table .header []))
  | some (.table .passed es) => some (origin, entries.put key (.table .header es))
  | some _ => none

def openElement (key : String) (origin : Origin) (entries : Entries) :
    Option (Origin × Entries) :=
  match entries.lookup key with
  | none => some (origin, entries.put key (.tables [.table .header []]))
  | some (.tables elements) =>
    some (origin, entries.put key (.tables (elements ++ [.table .header []])))
  | some _ => none

/-- Defines a key in the table where its path ends: a table made by dotted keys if it has
one, and no such table if it has none. -/
def define (dotted : Bool) (key : String) (value : Value) (origin : Origin) (entries : Entries) :
    Option (Origin × Entries) :=
  if (origin == .dotted) ≠ dotted then none
  else if (entries.lookup key).isSome then none
  else some (origin, entries.put key value)

structure Building where
  root : Entries
  current : List String

def Building.change (b : Building) (path current : List String)
    (f : Origin → Entries → Option (Origin × Entries)) : Option Building := do
  let (_, root) ← changeAt false f path .header b.root
  return ⟨root, current⟩

def Building.line (b : Building) : Line → Option Building
  | .header path key => b.change path (path ++ [key]) (openTable key)
  | .arrayHeader path key => b.change path (path ++ [key]) (openElement key)
  | .definition path key value =>
    b.change b.current b.current
      (changeAt true (define (!path.isEmpty) key value) path)

/-- The root table of a document; a byte order mark in front is passed over. -/
def parse (text : String) : Option Entries := do
  let chars := match text.toList with
    | '\uFEFF' :: rest => rest
    | chars => chars
  let lines ← readLinesOf (chars.length + 1) chars
  let built ← lines.foldlM Building.line ⟨[], []⟩
  return built.root

end PerfGate.Toml
