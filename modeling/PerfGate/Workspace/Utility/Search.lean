import PerfGate.Workspace.Regular
import PerfGate.Workspace.Utility.Options

/-!
# Utilities that search

Lines in which an expression fits, and the editing of lines by short commands.
-/

set_option autoImplicit false

namespace PerfGate.Utility

/-! ## Lines that fit -/

structure Searched where
  expressions : List Regular
  same : Char → Char → Bool
  wholeWords : Bool
  wholeLines : Bool

def isWholeWord (cs : List Char) (f : Fit) : Bool :=
  let before := if f.first = 0 then none else cs[f.first - 1]?
  let after := cs[f.last]?
  ¬ (before.map Regular.isWordChar).getD false && ¬ (after.map Regular.isWordChar).getD false

/-- The first fit of any of the expressions from a place on. -/
def Searched.find? (s : Searched) (cs : List Char) : Nat → Nat → Option Fit
  | 0, _ => none
  | fuel + 1, start =>
    let found := s.expressions.filterMap fun r => Regular.find? s.same r cs start
    let best := found.foldl (fun b f =>
      match b with
      | none => some f
      | some g =>
        if f.first < g.first ∨ (f.first = g.first ∧ g.last < f.last) then some f else some g) none
    match best with
    | none => none
    | some f =>
      if s.wholeLines ∧ ¬ (f.first = 0 ∧ f.last = cs.length) then none
      else if s.wholeWords ∧ ¬ isWholeWord cs f then
        if f.first < cs.length then s.find? cs fuel (f.first + 1) else none
      else some f

def Searched.fits (s : Searched) (l : Octets) : Bool :=
  (s.find? l.toList (l.length + 2) 0).isSome

def Searched.parts (s : Searched) (cs : List Char) : Nat → Nat → List Octets
  | 0, _ => []
  | fuel + 1, start =>
    match s.find? cs (cs.length + 2) start with
    | none => []
    | some f =>
      if f.first = f.last then
        if f.last < cs.length then s.parts cs fuel (f.last + 1) else []
      else String.ofList ((cs.take f.last).drop f.first) :: s.parts cs fuel f.last

def expression? (fixed extended wholeLines : Bool) (pattern : Octets) : Option Regular :=
  let r := if fixed then some (Regular.literal pattern.toList)
    else Regular.read? extended pattern.toList
  if wholeLines then r.map fun r => .both .start (.both (.group 0 r) .finish) else r

def tellGrepUse : Doing Unit := do
  Doing.complain ("Usage: " ++ (← get).called ++ " [OPTION]... PATTERNS [FILE]...\n")
  tellHelp

/-- The lines around the found ones, with a mark between stretches that do not touch. -/
def inContext (g : Given) (start : Bool → Nat → Octets) (lines : List Octets)
    (found : List Nat) : List Octets :=
  let width (c : Char) : Nat := ((g.last? c <|> g.last? 'C').bind natural?).getD 0
  let near (i : Nat) : Bool := found.any fun f => i ≤ f + width 'A' && f ≤ i + width 'B'
  let shown := lines.zipIdx.filter fun (_, i) => near i
  let pieces := shown.zipIdx.flatMap fun ((l, i), place) =>
    let apart := 0 < place && ¬ near (i - 1)
    (if apart then ["--"] else []) ++ [start (found.contains i) i ++ l]
  pieces

/-- What is shown for one input, and whether there is a line that counts. -/
def searchInput (g : Given) (s : Searched) (titled : Bool) (operand text : Octets) :
    Doing Bool := do
  let name := if operand = "-" then "(standard input)" else operand
  let found := (linesOf text).zipIdx.filter fun (l, _) => s.fits l != g.has 'v'
  let found : List (Octets × Nat) := match (g.last? 'm').bind natural? with
    | some n => found.take n
    | none => found
  let start (isFound : Bool) (i : Nat) : Octets :=
    let mark := if isFound then ":" else "-"
    (if titled then name ++ mark else "") ++ (if g.has 'n' then toString (i + 1) ++ mark else "")
  if g.has 'q' then return !found.isEmpty
  else if g.has 'l' then
    unless found.isEmpty do Doing.say (name ++ "\n")
    return !found.isEmpty
  else if g.has 'L' then
    if found.isEmpty then Doing.say (name ++ "\n")
    return !found.isEmpty
  else if g.has 'c' then
    Doing.say ((if titled then name ++ ":" else "") ++ toString found.length ++ "\n")
    return !found.isEmpty
  else
    let shown := found.flatMap fun (l, i) =>
      if g.has 'o' then (s.parts l.toList (l.length + 2) 0).map fun part => start true i ++ part
      else [start true i ++ l]
    let shown := if g.has 'A' ∨ g.has 'B' ∨ g.has 'C' then
        inContext g start (linesOf text) (found.map (·.2))
      else shown
    Doing.say (ofLines shown)
    return !found.isEmpty

def listedPatterns : List Octets → Doing (Except (Octets × FileFault) (List Octets))
  | [] => return .ok []
  | path :: rest => do
    match ← input path with
    | .error cause => return .error (path, cause)
    | .ok text => return (← listedPatterns rest).map (linesOf text ++ ·)

def search (fixed extended : Bool) : Tool := fun words =>
  utility ⟨"EFGPe:f:ivwxcm:lLnoqshHrRaA:B:C:Z", [("ignore-case", 'i'), ("quiet", 'q'),
    ("silent", 'q'), ("invert-match", 'v'), ("count", 'c'), ("extended-regexp", 'E'),
    ("fixed-strings", 'F'), ("only-matching", 'o'), ("word-regexp", 'w'), ("line-regexp", 'x'),
    ("regexp", 'e'), ("max-count", 'm'), ("line-number", 'n'), ("no-messages", 's'),
    ("files-with-matches", 'l'), ("no-filename", 'h'), ("with-filename", 'H')],
    2, true⟩ (fun g => do
    let asked := g.has 'e' || g.has 'f'
    let (patterns, operands) : List Octets × List Octets := match g.operands with
      | first :: rest => if asked then (g.all 'e', first :: rest) else ([first], rest)
      | [] => (g.all 'e', [])
    match ← listedPatterns (g.all 'f') with
    | .error (path, cause) => failing (plainFault path cause) 2
    | .ok listed =>
    if patterns.isEmpty ∧ ¬ asked then
      tellGrepUse
      return 2
    else
      let patterns := patterns.flatMap (fun (p : Octets) => p.splitOn "\n") ++ listed
      let fixed := fixed || g.has 'F'
      let extended := extended || g.has 'E' || g.has 'P'
      match patterns.mapM (expression? fixed extended (g.has 'x')) with
      | none => failing "Unmatched ( or \\(" 2
      | some rs =>
        let s : Searched :=
          ⟨rs, if g.has 'i' then Regular.anyCase else Regular.exactCase, g.has 'w', g.has 'x'⟩
        let operands := if operands.isEmpty then ["-"] else operands
        let titled := (operands.length > 1 ∨ g.has 'H') ∧ ¬ g.has 'h'
        let results ← operands.mapM fun (operand : Octets) => do
          match ← input operand with
          | .ok text => return (← searchInput g s titled operand text, false)
          | .error cause =>
            if ¬ g.has 's' then
              tell (plainFault operand cause)
            return (false, true)
        let found := results.any (·.1)
        if results.any (·.2) ∧ ¬ (found ∧ g.has 'q') then return 2
        else return if found then 0 else 1) words

def grep : Tool := search false false

def asCalled (name : Octets) (u : Tool) : Tool := fun words => do
  modify fun p => { p with called := name }
  u words

def egrep : Tool := asCalled "grep" (search false true)

def fgrep : Tool := asCalled "grep" (search true false)

/-! ## Editing lines -/

inductive Address where
  | number (n : Nat)
  | last
  | fits (r : Regular)
  /-- Every so many lines from one on. -/
  | step (first width : Nat)

/-- What a replacement is made of: texts and groups, the zeroth being all that fitted. -/
inductive Patch where
  | text (c : Char)
  | group (n : Nat)

structure Exchange where
  expression : Regular
  patches : List Patch
  everywhere : Bool
  nth : Nat
  prints : Bool
  anyCase : Bool

inductive Edit where
  | exchange (e : Exchange)
  | print
  | firstLine
  | delete
  | deleteFirst
  | quit (status : Nat)
  | silentQuit (status : Nat)
  | number
  | next
  | append
  | hold
  | holdMore
  | fetch
  | fetchMore
  | swap
  | before (text : Octets)
  | after (text : Octets)
  | instead (text : Octets)
  | letters (old new : List Char)
  | block (count : Nat)
  | nothing

/-- A command for the lines from one address to another, or for the others. -/
structure Rule where
  index : Nat
  first : Option Address
  second : Option Address
  others : Bool
  edit : Edit

/-! ### Reading commands -/

/-- The text up to a mark that is not after a backslash, and what comes after the mark. -/
def delimited (mark : Char) : Nat → List Char → Option (List Char × List Char)
  | 0, _ => none
  | _, [] => none
  | fuel + 1, c :: rest =>
    if c = mark then some ([], rest)
    else
      match c, rest with
      | '\\', d :: rest => do
        let (more, rest) ← delimited mark fuel rest
        return (if d = mark then d :: more else c :: d :: more, rest)
      | _, _ => do
        let (more, rest) ← delimited mark fuel rest
        return (c :: more, rest)

def patches : List Char → List Patch
  | [] => []
  | '\\' :: c :: rest =>
    let p := if c.isDigit then .group (c.toNat - 48)
      else if c = 'n' then .text '\n'
      else if c = 't' then .text '\t'
      else .text c
    p :: patches rest
  | '&' :: rest => .group 0 :: patches rest
  | c :: rest => .text c :: patches rest

def skipBlanks (cs : List Char) : List Char :=
  cs.dropWhile fun c => c = ' ' ∨ c = '\t'

def takeNat (cs : List Char) : Nat × List Char :=
  let digits := cs.takeWhile Char.isDigit
  (Json.digitsValue digits, cs.drop digits.length)

def address? (extended : Bool) (cs : List Char) : Option (Option Address × List Char) :=
  match cs with
  | '$' :: rest => some (some .last, rest)
  | '/' :: rest => do
    let (text, rest) ← delimited '/' (rest.length + 1) rest
    let r ← Regular.read? extended text
    return (some (.fits r), rest)
  | c :: _ =>
    if c.isDigit then
      let (n, rest) := takeNat cs
      match rest with
      | '~' :: rest =>
        let (m, rest) := takeNat rest
        some (some (.step n m), rest)
      | _ => some (some (.number n), rest)
    else some (none, cs)
  | [] => some (none, [])

def addedText (cs : List Char) : Octets × List Char :=
  let cs := skipBlanks cs
  let cs := match cs with
    | '\\' :: '\n' :: rest => rest
    | '\\' :: rest => rest
    | cs => cs
  let text := cs.takeWhile (· ≠ '\n')
  (String.ofList text ++ "\n", cs.drop (text.length + 1))

structure Flags where
  everywhere : Bool
  nth : Nat
  prints : Bool
  anyCase : Bool

def flags : Nat → List Char → Flags → Flags × List Char
  | 0, cs, f => (f, cs)
  | fuel + 1, cs, f =>
    match cs with
    | 'g' :: rest => flags fuel rest { f with everywhere := true }
    | 'p' :: rest => flags fuel rest { f with prints := true }
    | 'i' :: rest => flags fuel rest { f with anyCase := true }
    | 'I' :: rest => flags fuel rest { f with anyCase := true }
    | c :: _ =>
      if c.isDigit then
        let (n, rest) := takeNat cs
        flags fuel rest { f with nth := n }
      else (f, cs)
    | [] => (f, [])

def edit? (extended : Bool) (c : Char) (rest : List Char) : Option (Edit × List Char) :=
  match c with
  | 's' => do
    let mark ← rest.head?
    let (text, rest) ← delimited mark (rest.length + 1) (rest.drop 1)
    let (new, rest) ← delimited mark (rest.length + 1) rest
    let (f, rest) := flags (rest.length + 1) rest ⟨false, 1, false, false⟩
    let r ← Regular.read? extended text
    return (.exchange ⟨r, patches new, f.everywhere, f.nth, f.prints, f.anyCase⟩, rest)
  | 'y' => do
    let mark ← rest.head?
    let (a, rest) ← delimited mark (rest.length + 1) (rest.drop 1)
    let (b, rest) ← delimited mark (rest.length + 1) rest
    return (.letters a b, rest)
  | 'p' => some (.print, rest)
  | 'P' => some (.firstLine, rest)
  | 'd' => some (.delete, rest)
  | 'D' => some (.deleteFirst, rest)
  | 'q' =>
    let (n, rest) := takeNat (skipBlanks rest)
    some (.quit n, rest)
  | 'Q' =>
    let (n, rest) := takeNat (skipBlanks rest)
    some (.silentQuit n, rest)
  | '=' => some (.number, rest)
  | 'n' => some (.next, rest)
  | 'N' => some (.append, rest)
  | 'h' => some (.hold, rest)
  | 'H' => some (.holdMore, rest)
  | 'g' => some (.fetch, rest)
  | 'G' => some (.fetchMore, rest)
  | 'x' => some (.swap, rest)
  | 'i' =>
    let (text, rest) := addedText rest
    some (.before text, rest)
  | 'a' =>
    let (text, rest) := addedText rest
    some (.after text, rest)
  | 'c' =>
    let (text, rest) := addedText rest
    some (.instead text, rest)
  | '\x7b' => some (.block 0, rest)
  | _ => none

def rules? (extended : Bool) : Nat → List Char → Nat → Option (List Rule × List Char)
  | 0, _, _ => none
  | fuel + 1, cs, index =>
    let cs := cs.dropWhile fun c => c = ' ' ∨ c = '\t' ∨ c = '\n' ∨ c = ';'
    match cs with
    | [] => some ([], [])
    | '\x7d' :: rest => some ([], rest)
    | '#' :: rest => rules? extended fuel (rest.dropWhile (· ≠ '\n')) index
    | _ => do
      let (first, cs) ← address? extended cs
      let (second, cs) ← match skipBlanks cs with
        | ',' :: rest => address? extended (skipBlanks rest)
        | cs => some (none, cs)
      let cs := skipBlanks cs
      let (others, cs) := match cs with
        | '!' :: rest => (true, skipBlanks rest)
        | cs => (false, cs)
      let c ← cs.head?
      let (edit, rest) ← edit? extended c (cs.drop 1)
      match edit with
      | .block _ =>
        let (inside, rest) ← rules? extended fuel rest (index + 1)
        let rule : Rule := ⟨index, first, second, others, .block inside.length⟩
        let (more, rest) ← rules? extended fuel rest (index + 1 + inside.length)
        return (rule :: inside ++ more, rest)
      | edit =>
        let (more, rest) ← rules? extended fuel rest (index + 1)
        return (⟨index, first, second, others, edit⟩ :: more, rest)

/-! ### Running commands -/

structure Editing where
  text : List Char
  held : List Char
  number : Nat
  left : List Octets
  quiet : Bool
  shown : List Octets
  later : List Octets
  /-- The rules whose range has begun. -/
  begun : List Nat

/-- Why the commands for a line stop. -/
inductive Stop where
  | nextLine
  | again
  | finish (status : Nat) (shows : Bool)

def Editing.show (e : Editing) (s : Octets) : Editing :=
  { e with shown := s :: e.shown }

def Editing.atEnd (e : Editing) : Bool := e.left.isEmpty

def isAt (e : Editing) : Address → Bool
  | .number n => e.number = n
  | .last => e.atEnd
  | .fits r => (Regular.find? Regular.exactCase r e.text 0).isSome
  | .step first width =>
    if width = 0 then e.number = first else first ≤ e.number && (e.number - first) % width = 0

/-- Whether a rule is for the line, and whether its range goes on. -/
def applies (e : Editing) (rule : Rule) : Bool × Editing :=
  match rule.first, rule.second with
  | none, _ => (true, e)
  | some a, none => (isAt e a, e)
  | some a, some b =>
    let ended := { e with begun := e.begun.filter (· ≠ rule.index) }
    if e.begun.contains rule.index then
      match b with
      | .number n => if n ≤ e.number then (decide (n = e.number) || isAt e a, ended) else (true, e)
      | b => if isAt e b then (true, ended) else (true, e)
    else if isAt e a then
      match b with
      | .number n =>
        if n ≤ e.number then (true, e) else (true, { e with begun := rule.index :: e.begun })
      | _ => (true, { e with begun := rule.index :: e.begun })
    else (false, e)

def patched (cs : List Char) (f : Fit) (ps : List Patch) : List Char :=
  ps.flatMap fun
    | .text c => [c]
    | .group 0 => (cs.take f.last).drop f.first
    | .group n =>
      match f.groups.lookup n with
      | some (a, b) => (cs.take b).drop a
      | none => []

/-- Replaces fits from a place on, the first of them being the one after so many others. Where
another one has just ended, nothing does not fit. -/
def exchanges (e : Exchange) (cs : List Char) : Nat → Nat → Nat → List Char × Bool
  | 0, _, start => (cs.drop start, false)
  | fuel + 1, seen, start =>
    let same := if e.anyCase then Regular.anyCase else Regular.exactCase
    match Regular.find? same e.expression cs start with
    | none => (cs.drop start, false)
    | some f =>
      let before := (cs.take f.first).drop start
      let counts := e.nth ≤ seen + 1
      let here := if counts then patched cs f e.patches else (cs.take f.last).drop f.first
      if counts ∧ ¬ e.everywhere then (before ++ here ++ cs.drop f.last, true)
      else if f.first = f.last then
        if cs.length ≤ f.last then (before ++ here, counts)
        else
          let (more, changed) := exchanges e cs fuel (seen + 1) (f.last + 1)
          (before ++ here ++ (cs.drop f.last).take 1 ++ more, counts || changed)
      else
        let skipped := match Regular.find? same e.expression cs f.last with
          | some g => g.first == f.last && g.last == f.last
          | none => false
        if skipped then
          if cs.length ≤ f.last then (before ++ here, counts)
          else
            let (more, changed) := exchanges e cs fuel (seen + 1) (f.last + 1)
            (before ++ here ++ (cs.drop f.last).take 1 ++ more, counts || changed)
        else
          let (more, changed) := exchanges e cs fuel (seen + 1) f.last
          (before ++ here ++ more, counts || changed)

def lineText (cs : List Char) : Octets := String.ofList cs ++ "\n"

def perform (e : Editing) (edit : Edit) : Editing × Option Stop :=
  match edit with
  | .exchange x =>
    let (text, changed) := exchanges x e.text (e.text.length + 2) 0 0
    let e := { e with text := text }
    (if changed ∧ x.prints then e.show (lineText text) else e, none)
  | .print => (e.show (lineText e.text), none)
  | .firstLine => (e.show (lineText (e.text.takeWhile (· ≠ '\n'))), none)
  | .delete => (e, some .nextLine)
  | .deleteFirst =>
    if e.text.contains '\n' then
      ({ e with text := (e.text.dropWhile (· ≠ '\n')).drop 1 }, some .again)
    else (e, some .nextLine)
  | .quit status => (e, some (.finish status true))
  | .silentQuit status => (e, some (.finish status false))
  | .number => (e.show (toString e.number ++ "\n"), none)
  | .next =>
    match e.left with
    | [] => (e, some (.finish 0 true))
    | l :: rest =>
      let e := if e.quiet then e else e.show (lineText e.text)
      ({ e with text := l.toList, left := rest, number := e.number + 1 }, none)
  | .append =>
    match e.left with
    | [] => (e, some (.finish 0 true))
    | l :: rest =>
      ({ e with text := e.text ++ '\n' :: l.toList, left := rest, number := e.number + 1 }, none)
  | .hold => ({ e with held := e.text }, none)
  | .holdMore => ({ e with held := e.held ++ '\n' :: e.text }, none)
  | .fetch => ({ e with text := e.held }, none)
  | .fetchMore => ({ e with text := e.text ++ '\n' :: e.held }, none)
  | .swap => ({ e with text := e.held, held := e.text }, none)
  | .before text => (e.show text, none)
  | .after text => ({ e with later := text :: e.later }, none)
  | .instead text => (e.show text, some .nextLine)
  | .letters a b =>
    ({ e with text := e.text.map fun c =>
        match a.idxOf? c with
        | some i => b.getD i c
        | none => c }, none)
  | .block _ => (e, none)
  | .nothing => (e, none)

def runRules : Nat → List Rule → Editing → Editing × Option Stop
  | 0, _, e => (e, none)
  | _, [], e => (e, none)
  | fuel + 1, rule :: rest, e =>
    let (is, e) := applies e rule
    let here := is != rule.others
    match rule.edit with
    | .block count => runRules fuel (if here then rest else rest.drop count) e
    | edit =>
      if ¬ here then runRules fuel rest e
      else
        match perform e edit with
        | (e, none) => runRules fuel rest e
        | stopped => stopped

def finishLine (e : Editing) (shows : Bool) : Editing :=
  let e := if shows ∧ ¬ e.quiet then e.show (lineText e.text) else e
  { e with shown := e.later ++ e.shown, later := [] }

def runLines (rules : List Rule) : Nat → Bool → Editing → Editing × Nat
  | 0, _, e => (e, 0)
  | fuel + 1, fresh, e =>
    let started : Option Editing :=
      if fresh then
        match e.left with
        | [] => none
        | l :: rest => some { e with text := l.toList, left := rest, number := e.number + 1 }
      else some e
    match started with
    | none => (e, 0)
    | some e =>
      match runRules (rules.length + 1) rules e with
      | (e, none) => runLines rules fuel true (finishLine e true)
      | (e, some .nextLine) => runLines rules fuel true (finishLine e false)
      | (e, some .again) => runLines rules fuel false e
      | (e, some (.finish status shows)) => (finishLine e shows, status)

/-- The edited text; its last line ends like that of the input. -/
def edited (rules : List Rule) (quiet : Bool) (text : Octets) : Octets × Nat :=
  let lines := linesOf text
  let start : Editing := ⟨[], [], 0, lines, quiet, [], [], []⟩
  let (e, status) := runLines rules (2 * lines.length + 2 + text.length) true start
  let all := String.join e.shown.reverse
  let whole := text.isEmpty ∨ text.toList.getLast? = some '\n'
  (if whole ∨ status ≠ 0 then all else String.ofList all.toList.dropLast, status)

def sed : Tool :=
  utility ⟨"nEre:f:isz", [("quiet", 'n'), ("silent", 'n'), ("expression", 'e'),
    ("regexp-extended", 'E'), ("in-place", 'i')], 1, true⟩ fun g => do
    let (script, operands) := match g.all 'e', g.operands with
      | [], first :: rest => (some first, rest)
      | [], [] => (none, [])
      | scripts, operands => (some ("\n".intercalate scripts), operands)
    match script with
    | none =>
      Doing.complain ("Usage: " ++ (← get).called ++
        " [OPTION]... \x7bscript-only-if-no-other-script\x7d [input-file]...\n\n")
      return 1
    | some script =>
      match rules? (g.has 'E' || g.has 'r') (2 * script.length + 4) script.toList 0 with
      | none =>
        failing ("-e expression #1, char " ++ toString script.length ++ ": unknown command: " ++
          "'" ++ String.ofList (script.toList.take 1) ++ "'") 1
      | some (rules, _) =>
        if g.has 'i' then
          let statuses ← operands.mapM fun path => do
            match ← Doing.readPath path with
            | .error cause => failing ("can't read " ++ path ++ ": " ++ cause.reason) 2
            | .ok text =>
              let (text, status) := edited rules (g.has 'n') text
              discard (Doing.writePath path text .replacing)
              return status
          return statuses.foldl max 0
        else
          let operands := if operands.isEmpty then ["-"] else operands
          let (text, status) ← joinedInputs operands fun o cause =>
            if cause = .isDirectory then "couldn't edit " ++ o ++ ": not a regular file"
            else "can't read " ++ o ++ ": " ++ cause.reason
          let (text, ended) := edited rules (g.has 'n') text
          let written ← output text
          return max (max (2 * status) ended) written

end PerfGate.Utility
