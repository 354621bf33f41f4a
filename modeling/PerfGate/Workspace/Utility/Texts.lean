import PerfGate.Workspace.Utility.Options
import PerfGate.Workspace.Wildcard

/-!
# Utilities on texts

Whole inputs, their beginnings and ends, their lines in another order, and parts of each line.
-/

set_option autoImplicit false

namespace PerfGate.Utility

/-! ## Whole inputs -/

def numberedLines (blank : Bool) : List Octets → Nat → List Octets
  | [], _ => []
  | l :: rest, n =>
    if blank ∧ l.isEmpty then l :: numberedLines blank rest n
    else
      let digits := toString n
      let gap := String.ofList (List.replicate (6 - digits.length) ' ')
      (gap ++ digits ++ "\t" ++ l) :: numberedLines blank rest (n + 1)

/-- The text with its lines numbered; the end of the last line stays as it is. -/
def numberedText (blank : Bool) (text : Octets) : Octets :=
  let all := ofLines (numberedLines blank (linesOf text) 1)
  if text.toList.getLast? = some '\n' ∨ text.isEmpty then all
  else String.ofList all.toList.dropLast

def cat : Tool :=
  utility ⟨"AbeEnstTuv", [("number", 'n'), ("show-all", 'A'), ("show-ends", 'E')], 1, true⟩
    fun g => eachInput (operandsOrInput g) shownFault fun _ text => do
      let text := if g.has 'E' ∨ g.has 'A' then text.replace "\n" "$\n" else text
      let text := if g.has 'n' ∨ g.has 'b' then numberedText (g.has 'b') text else text
      output text

def tac : Tool :=
  utility ⟨"", [], 1, true⟩ fun g =>
    eachInput (operandsOrInput g)
      (fun o cause => "failed to open " ++ quotedPath o ++ " for reading: " ++ cause.reason)
      fun _ text => output (ofLines (linesOf text).reverse)

def rev : Tool :=
  utility ⟨"", [], 1, true⟩ fun g =>
    eachInput (operandsOrInput g) (fun o cause => "cannot open " ++ o ++ ": " ++ cause.reason)
      fun _ text =>
        output (ofLines ((linesOf text).map fun l => String.ofList l.toList.reverse))

def nl : Tool :=
  utility ⟨"b:d:f:h:i:l:n:ps:v:w:", [], 1, true⟩ fun g => do
    let (text, status) ← joinedInputs (operandsOrInput g) shownFault
    let plain := numberedLines (g.last? 'b' ≠ some "a") (linesOf text) 1
    let shown := plain.map fun l => if l.isEmpty then "       " else l
    return max status (← output (ofLines shown))

def tee : Tool :=
  utility ⟨"ai", [("append", 'a')], 1, true⟩ fun g => do
    match ← Doing.read 0 .all with
    | .error cause => failing ("read error: " ++ cause.reason) 1
    | .ok text =>
      let status ← output text
      let opening := if g.has 'a' then Process.Opening.appending else Process.Opening.replacing
      let statuses ← g.operands.mapM fun path => do
        match ← Doing.writePath path text opening with
        | .ok _ => return 0
        | .error cause => failing (shownFault path cause) 1
      return statuses.foldl max status

/-! ## Beginnings and ends -/

/-- How much of a text is wanted: lines or characters, from its start or its end. -/
structure Extent where
  characters : Bool
  count : Nat
  /-- All but so much, or everything from there on. -/
  others : Bool

def headOf (e : Extent) (text : Octets) : Octets :=
  let all := if e.characters then text.toList.map String.singleton
    else (linesOf text).map (· ++ "\n")
  let shown := String.join (if e.others then all.take (all.length - e.count) else all.take e.count)
  if shown.length > text.length then text else shown

def tailOf (e : Extent) (text : Octets) : Octets :=
  let all := if e.characters then text.toList.map String.singleton
    else (linesOf text).map (· ++ "\n")
  let shown := if e.others then all.drop (e.count - 1) else all.drop (all.length - e.count)
  let shown := String.join shown
  if text.toList.getLast? ≠ some '\n' ∧ ¬ e.characters ∧ ¬ shown.isEmpty then
    String.ofList shown.toList.dropLast
  else shown

def extent? (mark : Char) (g : Given) : Except Octets Extent :=
  let count (characters : Bool) (s : Octets) : Except Octets Extent :=
    let what := if characters then "bytes" else "lines"
    let (others, digits) := match s.toList with
      | c :: rest => if c = mark then (true, String.ofList rest) else (false, s)
      | [] => (false, s)
    let digits := match digits.toList with
      | c :: rest => if (c = '-' ∨ c = '+') ∧ ¬ others then String.ofList rest else digits
      | [] => digits
    match natural? digits with
    | some n => .ok ⟨characters, n, others⟩
    | none => .error ("invalid number of " ++ what ++ ": " ++ quoted s)
  match g.options.reverse.find? fun o => o.1 = 'c' ∨ o.1 = 'n' with
  | some (c, s) => count (c = 'c') s
  | none => .ok ⟨false, 10, false⟩

/-- The texts of inputs, under their names if there are several. -/
def parts (mark : Char) (part : Extent → Octets → Octets) (g : Given) :
    Doing Nat := do
  match extent? mark g with
  | .error message => do
    tell message
    return 1
  | .ok e =>
    let operands := operandsOrInput g
    let titled := (operands.length > 1 ∨ g.has 'v') ∧ ¬ g.has 'q'
    let statuses ← operands.zipIdx.mapM fun (operand, i) => do
      match ← input operand with
      | .error .isDirectory =>
        failing ("error reading " ++ quotedPath operand ++ ": Is a directory") 1
      | .error cause =>
        failing ("cannot open " ++ quotedPath operand ++ " for reading: " ++ cause.reason) 1
      | .ok text =>
        let shown := if operand = "-" then "standard input" else operand
        let gap := if i = 0 then "" else "\n"
        let title := if titled then gap ++ "==> " ++ shown ++ " <==\n" else ""
        output (title ++ part e text)
    return statuses.foldl max 0

def countWord (word : Octets) : List Octets :=
  match word.toList with
  | '-' :: c :: rest =>
    if c.isDigit ∧ rest.all Char.isDigit then ["-n", String.ofList (c :: rest)] else [word]
  | _ => [word]

def withCount (words : List Octets) : List Octets :=
  match words with
  | word :: rest => countWord word ++ rest
  | [] => []

def head : Tool := fun words =>
  utility ⟨"c:n:qv", [("lines", 'n'), ("bytes", 'c'), ("quiet", 'q'), ("verbose", 'v')], 1,
    true⟩ (parts '-' headOf) (withCount words)

def tail : Tool := fun words =>
  utility ⟨"c:n:qvf", [("lines", 'n'), ("bytes", 'c'), ("quiet", 'q'), ("verbose", 'v')], 1,
    true⟩ (parts '+' tailOf) (withCount words)

/-! ## Counting -/

structure Counts where
  lines : Nat
  words : Nat
  characters : Nat
  longest : Nat

def wordCount : Bool → List Char → Nat
  | _, [] => 0
  | inside, c :: rest =>
    if Octets.isBlank c then wordCount false rest
    else (if inside then 0 else 1) + wordCount true rest

def counts (text : Octets) : Counts where
  lines := text.toList.count '\n'
  words := wordCount false text.toList
  characters := text.length
  longest := (text.splitOn "\n").foldl (fun n l => max n l.length) 0

def Counts.plus (a b : Counts) : Counts :=
  ⟨a.lines + b.lines, a.words + b.words, a.characters + b.characters, max a.longest b.longest⟩

def chosenCounts (g : Given) (c : Counts) : List Nat :=
  if g.options.isEmpty then [c.lines, c.words, c.characters]
  else
    (if g.has 'l' then [c.lines] else []) ++ (if g.has 'w' then [c.words] else []) ++
      (if g.has 'm' then [c.characters] else []) ++ (if g.has 'c' then [c.characters] else []) ++
      (if g.has 'L' then [c.longest] else [])

def padded (width : Nat) (s : Octets) : Octets :=
  String.ofList (List.replicate (width - s.length) ' ') ++ s

/-- How wide numbers are: as the sum of the sizes of the files is, or seven if some size is not
known. One number alone is as wide as it is. -/
def countWidth (g : Given) (columns total : Nat) (known : Bool) : Nat :=
  if columns = 1 ∧ g.operands.length ≤ 1 then 1
  else if known then (toString total).length
  else 7

def countLine (g : Given) (width : Nat) (name : Octets) (c : Counts) : Octets :=
  let numbers := (chosenCounts g c).map fun n => padded width (toString n)
  " ".intercalate numbers ++ (if name.isEmpty then "" else " " ++ name) ++ "\n"

/-- A path that leads to a file, whose size is known beforehand. -/
def isSized (operand : Octets) : Doing Bool := do
  let p ← get
  match p.tree.find p.home operand with
  | .ok node =>
    return match p.tree.entry node with
      | .file .. => true
      | _ => false
  | .error cause => return cause = .notFound

def inputIsSized : Doing Bool := do
  let p ← get
  match (p.stream? 0).bind fun s => p.streams[s]? with
  | some (.node node _ _) => return ¬ p.tree.isDirectory node
  | _ => return false

def wc : Tool :=
  utility ⟨"clwmL", [("lines", 'l'), ("words", 'w'), ("bytes", 'c'), ("chars", 'm')], 1, true⟩
    fun g => do
      let operands := operandsOrInput g
      let found ← operands.mapM fun operand => do
        let sized ← if operand = "-" then inputIsSized else isSized operand
        match ← input operand with
        | .ok text => return (operand, some (counts text), none, sized)
        | .error cause => return (operand, none, some cause, sized)
      let all := (found.filterMap fun (_, c, _, _) => c).foldl Counts.plus ⟨0, 0, 0, 0⟩
      let columns := (chosenCounts g all).length
      let width := countWidth g columns all.characters (found.all fun (_, _, _, sized) => sized)
      let statuses ← found.mapM fun (operand, c, cause, _) => do
        match cause, c with
        | some .isDirectory, _ =>
          tell (operand ++ ": Is a directory")
          Doing.say (countLine g width operand ⟨0, 0, 0, 0⟩)
          return 1
        | some cause, _ => failing (shownFault operand cause) 1
        | none, some c =>
          output (countLine g width (if g.operands.isEmpty then "" else operand) c)
        | none, none => return 0
      if operands.length > 1 then Doing.say (countLine g width "total" all)
      return statuses.foldl max 0

/-! ## Order -/

def leadingNumber (s : Octets) : Int × Octets :=
  let cs := s.toList.dropWhile fun c => c = ' ' ∨ c = '\t'
  let (negative, cs) := match cs with
    | '-' :: rest => (true, rest)
    | _ => (false, cs)
  let whole := cs.takeWhile Char.isDigit
  let fraction := match cs.drop whole.length with
    | '.' :: rest => rest.takeWhile Char.isDigit
    | _ => []
  let n : Int := Json.digitsValue whole
  (if negative then -n else n, String.ofList fraction)

def numericLess (a b : Octets) : Bool :=
  let (m, f) := leadingNumber a
  let (n, g) := leadingNumber b
  m < n || (m = n && f < g)

/-- The fields of a line: between separators, or each with the blanks before it. -/
def fieldsOf (separator : Option Char) (l : Octets) : List Octets :=
  match separator with
  | some c => l.splitOn (String.singleton c)
  | none => (go l.toList [] false).map String.ofList
where
  go : List Char → List Char → Bool → List (List Char)
    | [], sofar, _ => [sofar.reverse]
    | c :: rest, sofar, inside =>
      if (c = ' ' ∨ c = '\t') ∧ inside then sofar.reverse :: go rest [c] false
      else go rest (c :: sofar) (c ≠ ' ' ∧ c ≠ '\t')

def sortKey (separator : Option Char) (key : Option Octets) (l : Octets) : Octets :=
  match key with
  | none => l
  | some k =>
    let first := k.toList.takeWhile Char.isDigit
    let second := ((k.splitOn ",").drop 1).head?.map fun s => s.toList.takeWhile Char.isDigit
    let fields := fieldsOf separator l
    let start := Json.digitsValue first - 1
    let taken := match second with
      | some n => (fields.take (Json.digitsValue n)).drop start
      | none => fields.drop start
    match separator with
    | some c => (String.singleton c).intercalate taken
    | none => String.join taken

def withoutRepeats (same : Octets → Octets → Bool) : List Octets → List Octets
  | [] => []
  | [l] => [l]
  | a :: b :: rest =>
    if same a b then withoutRepeats same (a :: rest)
    else a :: withoutRepeats same (b :: rest)
termination_by ls => ls.length

def sort : Tool :=
  utility ⟨"bcdfghik:Mmno:rRsS:t:T:uVz", [("numeric-sort", 'n'), ("reverse", 'r'),
    ("unique", 'u'), ("key", 'k'), ("field-separator", 't'), ("output", 'o')], 2, true⟩ fun g => do
    let (text, status) ← joinedInputs (operandsOrInput g)
      fun o cause =>
        (if cause = .isDirectory then "read failed: " else "cannot read: ") ++ shownFault o cause
    if status ≠ 0 then return 2
    else
      let separator := (g.last? 't').bind fun s => s.toList.head?
      let key := sortKey separator (g.last? 'k')
      let option (c : Char) : Bool :=
        g.has c || ((g.last? 'k').map fun k => k.toList.contains c).getD false
      let fold (s : Octets) : Octets :=
        if option 'f' then String.ofList (s.toList.map Char.toUpper) else s
      let less (a b : Octets) : Bool :=
        if option 'n' then numericLess (key a) (key b) else decide (fold (key a) < fold (key b))
      let less (a b : Octets) : Bool := if option 'r' then less b a else less a b
      let whole (a b : Octets) : Bool :=
        if g.has 's' ∨ g.has 'u' then false
        else if g.has 'r' then decide (b < a) else decide (a < b)
      let before (a b : Octets) : Bool :=
        if less a b then true else if less b a then false else ¬ whole b a
      let sorted := (linesOf text).mergeSort before
      let sorted := if g.has 'u' then withoutRepeats (fun a b => ¬ less a b ∧ ¬ less b a) sorted
        else sorted
      match g.last? 'o' with
      | none => output (ofLines sorted)
      | some path =>
        match ← Doing.writePath path (ofLines sorted) .replacing with
        | .ok _ => return 0
        | .error cause => failing ("open failed: " ++ shownFault path cause) 2

def runs : List Octets → List (Octets × Nat)
  | [] => []
  | l :: rest =>
    match runs rest with
    | (m, n) :: more => if l = m then (l, n + 1) :: more else (l, 1) :: (m, n) :: more
    | [] => [(l, 1)]

def uniq : Tool :=
  utility ⟨"cdiuf:s:w:", [("count", 'c'), ("repeated", 'd'), ("unique", 'u')], 1, true⟩
    fun g => do
      match ← input (g.operands.head?.getD "-") with
      | .error cause => failing (shownFault (g.operands.head?.getD "-") cause) 1
      | .ok text =>
        let found := (runs (linesOf text)).filter fun (_, n) =>
          (¬ g.has 'd' || n > 1) && (¬ g.has 'u' || n = 1)
        let shown := found.map fun (l, n) =>
          if g.has 'c' then padded 7 (toString n) ++ " " ++ l else l
        match g.operands.drop 1 with
        | path :: _ =>
          match ← Doing.writePath path (ofLines shown) .replacing with
          | .ok _ => return 0
          | .error cause => failing (shownFault path cause) 1
        | [] => output (ofLines shown)

/-! ## Parts of lines -/

/-- Ranges of numbers from one on, the last perhaps without an end. -/
def range? (s : Octets) : Option (Nat × Option Nat) :=
  match s.splitOn "-" with
  | [a] => (natural? a).map fun n => (n, some n)
  | ["", b] => (natural? b).map fun n => (1, some n)
  | [a, ""] => (natural? a).map fun n => (n, none)
  | [a, b] => do return (← natural? a, some (← natural? b))
  | _ => none

def inRanges (ranges : List (Nat × Option Nat)) (n : Nat) : Bool :=
  ranges.any fun (low, high) => low ≤ n && (high.map fun h => decide (n ≤ h)).getD true

def chosen {α : Type} (ranges : List (Nat × Option Nat)) (items : List α) : List α :=
  (items.zipIdx.filter fun (_, i) => inRanges ranges (i + 1)).map (·.1)

def cutLine (g : Given) (ranges : List (Nat × Option Nat)) (l : Octets) : Option Octets :=
  if g.has 'f' then
    let separator := String.ofList ((g.last? 'd').getD "\t").toList
    let fields := l.splitOn separator
    if fields.length ≤ 1 then if g.has 's' then none else some l
    else some ((((g.last? 'o').getD separator)).intercalate (chosen ranges fields))
  else some (String.ofList (chosen ranges l.toList))

def cut : Tool :=
  utility ⟨"b:c:d:f:no:s", [("fields", 'f'), ("delimiter", 'd'), ("characters", 'c'),
    ("bytes", 'b'), ("output-delimiter", 'o'), ("only-delimited", 's')], 1, true⟩ fun g => do
    match (g.last? 'f') <|> (g.last? 'c') <|> (g.last? 'b') with
    | none => misused "you must specify a list of bytes, characters, or fields" 1
    | some list =>
      match (list.splitOn ",").mapM range? with
      | none => misused "invalid field value" 1
      | some ranges =>
        eachInput (operandsOrInput g) shownFault fun _ text =>
          output (ofLines ((linesOf text).filterMap (cutLine g ranges)))

/-! ## Characters -/

def setOf : Nat → List Char → List Char
  | 0, _ => []
  | _, [] => []
  | fuel + 1, '[' :: ':' :: rest =>
    let name := String.ofList (rest.takeWhile Char.isAlpha)
    if name ∈ Wildcard.kinds then
      (((List.range 256).map Char.ofNat).filter (Wildcard.ofKind name)) ++
        setOf fuel (rest.drop (name.length + 2))
    else '[' :: setOf fuel (':' :: rest)
  | fuel + 1, '\\' :: c :: rest =>
    let d := match c with
      | 'n' => '\n'
      | 't' => '\t'
      | 'r' => '\r'
      | 'a' => '\x07'
      | 'b' => '\x08'
      | 'f' => '\x0c'
      | 'v' => '\x0b'
      | c => c
    let digits := ((c :: rest).take 3).takeWhile fun c => '0' ≤ c && c ≤ '7'
    if digits.isEmpty then d :: setOf fuel rest
    else Char.ofNat (digits.foldl (fun n c => n * 8 + (c.toNat - 48)) 0) ::
      setOf fuel ((c :: rest).drop digits.length)
  | fuel + 1, a :: '-' :: b :: rest =>
    ((List.range (b.toNat + 1)).drop a.toNat).map Char.ofNat ++ setOf fuel rest
  | fuel + 1, c :: rest => c :: setOf fuel rest

def setNamed (s : Octets) : List Char :=
  setOf (s.length + 1) s.toList

def complementOf (set : List Char) : List Char :=
  ((List.range 256).map Char.ofNat).filter fun c => ¬ set.contains c

/-- What takes the place of a character: the one at its place, or the last one. -/
def exchanged (old new : List Char) (c : Char) : Char :=
  match old.reverse.idxOf? c with
  | none => c
  | some i =>
    let place := old.length - 1 - i
    new.getD place (new.getLast?.getD c)

def squeezed (set : List Char) : List Char → List Char
  | a :: b :: rest =>
    if a = b ∧ set.contains a then squeezed set (b :: rest) else a :: squeezed set (b :: rest)
  | cs => cs

def tr : Tool :=
  utility ⟨"cCdst", [("delete", 'd'), ("complement", 'c'), ("squeeze-repeats", 's')], 1, false⟩
    fun g => do
      let first (s : Octets) : List Char :=
        if g.has 'c' ∨ g.has 'C' then complementOf (setNamed s) else setNamed s
      let run (f : List Char → List Char) : Doing Nat := do
        match ← Doing.read 0 .all with
        | .ok text => output (String.ofList (f text.toList))
        | .error cause => failing ("read error: " ++ cause.reason) 1
      match g.operands with
      | [] => misused "missing operand" 1
      | [a] =>
        if g.has 'd' then run fun cs => cs.filter fun c => ¬ (first a).contains c
        else if g.has 's' then run (squeezed (first a))
        else
          misused ("missing operand after " ++ quoted a ++
            "\nTwo strings must be given when translating.") 1
      | [a, b] =>
        let set := first a
        let other := setNamed b
        if g.has 'd' then run fun cs => squeezed other (cs.filter fun c => ¬ set.contains c)
        else
          run fun cs =>
            let changed := cs.map (exchanged set other)
            if g.has 's' then squeezed other changed else changed
      | _ :: _ :: extra :: _ => misused ("extra operand " ++ quoted extra) 1

end PerfGate.Utility
