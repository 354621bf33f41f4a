import PerfGate.Workspace.Script.Builtin.Words

/-!
# Commands on variables

Setting, exporting, keeping and dropping variables; the arguments and the options of the shell;
a line of input and the options of a script.
-/

set_option autoImplicit false

namespace PerfGate.Script.Builtin

open Act

/-! ## Lists of variables -/

def listed (start : Octets) (which : Variable → Bool) : Act Octets := do
  let found := (← scope).bindings.filter fun (_, v) => which v
  let lines := found.filterMap fun (name, v) =>
    match v.value with
    | some value => some (name, start ++ name ++ "=" ++ quoted value ++ "\n")
    | none => if start.isEmpty then none else some (name, start ++ name ++ "\n")
  let lines := lines.mergeSort fun a b => ¬ (b.1 < a.1)
  return String.join (lines.map (·.2))

def valid (name : Octets) : Act Unit :=
  if isName name then pure () else fail (name ++ ": bad variable name")

def declare (start : Octets) (which : Variable → Bool) (mark : Octets → Act Unit) : Body :=
  fun words => do
    let (found, words) ← options "p" words
    if ¬ found.isEmpty ∨ words.isEmpty then print (← listed start which)
    else
      words.forM fun word => do
        match assignment? word with
        | some (name, value) =>
          assign name value
          mark name
        | none =>
          let name := String.ofList (word.toList.takeWhile (· ≠ '='))
          valid name
          mark name
      return 0

def exporting : Body :=
  declare "export " (·.exported) exportVariable

def fixing : Body :=
  declare "readonly " (·.fixed) fixVariable

def owning : Body := fun words => do
  if (← scope).kept.isEmpty then fail "not in a function"
  else
    words.forM fun word => do
      match assignment? word with
      | some (name, value) =>
        keep name
        assign name value
      | none =>
        valid word
        keep word
    return 0

def unsetting : Body := fun words => do
  let (found, words) ← options "vf" words
  let functions := found.any fun o => o.1 = 'f'
  words.forM fun name => do
    if functions then
      within fun s => { s with functions := s.functions.filter (·.1 ≠ name) }
    else
      valid name
      unset name
  return 0

/-! ## Options of the shell -/

def optionNames : List (Octets × Char) := [
  ("errexit", 'e'), ("noglob", 'f'), ("ignoreeof", 'I'), ("interactive", 'i'),
  ("monitor", 'm'), ("noexec", 'n'), ("stdin", 's'), ("xtrace", 'x'), ("verbose", 'v'),
  ("vi", 'V'), ("emacs", 'E'), ("noclobber", 'C'), ("allexport", 'a'), ("notify", 'b'),
  ("nounset", 'u'), ("privileged", 'p'), ("nolog", '\x01'), ("debug", '\x02')]

def sign (on : Bool) : Octets := if on then "-" else "+"

def setNamed (name : Octets) (on : Bool) : Act Unit :=
  match optionNames.lookup name with
  | some c => setOption c on
  | none => fail ("Illegal option " ++ sign on ++ "o " ++ name)

def setLetter (c : Char) (on : Bool) : Act Unit :=
  if (optionNames.map (·.2)).contains c ∧ c > ' ' then setOption c on
  else fail ("Illegal option -" ++ letter c)

def optionTable : Act Octets := do
  let s ← scope
  let lines := optionNames.map fun (name, c) =>
    let blanks := String.ofList (List.replicate (16 - name.length) ' ')
    name ++ blanks ++ (if s.options.contains c then "on" else "off") ++ "\n"
  return "Current option settings\n" ++ String.join lines

def optionCommands : Act Octets := do
  let s ← scope
  return String.join (optionNames.map fun (name, c) =>
    "set " ++ sign (s.options.contains c) ++ "o " ++ name ++ "\n")

def applyLetters (on : Bool) : List Char → List Octets → Act (List Octets)
  | [], words => return words
  | 'o' :: letters, words =>
    match words with
    | name :: rest => do
      setNamed name on
      applyLetters on letters rest
    | [] => do
      discard (print (← if on then optionTable else optionCommands))
      applyLetters on letters []
  | c :: letters, words => do
    setLetter c on
    applyLetters on letters words

/-- Sets options, and the arguments if there are words left or an end of the options. -/
def applyOptions : Nat → List Octets → Act (Option (List Octets))
  | 0, _ => return none
  | _, [] => return none
  | fuel + 1, word :: rest =>
    match word.toList with
    | ['-'] => do
      setOption 'x' false
      setOption 'v' false
      return if rest.isEmpty then none else some rest
    | ['-', '-'] => return some rest
    | '-' :: letters => do applyOptions fuel (← applyLetters true letters rest)
    | '+' :: letters => do applyOptions fuel (← applyLetters false letters rest)
    | _ => return some (word :: rest)

def setArguments (words : List Octets) : Act Unit :=
  within fun s => { s with arguments := words, nextOption := .start }

def setting : Body := fun words => do
  if words.isEmpty then print (← listed "" fun _ => true)
  else
    match ← applyOptions (words.length + 1) words with
    | some words => setArguments words
    | none => pure ()
    return 0

def shifting : Body := fun words => do
  let n ← match words with
    | word :: _ => natural word
    | [] => pure 1
  let arguments := (← scope).arguments
  if arguments.length < n then fail "can't shift that many"
  else
    setArguments (arguments.drop n)
    return 0

/-! ## A line of input -/

/-- A line and whether its end was there; a backslash quotes a character or joins lines. -/
def inputLine (raw : Bool) : Nat → Act (List (Char × Bool) × Bool)
  | 0 => return ([], false)
  | fuel + 1 => do
    match ← doing (Doing.read 0 .line) with
    | .error _ => return ([], false)
    | .ok text =>
      let (cs, ended, joins) := marks raw text.toList
      if joins then
        let (more, ended) ← inputLine raw fuel
        return (cs ++ more, ended)
      else return (cs, ended)
where
  /-- Characters and whether they can separate; whether the line ended, or is joined. -/
  marks (raw : Bool) : List Char → List (Char × Bool) × Bool × Bool
    | [] => ([], false, false)
    | '\n' :: _ => ([], true, false)
    | '\\' :: rest =>
      if raw then
        let (cs, e, j) := marks raw rest
        (('\\', true) :: cs, e, j)
      else
        match rest with
        | [] => ([], false, false)
        | '\n' :: _ => ([], false, true)
        | c :: rest =>
          let (cs, e, j) := marks raw rest
          ((c, false) :: cs, e, j)
    | c :: rest =>
      let (cs, e, j) := marks raw rest
      ((c, true) :: cs, e, j)

def isBlankMark (separators : List Char) (m : Char × Bool) : Bool :=
  m.2 && separators.contains m.1 && (m.1 = ' ' || m.1 = '\t' || m.1 = '\n')

def isMark (separators : List Char) (m : Char × Bool) : Bool :=
  m.2 && separators.contains m.1

/-- As many fields as there are names; the last one is all that is left, without blanks at
its end. -/
def inputFields (separators : List Char) : Nat → List (Char × Bool) → List Octets
  | 0, _ => []
  | n + 1, cs =>
    let cs := cs.dropWhile (isBlankMark separators)
    let field := cs.takeWhile fun m => ¬ isMark separators m
    let left := (cs.drop field.length).dropWhile (isBlankMark separators)
    let left := match left with
      | m :: rest =>
        if isMark separators m then rest.dropWhile (isBlankMark separators) else left
      | [] => []
    if n = 0 then
      let all := (cs.reverse.dropWhile (isBlankMark separators)).reverse
      [String.ofList ((if left.isEmpty then field else all).map (·.1))]
    else String.ofList (field.map (·.1)) :: inputFields separators n left

def reading : Body := fun words => do
  let (found, names) ← options "p:r" words
  if names.isEmpty then fail "arg count"
  else
    let (cs, ended) ← inputLine (found.any fun o => o.1 = 'r') 0x10000
    let fields := inputFields (← separators).toList names.length cs
    (names.zip fields).forM fun (name, value) => do
      valid name
      assign name value
    return if ended then 0 else 1

/-! ## Options of a script -/

/-- What a letter is among those that are known. -/
inductive Known where
  | alone
  | withArgument
  | unknown

def known (letters : List Char) (c : Char) : Known :=
  match (if letters.head? = some ':' then letters.drop 1 else letters).dropWhile (· ≠ c) with
  | [] => .unknown
  | _ :: ':' :: _ => .withArgument
  | _ => if c = ':' then .unknown else .alone

/-- What is left of the argument that was read last. -/
def unread (arguments : List Octets) (place : OptionPlace) : List Char :=
  match place.offset with
  | some n => if place.index ≤ 1 then [] else ((arguments[place.index - 2]?).getD "").toList.drop n
  | none => []

/-- The letter that comes next, what follows it in its argument, and the number of the next
argument; nothing at the end. -/
def nextLetter (arguments : List Octets) (place : OptionPlace) :
    Option (Char × List Char) × Nat :=
  match unread arguments place with
  | c :: rest => (some (c, rest), place.index)
  | [] =>
    match (arguments[place.index - 1]?).map String.toList with
    | some ['-', '-'] => (none, place.index + 1)
    | some ('-' :: c :: rest) => (some (c, rest), place.index + 1)
    | _ => (none, place.index)

/-- Sets what the script sees of an option, and where to go on. -/
def finishOption (name : Octets) (value : Char) (place : OptionPlace) : Act Unit := do
  store "OPTIND" (toString place.index)
  valid name
  assign name (letter value)
  within fun s => { s with nextOption := place }

/-- An option that needs an argument: the rest of its word, or the next word. -/
def optionWithArgument (quiet : Bool) (arguments : List Octets) (name : Octets) (c : Char)
    (rest : List Char) (index : Nat) : Act Nat := do
  if ¬ rest.isEmpty then
    assign "OPTARG" (String.ofList rest)
    finishOption name c ⟨index, none⟩
  else
    match arguments[index - 1]? with
    | some value =>
      assign "OPTARG" value
      finishOption name c ⟨index + 1, none⟩
    | none =>
      if quiet then
        assign "OPTARG" (letter c)
        finishOption name ':' ⟨index, none⟩
      else
        doing (Doing.complain ("No arg for -" ++ letter c ++ " option\n"))
        unset "OPTARG"
        finishOption name '?' ⟨index, none⟩
  return 0

def nextOption : Body := fun words => do
  match words with
  | letters :: name :: given =>
    let s ← scope
    let arguments := if given.isEmpty then s.arguments else given
    let place := if arguments.length + 1 < s.nextOption.index then .start else s.nextOption
    let quiet := letters.toList.head? = some ':'
    match nextLetter arguments place with
    | (none, index) =>
      finishOption name '?' ⟨index, none⟩
      return 1
    | (some (c, rest), index) =>
      let offset := ((arguments[index - 2]?).getD "").length - rest.length
      match known letters.toList c with
      | .withArgument => optionWithArgument quiet arguments name c rest index
      | .alone =>
        assign "OPTARG" ""
        finishOption name c ⟨index, some offset⟩
        return 0
      | .unknown =>
        if quiet then assign "OPTARG" (letter c)
        else
          doing (Doing.complain ("Illegal option -" ++ letter c ++ "\n"))
          unset "OPTARG"
        finishOption name '?' ⟨index, some offset⟩
        return 0
  | _ => fail "Usage: getopts optstring var [arg]"

end PerfGate.Script.Builtin
