import PerfGate.CommandLine.Value
import PerfGate.Text.Terminal

/-!
# Arguments by option

A command has options with long names and at most one kind of operand. An option is a flag,
asks for help or the version, or takes one value, which is attached with an equals sign or
is the next argument. After two hyphens everything is an operand. No option but the operand
may be given twice.

A value is checked when the next option or operand begins, so the first argument that cannot
be used is the one reported, unless an unknown option comes before the check.
-/

set_option autoImplicit false

namespace PerfGate.CommandLine

inductive ValueKind where
  | path
  | name
  | count
  | real
  | workload
  deriving DecidableEq, Repr

inductive Value where
  | text (s : String)
  | count (n : Nat)
  | real (x : Float)
  | workload (w : Workload)

inductive UsageError where
  | help
  | version
  | noArguments
  | missingSubcommand
  | unknownSubcommand
  | unknownArgument
  | repeated
  | missingValue
  | unneededValue
  | missingArgument
  | badValue (message : String)
  deriving DecidableEq, Repr

/-- A place for values: an option that takes one, or the operands. -/
structure Slot where
  id : String
  /-- How the slot is named in messages. -/
  label : String
  kind : ValueKind
  repeatable : Bool
  deriving DecidableEq, Repr

inductive Action where
  | flag
  | help
  | version
  | value (slot : Slot)

structure Grammar where
  /-- Options by long name. -/
  options : List (String × Action)
  /-- Single letters that stand for options. -/
  letters : List (Char × Action)
  operand : Option Slot
  subcommands : List String
  required : List String

def firstLine (s : String) : String :=
  let line := s.toList.takeWhile (· ≠ '\n')
  String.ofList (if line.getLast? = some '\r' then line.dropLast else line)

/-- The message is made for a terminal and then stripped, so a control sequence that the value
begins ends with the style of the value. -/
def badValue (slot : Slot) (raw why : String) : UsageError :=
  .badValue (firstLine (Text.plain
    ("error: invalid value '" ++ Text.styled raw ++ "' for '" ++ slot.label ++ "': " ++ why)))

def checkValue (slot : Slot) (raw : String) : Except UsageError Value :=
  match slot.kind with
  | .name => .ok (.text raw)
  | .path => if raw.isEmpty then .error .missingValue else .ok (.text raw)
  | .count =>
    match parseCount raw with
    | .ok n => .ok (.count n)
    | .error why => .error (badValue slot raw why)
  | .real =>
    match parseReal raw with
    | .ok x => .ok (.real x)
    | .error why => .error (badValue slot raw why)
  | .workload =>
    match parseWorkload raw with
    | .ok w => .ok (.workload w)
    | .error why => .error (badValue slot raw why)

structure Pending where
  slot : Slot
  raws : List String
  /-- Whether the next argument is a value, if it is not an option. -/
  open_ : Bool

/-- The arguments used so far. -/
structure Given where
  values : List (String × List Value)
  pending : Option Pending

namespace Given

def none : Given := ⟨[], .none⟩

def has (given : Given) (id : String) : Bool :=
  (given.values.lookup id).isSome

def isOpen (given : Given) : Bool :=
  match given.pending with
  | some p => p.open_
  | .none => false

def add (given : Given) (id : String) (values : List Value) : Given :=
  if given.has id then
    { given with
      values := given.values.map fun (k, vs) => (k, if k = id then vs ++ values else vs) }
  else { given with values := given.values ++ [(id, values)] }

def store (given : Given) (slot : Slot) (raws : List String) : Except UsageError Given :=
  if raws.isEmpty then .error .missingValue
  else if given.has slot.id ∧ ¬ slot.repeatable then .error .repeated
  else do
    let values ← raws.mapM (checkValue slot)
    return given.add slot.id values

def settle (given : Given) : Except UsageError Given :=
  match given.pending with
  | .none => .ok given
  | some p => store { given with pending := .none } p.slot p.raws

def act (given : Given) (id : String) : Action → Option String → Except UsageError Given
  | .value slot, some raw => do
    let given ← given.settle
    given.store slot [raw]
  | .value slot, .none => do
    let given ← given.settle
    return { given with pending := some ⟨slot, [], true⟩ }
  | _, some _ => .error .unneededValue
  | .help, .none => do
    let _ ← given.settle
    .error .help
  | .version, .none => do
    let _ ← given.settle
    .error .version
  | .flag, .none => do
    let given ← given.settle
    if given.has id then .error .repeated else return given.add id []

end Given

/-! ## Reading the arguments -/

def splitLong (cs : List Char) : String × Option String :=
  let name := String.ofList (cs.takeWhile (· ≠ '='))
  match cs.dropWhile (· ≠ '=') with
  | _ :: value => (name, some (String.ofList value))
  | [] => (name, none)

def Grammar.operandError (g : Grammar) (trailing : Bool) (arg : String) : UsageError :=
  if g.subcommands.isEmpty then .unknownArgument
  else if trailing ∧ arg ∈ g.subcommands then .unknownArgument
  else .unknownSubcommand

def Grammar.addOperand (g : Grammar) (trailing : Bool) (given : Given) (arg : String) :
    Except UsageError Given :=
  match g.operand with
  | none => .error (g.operandError trailing arg)
  | some slot =>
    match given.pending with
    | some p =>
      if p.slot = slot then .ok { given with pending := some { p with raws := p.raws ++ [arg] } }
      else do
        let given ← given.settle
        return { given with pending := some ⟨slot, [arg], false⟩ }
    | none => .ok { given with pending := some ⟨slot, [arg], false⟩ }

def Grammar.addLetters (g : Grammar) (given : Given) : List Char → Except UsageError Given
  | [] => .ok given
  | c :: rest =>
    match g.letters.lookup c with
    | none => .error .unknownArgument
    | some action => do
      let given ← given.act (String.singleton c) action none
      g.addLetters given rest

/-- One argument that is neither a subcommand nor behind two hyphens. -/
def Grammar.addArgument (g : Grammar) (given : Given) (arg : String) : Except UsageError Given :=
  match arg.toList with
  | '-' :: '-' :: name =>
    let (name, attached) := splitLong name
    match g.options.lookup name with
    | none => .error .unknownArgument
    | some action => given.act name action attached
  | '-' :: c :: rest => g.addLetters given (c :: rest)
  | _ =>
    match given.pending with
    | some p =>
      if p.open_ then
        .ok { given with pending := some { p with raws := p.raws ++ [arg], open_ := false } }
      else g.addOperand false given arg
    | none => g.addOperand false given arg

structure Split where
  given : Given
  subcommand : Option (String × List String)

def Grammar.scan (g : Grammar) : Bool → Given → List String → Except UsageError Split
  | _, given, [] => .ok ⟨given, none⟩
  | true, given, arg :: rest =>
    match g.addOperand true given arg with
    | .error e => .error e
    | .ok given => g.scan true given rest
  | false, given, arg :: rest =>
    if arg ∈ g.subcommands ∧ ¬ given.isOpen then .ok ⟨given, some (arg, rest)⟩
    else if arg = "--" then g.scan true given rest
    else
      match g.addArgument given arg with
      | .error e => .error e
      | .ok given => g.scan false given rest

/-- What has to be given is there. -/
def Grammar.complete (g : Grammar) (given : Given) : Except UsageError Given :=
  if g.required.all given.has then .ok given else .error .missingArgument

end PerfGate.CommandLine
