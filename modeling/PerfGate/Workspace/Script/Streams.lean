import PerfGate.Workspace.Script.Expansion

/-!
# Redirected streams

The words of all redirections are expanded first. Then each of them is carried out in order,
and the first that cannot be ends the command. Afterwards the streams are as they were.
-/

set_option autoImplicit false

namespace PerfGate.Script.Streams

/-- A target whose words are expanded. -/
inductive Goal where
  | opened (path : Octets) (opening : Process.Opening) (keeps : Bool)
  | same (number : Nat)
  | closed
  | held (text : Octets)

def cause (fault : FileFault) (missing : Octets) : Octets :=
  match fault with
  | .notFound | .notDirectory => missing
  | fault => fault.reason

/-- A number that a word expands to. What is none is noticed where the script is being read. -/
def numbered (text : Octets) : Act Goal :=
  match text.toList with
  | ['-'] => return .closed
  | [c] => if c.isDigit then return .same (c.toNat - 48) else wrong
  | _ => wrong
where
  wrong : Act Goal := do
    Act.within fun s => { s with line := s.reached }
    Act.fail "Syntax error: Bad fd number"

def document (p : Powers) (id : Nat) : Act Octets := do
  let doc := (← Act.scope).documents.getD id []
  return Element.text (← Expansion.row p Expansion.depthLimit false doc)

def goal (p : Powers) : Target → Act Goal
  | .input path => do return .opened (← Expansion.text p path) .reading false
  | .output path => do return .opened (← Expansion.text p path) .replacing (← Act.isSet 'C')
  | .forced path => do return .opened (← Expansion.text p path) .replacing false
  | .appended path => do return .opened (← Expansion.text p path) .appending false
  | .both path => do return .opened (← Expansion.text p path) .both false
  | .same number => return .same number
  | .closed => return .closed
  | .named word => do numbered (← Expansion.text p word)
  | .document id => do return .held (← document p id)

/-- Whether a path leads to something that is not a file, which nothing can be lost of. -/
def isDevice (process : Process) (path : Octets) : Bool :=
  match process.tree.find process.home path with
  | .ok node =>
    match process.tree.entry node with
    | .device _ => true
    | _ => false
  | .error _ => false

def openFault {α : Type} (path : Octets) (opening : Process.Opening) (fault : FileFault) :
    Act α :=
  if opening.makes then
    Act.fail ("cannot create " ++ path ++ ": " ++ cause fault "Directory nonexistent")
  else Act.fail ("cannot open " ++ path ++ ": " ++ cause fault "No such file")

def carryOut (number : Nat) : Goal → Act Unit
  | .opened path opening keeps => do
    let process := (← get).process
    let opening :=
      if keeps ∧ ¬ isDevice process path then { opening with exclusive := true } else opening
    match process.openPath path opening with
    | .error fault => openFault path opening fault
    | .ok (stream, process) =>
      modify fun s => { s with process := process.assign number stream }
  | .same other => do
    match (← get).process.stream? other with
    | some stream => modify fun s => { s with process := s.process.assign number stream }
    | none => Act.fail (toString other ++ ": " ++ FileFault.badDescriptor.reason)
  | .closed => modify fun s => { s with process := s.process.close number }
  | .held text =>
    modify fun s =>
      let (stream, process) := s.process.openStream (.channel text)
      { s with process := process.assign number stream }

def expanded (p : Powers) (rs : List Redirection) : Act (List (Nat × Goal)) :=
  rs.mapM fun (.mk number target) => do return (number, ← goal p target)

def redirect (goals : List (Nat × Goal)) : Act Unit :=
  goals.forM fun (number, g) => carryOut number g

def restoring {α : Type} (act : Act α) : Act α := do
  let before := (← get).process.descriptors
  let result ← Act.caught act
  modify fun s => { s with process := { s.process with descriptors := before } }
  Act.resumed result

end PerfGate.Script.Streams
