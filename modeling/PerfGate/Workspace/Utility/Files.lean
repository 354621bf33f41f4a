import PerfGate.Workspace.Utility.Options
import PerfGate.Workspace.Wildcard

/-!
# Utilities on files

Making, removing, copying, moving, naming and listing files and directories.
-/

set_option autoImplicit false

namespace PerfGate.Utility

/-! ## Names -/

def withoutTrailingSlashes (path : Octets) : List Char :=
  (path.toList.reverse.dropWhile (· = '/')).reverse

/-- The last name of a path, and the root for a path of slashes. -/
def lastName (path : Octets) : Octets :=
  let cs := withoutTrailingSlashes path
  if cs.isEmpty then (if path.isEmpty then "" else "/")
  else String.ofList (cs.reverse.takeWhile (· ≠ '/')).reverse

def directoryName (path : Octets) : Octets :=
  let cs := withoutTrailingSlashes path
  if cs.isEmpty then (if path.isEmpty then "." else "/")
  else
    let above := (cs.reverse.dropWhile (· ≠ '/')).dropWhile (· = '/')
    if cs.contains '/' then (if above.isEmpty then "/" else String.ofList above.reverse) else "."

def withoutSuffix (suffix name : Octets) : Octets :=
  if ¬ suffix.isEmpty ∧ suffix ≠ name ∧ suffix.toList.isSuffixOf name.toList then
    String.ofList (name.toList.take (name.length - suffix.length))
  else name

def basename : Tool :=
  utility ⟨"as:z", [("multiple", 'a'), ("suffix", 's')], 1, false⟩ fun g =>
    match g.operands with
    | [] => misused "missing operand" 1
    | names =>
      if g.has 'a' ∨ g.has 's' then
        output (ofLines (names.map fun n =>
          withoutSuffix ((g.last? 's').getD "") (lastName n)))
      else
        match names with
        | [n] => output (lastName n ++ "\n")
        | [n, suffix] => output (withoutSuffix suffix (lastName n) ++ "\n")
        | _ => misused ("extra operand " ++ quoted ((names.drop 2).head?.getD "")) 1

def dirname : Tool :=
  utility ⟨"z", [], 1, true⟩ fun g =>
    match g.operands with
    | [] => misused "missing operand" 1
    | names => output (ofLines (names.map directoryName))

/-! ## Making -/

def makeAbove (path : Octets) : Doing (Except (Octets × FileFault) Unit) := do
  let names := (Tree.segments path).filter (¬ ·.isEmpty)
  let start := if Path.isAbsolute path then "/" else ""
  go start names
where
  go (sofar : Octets) : List Octets → Doing (Except (Octets × FileFault) Unit)
    | [] => return .ok ()
    | name :: rest => do
      let path := if sofar.isEmpty ∨ sofar = "/" then sofar ++ name else sofar ++ "/" ++ name
      let p ← get
      match p.tree.find p.home path with
      | .ok node =>
        if p.tree.isDirectory node then go path rest
        else if rest.isEmpty then return .error (path, .alreadyExists)
        else return .error (path, .notDirectory)
      | .error _ =>
        match ← Doing.change fun t home => t.makeOne home path with
        | .error cause => return .error (path, cause)
        | .ok _ => go path rest

def mkdir : Tool :=
  utility ⟨"m:pv", [("parents", 'p'), ("mode", 'm')], 1, true⟩ fun g =>
    if g.operands.isEmpty then misused "missing operand" 1
    else do
      let statuses ← g.operands.mapM fun path => do
        let result ← if g.has 'p' then makeAbove path
          else do
            match ← Doing.change fun t home => t.makeOne home path with
            | .ok _ => pure (.ok ())
            | .error cause => pure (.error (path, cause))
        match result with
        | .ok _ => return 0
        | .error (path, cause) =>
          failing ("cannot create directory " ++ quoted path ++ ": " ++ cause.reason) 1
      return statuses.foldl max 0

def touch : Tool :=
  utility ⟨"acd:fmr:t:", [("no-create", 'c'), ("date", 'd')], 1, true⟩ fun g =>
    if g.operands.isEmpty then misused "missing file operand" 1
    else do
      let statuses ← g.operands.mapM fun path => do
        let p ← get
        if p.tree.present p.home path ∨ g.has 'c' then return 0
        else
          match ← Doing.writePath path "" .appending with
          | .ok _ => return 0
          | .error cause =>
            failing ("cannot touch " ++ quotedPath path ++ ": " ++ cause.reason) 1
      return statuses.foldl max 0

/-! ## Removing -/

def removeAll (t : Tree) (home : Nat) (path : Octets) : Except FileFault Tree := do
  match ← t.locateBy false home path with
  | .itself _ => .error .invalid
  | .name directory name _ => return t.unbind directory name

def isDot (path : Octets) : Bool :=
  let name := lastName path
  name = "." || name = ".."

def removeOne (g : Given) (path : Octets) : Doing Nat := do
  let fault (cause : FileFault) : Doing Nat :=
    failing ("cannot remove " ++ quotedPath path ++ ": " ++ cause.reason) 1
  let p ← get
  let everything := g.has 'r' ∨ g.has 'R'
  if everything ∧ isDot path then
    failing ("refusing to remove '.' or '..' directory: skipping " ++ quotedPath path) 1
  else
    match p.tree.findSelf p.home path with
    | .error cause =>
      if g.has 'f' ∧ (cause = .notFound ∨ cause = .notDirectory) then return 0 else fault cause
    | .ok node =>
      if p.tree.isDirectory node ∧ ¬ everything then
        if g.has 'd' then
          match ← Doing.change (fun t home => t.removeDirectory home path) with
          | .ok _ => return 0
          | .error cause => fault cause
        else fault .isDirectory
      else
        match ← Doing.change fun t home => removeAll t home path with
        | .ok _ => return 0
        | .error cause => fault cause

def rm : Tool :=
  utility ⟨"dfiIrRv", [("force", 'f'), ("recursive", 'r'), ("dir", 'd')], 1, true⟩ fun g =>
    if g.operands.isEmpty then
      if g.has 'f' then pure 0 else misused "missing operand" 1
    else do
      let statuses ← g.operands.mapM (removeOne g)
      return statuses.foldl max 0

def rmdir : Tool :=
  utility ⟨"pv", [("ignore-fail-on-non-empty", 'i')], 1, true⟩ fun g =>
    if g.operands.isEmpty then misused "missing operand" 1
    else do
      let statuses ← g.operands.mapM fun path => do
        match ← Doing.change fun t home => t.removeDirectory home path with
        | .ok _ => return 0
        | .error cause =>
          failing ("failed to remove " ++ quotedPath path ++ ": " ++ cause.reason) 1
      return statuses.foldl max 0

/-! ## Copying and moving -/

/-- Copies a node to a name, with all that is below it. -/
def copyNode : Nat → Tree → Nat → Nat → Octets → Tree
  | 0, t, _, _, _ => t
  | fuel + 1, t, node, directory, name =>
    match t.entry node with
    | .directory _ names =>
      let (t, place) := match t.child? directory name with
        | some place => (t, place)
        | none => t.add directory name (.directory directory [])
      names.foldl (fun t (below, child) => copyNode fuel t child place below) t
    | e =>
      match t.child? directory name with
      | some place =>
        match t.entry place, e with
        | .file _ executable, .file text _ => t.put place (.file text executable)
        | _, _ => t
      | none => (t.add directory name e).1

/-- Where something goes: below a directory under its own name, or to a name. -/
def destination (goal operand : Octets) (p : Process) : Octets :=
  if p.tree.leadsToDirectory p.home goal then
    (if goal.toList.getLast? = some '/' then goal else goal ++ "/") ++ lastName operand
  else goal

/-- Does something with each operand but the last, which says where to. -/
def toLast (g : Given) (body : Octets → Octets → Doing Nat) : Doing Nat := do
  let operands := match g.last? 't' with
    | some goal => g.operands ++ [goal]
    | none => g.operands
  match operands with
  | [] => misused "missing file operand" 1
  | [only] => misused ("missing destination file operand after " ++ quotedPath only) 1
  | _ =>
    let goal := operands.getLast?.getD ""
    let p ← get
    if operands.length > 2 ∧ ¬ p.tree.leadsToDirectory p.home goal then
      let cause := match p.tree.find p.home goal with
        | .error cause => cause
        | .ok _ => .notDirectory
      failing ("target " ++ quotedPath goal ++ ": " ++ cause.reason) 1
    else
      let statuses ← operands.dropLast.mapM fun operand => do
        body operand (destination goal operand (← get))
      return statuses.foldl max 0

def sameAs (p : Process) (a b : Octets) : Bool :=
  match p.tree.find p.home a, p.tree.find p.home b with
  | .ok m, .ok n => m = n
  | _, _ => false

def sameFile (a b : Octets) : Doing Nat :=
  failing (quotedPath a ++ " and " ++ quotedPath b ++ " are the same file") 1

def copyOne (g : Given) (source goal : Octets) : Doing Nat := do
  let p ← get
  match p.tree.find p.home source with
  | .error cause => failing ("cannot stat " ++ quotedPath source ++ ": " ++ cause.reason) 1
  | .ok node =>
    let everything := g.has 'r' ∨ g.has 'R' ∨ g.has 'a'
    if p.tree.isDirectory node ∧ ¬ everything then
      failing ("-r not specified; omitting directory " ++ quotedPath source) 1
    else if sameAs p source goal then sameFile source goal
    else if g.has 'n' ∧ p.tree.present p.home goal then return 0
    else
      match p.tree.locate p.home goal with
      | .ok (.name directory name slash) =>
        if slash ∧ ¬ p.tree.isDirectory node then
          failing ("cannot create regular file " ++ quotedPath goal ++ ": Not a directory") 1
        else
          match p.tree.entry node with
          | .device _ =>
            match ← Doing.readPath source with
            | .ok text =>
              discard (Doing.writePath goal text .replacing)
              return 0
            | .error cause =>
              failing ("cannot open " ++ quotedPath source ++ " for reading: " ++ cause.reason) 1
          | _ =>
            set { p with tree := copyNode 0x1000 p.tree node directory name }
            return 0
      | .ok (.itself _) => return 0
      | .error cause =>
        failing ("cannot create regular file " ++ quotedPath goal ++ ": " ++ cause.reason) 1

def cp : Tool :=
  utility ⟨"adfinpPrRt:uv", [("recursive", 'r'), ("archive", 'a'), ("force", 'f'),
    ("no-clobber", 'n')], 1, true⟩ fun g => toLast g (copyOne g)

def moveNode (t : Tree) (home : Nat) (source goal : Octets) : Except FileFault Tree := do
  match ← t.locateBy false home source, ← t.locateBy false home goal with
  | .name old name _, .name new other _ =>
    match t.child? old name with
    | none => .error .notFound
    | some node => return (t.unbind old name).bind new other node
  | _, _ => .error .invalid

def moveOne (g : Given) (source goal : Octets) : Doing Nat := do
  let p ← get
  match p.tree.findSelf p.home source with
  | .error cause => failing ("cannot stat " ++ quotedPath source ++ ": " ++ cause.reason) 1
  | .ok _ =>
    if sameAs p source goal then sameFile source goal
    else if g.has 'n' ∧ p.tree.present p.home goal then return 0
    else
      match ← Doing.change fun t home => moveNode t home source goal with
      | .ok _ => return 0
      | .error cause =>
        failing ("cannot move " ++ quotedPath source ++ " to " ++ quotedPath goal ++ ": " ++
          cause.reason) 1

def mv : Tool :=
  utility ⟨"finut:v", [("force", 'f'), ("no-clobber", 'n')], 1, true⟩
    fun g => toLast g (moveOne g)

/-- Gives a node one more name, or makes a link that leads to it. -/
def linkOne (g : Given) (target name : Octets) : Doing Nat := do
  let p ← get
  let kind := if g.has 's' then "symbolic" else "hard"
  let fault (cause : FileFault) : Doing Nat :=
    failing ("failed to create " ++ kind ++ " link " ++ quotedPath name ++ ": " ++ cause.reason) 1
  let removed := if g.has 'f' then
      match p.tree.unlink p.home name with
      | .ok tree => tree
      | .error _ => p.tree
    else p.tree
  match removed.locateBy false p.home name with
  | .error cause => fault cause
  | .ok (.itself _) => fault .alreadyExists
  | .ok (.name directory name _) =>
    if (removed.child? directory name).isSome then fault .alreadyExists
    else if g.has 's' then
      set { p with tree := (removed.add directory name (.link target)).1 }
      return 0
    else
      match removed.find p.home target with
      | .error cause => failing ("failed to access " ++ quotedPath target ++ ": " ++ cause.reason) 1
      | .ok node =>
        set { p with tree := removed.bind directory name node }
        return 0

def ln : Tool :=
  utility ⟨"finst:v", [("symbolic", 's'), ("force", 'f')], 1, true⟩ fun g => do
    match g.operands with
    | [] => misused "missing file operand" 1
    | [target] => linkOne g target (lastName target)
    | _ => toLast g (linkOne g)

/-! ## Rights -/

/-- Whether a mode makes a file executable; nothing if it says nothing about that. -/
def executes? (mode : Octets) : Option (Option Bool) :=
  match natural? mode with
  | some _ => some (some (mode.toList.any fun c => c ∈ ['1', '3', '5', '7']))
  | none =>
    let change (clause : List Char) : Option Bool :=
      if clause.contains 'x' ∨ clause.contains 'X' then
        if clause.contains '-' then some false else some true
      else if clause.contains '=' then some false
      else none
    if mode.toList.any fun c => c ∈ ['+', '-', '='] then
      some (((mode.splitOn ",").map fun m => change m.toList).foldl (fun a b => b <|> a) none)
    else none

def chmod : Tool := fun words =>
  let (modes, words) := words.partition fun w =>
    match w.toList with
    | '-' :: c :: _ => c ∈ ['r', 'w', 'x']
    | _ => false
  utility ⟨"cfvR", [("recursive", 'R')], 1, true⟩ (fun g =>
    match modes ++ g.operands with
    | [] => misused "missing operand" 1
    | [mode] => misused ("missing operand after " ++ quoted mode) 1
    | mode :: paths => do
      match executes? mode with
      | none => misused ("invalid mode: " ++ quoted mode) 1
      | some change =>
        let statuses ← paths.mapM fun path => do
          let p ← get
          match p.tree.find p.home path with
          | .error cause => failing ("cannot access " ++ quotedPath path ++ ": " ++ cause.reason) 1
          | .ok node =>
            match p.tree.entry node, change with
            | .file text _, some executable =>
              set { p with tree := p.tree.put node (.file text executable) }
              return 0
            | _, _ => return 0
        return statuses.foldl max 0) words

/-! ## Listing -/

def isHidden (name : Octets) : Bool := name.toList.head? = some '.'

def namesIn (g : Given) (t : Tree) (directory : Nat) : List Octets :=
  let all := (t.names directory).map (·.1)
  let all := if g.has 'a' then "." :: ".." :: all
    else if g.has 'A' then all
    else all.filter (¬ isHidden ·)
  let sorted := all.mergeSort fun a b => ¬ (b < a)
  if g.has 'r' then sorted.reverse else sorted

def marked (g : Given) (t : Tree) (home : Nat) (path shown : Octets) : Octets :=
  if (g.has 'p' ∨ g.has 'F') ∧ t.leadsToDirectory home path then shown ++ "/" else shown

def ls : Tool :=
  utility ⟨"1aAcCdfFghiklmnopqrRsStuUvx", [("all", 'a'), ("almost-all", 'A'), ("directory", 'd'),
    ("reverse", 'r')], 2, true⟩ fun g => do
    let operands := if g.operands.isEmpty then ["."] else g.operands
    let operands := operands.mergeSort fun a b => ¬ (b < a)
    let statuses ← operands.mapM fun path => do
      let p ← get
      match p.tree.find p.home path with
      | .ok _ => return 0
      | .error cause => failing ("cannot access " ++ quotedPath path ++ ": " ++ cause.reason) 2
    let p ← get
    let isListed (path : Octets) : Bool := p.tree.leadsToDirectory p.home path ∧ ¬ g.has 'd'
    let there := operands.filter fun path => p.tree.present p.home path
    let files := there.filter fun path => ¬ isListed path
    let directories := there.filter isListed
    let own := ofLines (files.map fun path => marked g p.tree p.home path path)
    let lists := directories.map fun path =>
      let names := match p.tree.find p.home path with
        | .ok node => namesIn g p.tree node
        | .error _ => []
      let shown := ofLines (names.map fun n => marked g p.tree p.home (path ++ "/" ++ n) n)
      if operands.length > 1 then path ++ ":\n" ++ shown else shown
    let blocks := (if files.isEmpty then [] else [own]) ++ lists
    let status ← output ("\n".intercalate blocks)
    return statuses.foldl max status

/-! ## Finding -/

/-- What is asked of a path that is found. -/
inductive Test where
  | named (pattern : List Wildcard.Part)
  | file
  | directory
  | link

def Test.holds (t : Tree) (node : Nat) (path : Octets) : Test → Bool
  | .named pattern => Wildcard.fits pattern (lastName path).toList
  | .file =>
    match t.entry node with
    | .file .. => true
    | _ => false
  | .directory => t.isDirectory node
  | .link =>
    match t.entry node with
    | .link _ => true
    | _ => false

def pathsBelow (t : Tree) : Nat → Nat → Octets → List (Octets × Nat)
  | 0, node, path => [(path, node)]
  | depth + 1, node, path =>
    let start := if path.toList.getLast? = some '/' then path else path ++ "/"
    (path, node) :: (t.names node).flatMap fun (name, child) =>
      pathsBelow t depth child (start ++ name)

structure Quest where
  depth : Nat
  tests : List Test

def quest? : List Octets → Except Octets Quest
  | [] => .ok ⟨0x1000, []⟩
  | "-name" :: pattern :: rest => do
    let q ← quest? rest
    let parts := Wildcard.ofInked (pattern.toList.map fun c => (c, false))
    return { q with tests := .named parts :: q.tests }
  | "-type" :: kind :: rest => do
    let q ← quest? rest
    let test := if kind = "d" then Test.directory else if kind = "l" then .link else .file
    return { q with tests := test :: q.tests }
  | "-maxdepth" :: n :: rest => do
    let q ← quest? rest
    return { q with depth := (natural? n).getD 0 }
  | "-print" :: rest => quest? rest
  | word :: _ => .error ("unknown predicate " ++ "\x60" ++ word ++ "'")

def find : Tool := fun words => do
  let isTest (w : Octets) : Bool := w.toList.head? = some '-'
  let paths := words.takeWhile (¬ isTest ·)
  match quest? (words.drop paths.length) with
  | .error message => failing message 1
  | .ok q =>
    let statuses ← (if paths.isEmpty then ["."] else paths).mapM fun path => do
      let p ← get
      match p.tree.findSelf p.home path with
      | .error cause => failing (quoted path ++ ": " ++ cause.reason) 1
      | .ok node =>
        let found := (pathsBelow p.tree q.depth node path).filter fun (path, node) =>
          q.tests.all fun test => test.holds p.tree node path
        output (ofLines (found.map (·.1)))
    return statuses.foldl max 0

end PerfGate.Utility
