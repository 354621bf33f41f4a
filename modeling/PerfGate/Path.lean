/-!
# Paths

A path is a text in which slashes separate names; one that begins with a slash starts at the
root. Empty names and single dots between slashes mean nothing.
-/

set_option autoImplicit false

namespace PerfGate.Path

def isAbsolute (path : String) : Bool :=
  path.toList.head? = some '/'

/-- The second path as seen from the first; one that starts at the root stays as it is. -/
def joined (directory path : String) : String :=
  if isAbsolute path ∨ directory.isEmpty then path
  else if directory.toList.getLast? = some '/' then directory ++ path
  else directory ++ "/" ++ path

/-- The names between the slashes, the empty ones included. -/
def segments : List Char → List (List Char)
  | [] => [[]]
  | c :: rest =>
    if c = '/' then [] :: segments rest
    else
      match segments rest with
      | [] => [[c]]
      | name :: names => (c :: name) :: names

def isIdle (name : List Char) : Bool :=
  name.isEmpty || name = ['.']

def withoutTrailingIdle (names : List (List Char)) : List (List Char) :=
  (names.reverse.dropWhile isIdle).reverse

/-- The slash or the dot that a path starts with, and the rest. -/
def splitStart : List Char → List Char × List Char
  | '/' :: rest => (['/'], rest)
  | ['.'] => (['.'], [])
  | '.' :: '/' :: rest => (['.'], '/' :: rest)
  | cs => ([], cs)

/-- The path without its last name; neither the root nor the empty path has a parent. -/
def parent? (path : String) : Option String :=
  let (start, rest) := splitStart path.toList
  match withoutTrailingIdle (segments rest) with
  | [] => if start = ['.'] then some "" else none
  | names =>
    let above := withoutTrailingIdle names.dropLast
    some (String.ofList (start ++ List.intercalate ['/'] above))

end PerfGate.Path
