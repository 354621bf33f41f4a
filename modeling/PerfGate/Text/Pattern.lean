/-!
# Patterns in texts

Whether a fixed pattern occurs in a text, ends it, or how the text reads without any of its
occurrences. Occurrences are found from left to right and do not overlap.
-/

set_option autoImplicit false

namespace PerfGate.Text

def occursIn (pattern : List Char) : List Char → Bool
  | [] => pattern.isEmpty
  | c :: rest => pattern.isPrefixOf (c :: rest) || occursIn pattern rest

def contains (s pattern : String) : Bool :=
  occursIn pattern.toList s.toList

def endsWith (s ending : String) : Bool :=
  ending.toList.isSuffixOf s.toList

def stem? (s ending : String) : Option String :=
  if endsWith s ending then
    some (String.ofList (s.toList.take (s.toList.length - ending.toList.length)))
  else none

/-- Leaves out `skip` characters, and after them every occurrence of the pattern. -/
def without (pattern : List Char) : Nat → List Char → List Char
  | _, [] => []
  | skip + 1, _ :: rest => without pattern skip rest
  | 0, c :: rest =>
    if pattern.isPrefixOf (c :: rest) then without pattern (pattern.length - 1) rest
    else c :: without pattern 0 rest

def erase (s pattern : String) : String :=
  String.ofList (without pattern.toList 0 s.toList)

end PerfGate.Text
