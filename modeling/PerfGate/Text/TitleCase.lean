import PerfGate.Text.Alphabetic
import PerfGate.Text.LetterCase

/-!
# Title case

A letter is put in upper case where it starts a word and in lower case inside one; a word is
a run of letters. All other characters stay. Whether the preceding character was a letter is
all that has to be remembered, so a text can be cut anywhere after a character that is not a
letter and titled in parts.
-/

set_option autoImplicit false

namespace PerfGate.Text

def titleChars : Bool → List Char → List Char
  | _, [] => []
  | insideWord, c :: rest =>
    if isAlphabetic c then
      (if insideWord then lower c else upper c) ++ titleChars true rest
    else c :: titleChars false rest

def titleCase (s : String) : String :=
  String.ofList (titleChars false s.toList)

end PerfGate.Text
