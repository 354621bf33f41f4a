import PerfGate.Text.Visible

/-!
# Quoted texts

A text inside a message is put between double quotes. Quotes and backslashes are escaped,
the common controls have names, and every other character that would not be seen is written
by its number in lower-case hexadecimal.
-/

set_option autoImplicit false

namespace PerfGate.Text

def numbered (c : Char) : List Char :=
  '\\' :: 'u' :: '\x7b' :: (Nat.toDigits 16 c.toNat ++ ['\x7d'])

def quotedChar (c : Char) : List Char :=
  if c = '\x00' then ['\\', '0']
  else if c = '\t' then ['\\', 't']
  else if c = '\r' then ['\\', 'r']
  else if c = '\n' then ['\\', 'n']
  else if c = '\\' then ['\\', '\\']
  else if c = '"' then ['\\', '"']
  else if isVisible c then [c]
  else numbered c

def quoted (s : String) : String :=
  String.ofList ('"' :: (s.toList.flatMap quotedChar ++ ['"']))

end PerfGate.Text
