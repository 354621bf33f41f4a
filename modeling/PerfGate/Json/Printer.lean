import PerfGate.Json.Decoder

/-!
# Printing JSON

Values are printed over several lines with an indent of two blanks, an empty list or object
on one line. Inside a text only quotes, backslashes and controls are escaped.
-/

set_option autoImplicit false

namespace PerfGate.Json

def hexDigits (n : Nat) : List Char :=
  Nat.toDigits 16 (n / 16) ++ Nat.toDigits 16 (n % 16)

def escaped (c : Char) : List Char :=
  if c = '"' then ['\\', '"']
  else if c = '\\' then ['\\', '\\']
  else if c = '\x08' then ['\\', 'b']
  else if c = '\x0c' then ['\\', 'f']
  else if c = '\n' then ['\\', 'n']
  else if c = '\r' then ['\\', 'r']
  else if c = '\t' then ['\\', 't']
  else if c.toNat < 32 then '\\' :: 'u' :: '0' :: '0' :: hexDigits c.toNat
  else [c]

def literalChars (s : String) : List Char :=
  '"' :: (s.toList.flatMap escaped ++ ['"'])

def numberChars : Number → List Char
  | .integer n => (toString n).toList
  | .real x => (numberText x).toList

def indent (depth : Nat) : List Char :=
  '\n' :: List.replicate (2 * depth) ' '

mutual

def Value.chars (depth : Nat) : Value → List Char
  | .null => ['n', 'u', 'l', 'l']
  | .boolean true => ['t', 'r', 'u', 'e']
  | .boolean false => ['f', 'a', 'l', 's', 'e']
  | .number n => numberChars n
  | .text s => literalChars s
  | .array [] => ['[', ']']
  | .array (v :: rest) =>
    '[' :: (indent (depth + 1) ++ v.chars (depth + 1) ++ itemChars (depth + 1) rest
      ++ indent depth ++ [']'])
  | .object [] => ['\x7b', '\x7d']
  | .object ((k, v) :: rest) =>
    '\x7b' :: (indent (depth + 1) ++ literalChars k ++ ':' :: ' ' :: v.chars (depth + 1)
      ++ memberChars (depth + 1) rest ++ indent depth ++ ['\x7d'])

def itemChars (depth : Nat) : List Value → List Char
  | [] => []
  | v :: rest => ',' :: (indent depth ++ v.chars depth ++ itemChars depth rest)

def memberChars (depth : Nat) : List (String × Value) → List Char
  | [] => []
  | (k, v) :: rest =>
    ',' :: (indent depth ++ literalChars k ++ ':' :: ' ' :: v.chars depth
      ++ memberChars depth rest)

end

def Value.pretty (v : Value) : String :=
  String.ofList (v.chars 0)

end PerfGate.Json
