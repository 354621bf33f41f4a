/-!
# Octets

Files, paths and streams hold bytes. A sequence of bytes is written as a text in which each
character is the one with the number of the byte, so none is beyond 255. A proper text is
encoded in UTF-8; bytes are decoded strictly, or with a replacement for each stretch that
cannot be part of a character.
-/

set_option autoImplicit false

namespace PerfGate

abbrev Octets := String

namespace Octets

def ofBytes (bytes : List Nat) : Octets :=
  String.ofList (bytes.map Char.ofNat)

def bytes (o : Octets) : List Nat :=
  o.toList.map Char.toNat

def isBlank (c : Char) : Bool :=
  c = ' ' || ('\t' ≤ c && c ≤ '\r')

/-! ## Encoding -/

def encodeChar (c : Char) : List Nat :=
  let n := c.toNat
  if n < 0x80 then [n]
  else if n < 0x800 then [0xC0 + n / 64, 0x80 + n % 64]
  else if n < 0x10000 then [0xE0 + n / 4096, 0x80 + n / 64 % 64, 0x80 + n % 64]
  else [0xF0 + n / 262144, 0x80 + n / 4096 % 64, 0x80 + n / 64 % 64, 0x80 + n % 64]

def encode (text : String) : Octets :=
  ofBytes (text.toList.flatMap encodeChar)

/-! ## Decoding -/

/-- A character that a byte begins: its first bits, how many bytes follow, and what the first
of these may be. -/
structure Lead where
  bits : Nat
  follow : Nat
  least : Nat
  greatest : Nat

def lead? (byte : Nat) : Option Lead :=
  if byte < 0x80 then some ⟨byte, 0, 0x80, 0xBF⟩
  else if byte < 0xC2 then none
  else if byte < 0xE0 then some ⟨byte - 0xC0, 1, 0x80, 0xBF⟩
  else if byte = 0xE0 then some ⟨0, 2, 0xA0, 0xBF⟩
  else if byte = 0xED then some ⟨13, 2, 0x80, 0x9F⟩
  else if byte < 0xF0 then some ⟨byte - 0xE0, 2, 0x80, 0xBF⟩
  else if byte = 0xF0 then some ⟨0, 3, 0x90, 0xBF⟩
  else if byte < 0xF4 then some ⟨byte - 0xF0, 3, 0x80, 0xBF⟩
  else if byte = 0xF4 then some ⟨4, 3, 0x80, 0x8F⟩
  else none

/-- The code point after so many more bytes, if they are there, and the rest. -/
def follow : Nat → Nat → Nat → Nat → List Nat → Option Nat × List Nat
  | 0, bits, _, _, rest => (some bits, rest)
  | _ + 1, _, _, _, [] => (none, [])
  | n + 1, bits, least, greatest, byte :: rest =>
    if least ≤ byte ∧ byte ≤ greatest then follow n (bits * 64 + (byte - 0x80)) 0x80 0xBF rest
    else (none, byte :: rest)

/-- Characters, and `none` for each stretch that is not one. -/
def characters : Nat → List Nat → List (Option Char)
  | 0, _ => []
  | _, [] => []
  | fuel + 1, byte :: rest =>
    match lead? byte with
    | none => none :: characters fuel rest
    | some l =>
      let (code, rest) := follow l.follow l.bits l.least l.greatest rest
      code.map Char.ofNat :: characters fuel rest

def decoded (o : Octets) : List (Option Char) :=
  characters (o.length + 1) o.bytes

def decode? (o : Octets) : Option String :=
  (o.decoded.mapM id).map String.ofList

def decode (o : Octets) : String :=
  String.ofList (o.decoded.map fun c => c.getD '\ufffd')

end Octets

end PerfGate
