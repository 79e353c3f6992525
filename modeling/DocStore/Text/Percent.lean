import DocStore.Text.Utf8

/-!
# Percent encoding

`percentEncoded` keeps the ASCII letters, digits and `-`, `_`, `.`, `~` of a text and writes every
other byte of its UTF-8 form as `%` and two hexadecimal digits in upper case (`percentTriple`).
`percentDecoded` reads such bytes in any text, with digits of either case.
-/

namespace DocStore.Text

def isUnreservedByte (b : Nat) : Bool :=
  let c := Char.ofNat b
  c.isAlphanum || c == '-' || c == '_' || c == '.' || c == '~'

def upperHexDigit (n : Nat) : Char := (Nat.digitChar n).toUpper

/-- A byte by its number. -/
def percentTriple (b : UInt8) : List Char :=
  ['%', upperHexDigit (b.toNat / 16), upperHexDigit (b.toNat % 16)]

def percentByte (b : UInt8) : List Char :=
  if isUnreservedByte b.toNat then [Char.ofNat b.toNat] else percentTriple b

def percentEncoded (s : String) : String := String.ofList ((Utf8.encode s).flatMap percentByte)

def hexValue (c : Char) : Option Nat :=
  if '0' ≤ c ∧ c ≤ '9' then some (c.toNat - '0'.toNat)
  else if 'a' ≤ c ∧ c ≤ 'f' then some (c.toNat - 'a'.toNat + 10)
  else if 'A' ≤ c ∧ c ≤ 'F' then some (c.toNat - 'A'.toNat + 10)
  else none

def percentDecoded : List Char → List UInt8
  | [] => []
  | '%' :: a :: b :: rest =>
    match hexValue a, hexValue b with
    | some m, some n => UInt8.ofNat (16 * m + n) :: percentDecoded rest
    | _, _ => String.utf8EncodeChar '%' ++ percentDecoded (a :: b :: rest)
  | c :: rest => String.utf8EncodeChar c ++ percentDecoded rest

end DocStore.Text
