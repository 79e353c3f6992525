/-!
# UTF-8

`Utf8.decode` cuts a byte sequence into characters and, where it is not UTF-8, into the longest
pieces that start a character (`none`). `Utf8.lossy` shows each such piece as `U+FFFD`;
`Utf8.strict?` accepts none.
-/

namespace DocStore.Utf8

/-- A character whose first bytes have been read. -/
structure Pending where
  missing : Nat
  least : Nat
  greatest : Nat
  code : Nat

inductive Lead where
  | whole (c : Char)
  | more (p : Pending)
  | invalid

/-- The first byte fixes the length of the character. The second byte is restricted after `E0` and
`F0` (no longer form than needed), `ED` (no surrogates) and `F4` (nothing above `U+10FFFF`). -/
def lead (b : Nat) : Lead :=
  if b < 0x80 then .whole (Char.ofNat b)
  else if b < 0xC2 then .invalid
  else if b < 0xE0 then .more ⟨1, 0x80, 0xBF, b - 0xC0⟩
  else if b < 0xF0 then
    .more ⟨2, if b = 0xE0 then 0xA0 else 0x80, if b = 0xED then 0x9F else 0xBF, b - 0xE0⟩
  else if b < 0xF5 then
    .more ⟨3, if b = 0xF0 then 0x90 else 0x80, if b = 0xF4 then 0x8F else 0xBF, b - 0xF0⟩
  else .invalid

/-- The characters of a byte sequence that follows the bytes of `pending`. A byte that cannot come
next ends the piece before it and is read again as a first byte. -/
def decodeFrom : Option Pending → List UInt8 → List (Option Char)
  | none, [] => []
  | some _, [] => [none]
  | none, b :: rest =>
    match lead b.toNat with
    | .whole c => some c :: decodeFrom none rest
    | .more p => decodeFrom (some p) rest
    | .invalid => none :: decodeFrom none rest
  | some p, b :: rest =>
    if p.least ≤ b.toNat ∧ b.toNat ≤ p.greatest then
      let code := p.code * 0x40 + (b.toNat - 0x80)
      if p.missing = 1 then some (Char.ofNat code) :: decodeFrom none rest
      else decodeFrom (some ⟨p.missing - 1, 0x80, 0xBF, code⟩) rest
    else
      match lead b.toNat with
      | .whole c => none :: some c :: decodeFrom none rest
      | .more p => none :: decodeFrom (some p) rest
      | .invalid => none :: none :: decodeFrom none rest

def decode (bytes : List UInt8) : List (Option Char) := decodeFrom none bytes

/-- The text of a byte sequence, with `U+FFFD` for each piece that is not UTF-8. -/
def lossy (bytes : List UInt8) : String :=
  String.ofList ((decode bytes).map (·.getD '\uFFFD'))

def strict? (bytes : List UInt8) : Option String :=
  ((decode bytes).mapM id).map String.ofList

def encode (s : String) : List UInt8 := s.toList.flatMap String.utf8EncodeChar

end DocStore.Utf8
