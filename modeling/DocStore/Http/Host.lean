import DocStore.Decimal.Basic
import DocStore.Text.Percent

/-!
# Names of servers

`isHost` says which texts name a server in a web address: addresses of IPv6 in brackets, and
percent-encoded texts without forbidden characters. A text whose last part is a number has to be an
address of IPv4. The tables for names beyond ASCII are left out.
-/

namespace DocStore.Http

/-- The parts of a text between separators, empty ones among them. -/
def splitBy (separates : Char → Bool) : List Char → List (List Char)
  | [] => [[]]
  | c :: rest =>
    if separates c then [] :: splitBy separates rest
    else
      match splitBy separates rest with
      | [] => [[c]]
      | part :: others => (c :: part) :: others

/-- The number that digits of a radix stand for. -/
def numberIn? (radix : Nat) (digits : List Char) : Option Nat :=
  digits.foldlM (fun n c => do
    let d ← Text.hexValue c
    if d < radix then some (radix * n + d) else none) 0

/-! ## Addresses of IPv4 -/

/-- A part of an address: hexadecimal after `0x`, octal after `0`, else decimal. -/
def ipv4Part? : List Char → Option Nat
  | [] => none
  | '0' :: 'x' :: digits => numberIn? 16 digits
  | '0' :: 'X' :: digits => numberIn? 16 digits
  | '0' :: digits => numberIn? 8 digits
  | digits => numberIn? 10 digits

/-- The parts between dots; a dot at the end makes no part. -/
def dottedParts (name : List Char) : List (List Char) :=
  let parts := splitBy (· == '.') name
  if parts.getLast? == some [] then parts.dropLast else parts

def endsInNumber (name : List Char) : Bool :=
  match (dottedParts name).getLast? with
  | some last => (!last.isEmpty && last.all Char.isDigit) || (ipv4Part? last).isSome
  | none => false

/-- Up to four parts, the last of which stands for all bytes that are left. -/
def isIpv4 (name : List Char) : Bool :=
  let parts := dottedParts name
  match parts.mapM ipv4Part? with
  | some numbers =>
    parts.length ≤ 4 && numbers.dropLast.all (· ≤ 255) &&
      numbers.getLast?.any (· < Nat.pow 256 (5 - parts.length))
  | none => false

/-! ## Addresses of IPv6 -/

def isHexGroup (group : List Char) : Bool :=
  !group.isEmpty && group.length ≤ 4 && (numberIn? 16 group).isSome

/-- A decimal byte without zeros before it. -/
def isByte (part : List Char) : Bool :=
  match part with
  | [c] => c.isDigit
  | part => part.head? != some '0' && !part.isEmpty && part.all Char.isDigit &&
      Decimal.ofDigitChars 0 part ≤ 255

def isFourBytes (group : List Char) : Bool :=
  let parts := splitBy (· == '.') group
  parts.length == 4 && parts.all isByte

/-- The number of groups of 16 bits between colons. At the end of an address, two of them may be
written as four bytes. -/
def groupCount? (atEnd : Bool) (text : List Char) : Option Nat :=
  let groups := splitBy (· == ':') text
  if text.isEmpty then some 0
  else if groups.all isHexGroup then some groups.length
  else if atEnd && groups.dropLast.all isHexGroup && groups.getLast?.any isFourBytes then
    some (groups.length + 1)
  else none

def splitDoubleColon? : List Char → Option (List Char × List Char)
  | ':' :: ':' :: rest => some ([], rest)
  | c :: rest => (splitDoubleColon? rest).map fun (before, after) => (c :: before, after)
  | [] => none

/-- Eight groups. A double colon stands for the groups that are missing, one at least. -/
def isIpv6 (text : List Char) : Bool :=
  match splitDoubleColon? text with
  | some (before, after) =>
    match groupCount? false before, groupCount? true after with
    | some m, some n => m + n ≤ 7
    | _, _ => false
  | none => groupCount? true text == some 8

/-! ## Names -/

def isForbiddenInHost (c : Char) : Bool :=
  c.toNat ≤ 0x20 || c == '\x7f' || "%#/:<>?@[\\]^|".toList.contains c

def isHost : List Char → Bool
  | '[' :: rest => rest.getLast? == some ']' && isIpv6 rest.dropLast
  | name =>
    match Utf8.strict? (Text.percentDecoded name) with
    | some s =>
      let name := s.toList
      !name.isEmpty && !name.any isForbiddenInHost && (!endsInNumber name || isIpv4 name)
    | none => false

end DocStore.Http
