import DocStore.Json.Basic

/-!
# JSON texts

`Json.write` is the compact text of a value and `Json.writePretty` the text with one entry a line,
indented by two spaces a level. In strings only the quote, the backslash and the characters below
`U+0020` are escaped. Empty arrays and objects stay closed.
-/

namespace DocStore.Json

/-- A digit of a hexadecimal number, in lower case. -/
def hexDigit (n : Nat) : Char := Nat.digitChar n

/-- A character inside a string literal. -/
def writeChar (c : Char) : List Char :=
  match c with
  | '"' => ['\\', '"']
  | '\\' => ['\\', '\\']
  | '\n' => ['\\', 'n']
  | '\r' => ['\\', 'r']
  | '\t' => ['\\', 't']
  | '\x08' => ['\\', 'b']
  | '\x0c' => ['\\', 'f']
  | c =>
    if c.toNat < 0x20 then
      ['\\', 'u', '0', '0', hexDigit (c.toNat / 16), hexDigit (c.toNat % 16)]
    else [c]

def writeString (s : String) : List Char := '"' :: s.toList.flatMap writeChar ++ ['"']

def writeBool (b : Bool) : List Char := (if b then "true" else "false").toList

/-! ## Compact texts -/

mutual

def write : Json → List Char
  | null => "null".toList
  | bool b => writeBool b
  | number n => n.write
  | string s => writeString s
  | array items => '[' :: writeItems items ++ [']']
  | object fields => '\x7b' :: writeFields fields ++ ['\x7d']

def writeItems : List Json → List Char
  | [] => []
  | [v] => v.write
  | v :: rest => v.write ++ ',' :: writeItems rest

def writeFields : List (String × Json) → List Char
  | [] => []
  | [(k, v)] => writeString k ++ ':' :: v.write
  | (k, v) :: rest => writeString k ++ ':' :: v.write ++ ',' :: writeFields rest

end

def text (v : Json) : String := String.ofList v.write

/-! ## Indented texts -/

/-- The start of a line at a level of nesting. -/
def newline (level : Nat) : List Char := '\n' :: List.replicate (2 * level) ' '

mutual

def writePretty (level : Nat) : Json → List Char
  | null => "null".toList
  | bool b => writeBool b
  | number n => n.write
  | string s => writeString s
  | array [] => ['[', ']']
  | array (v :: rest) =>
    '[' :: writePrettyItems (level + 1) (v :: rest) ++ newline level ++ [']']
  | object [] => ['\x7b', '\x7d']
  | object (e :: rest) =>
    '\x7b' :: writePrettyFields (level + 1) (e :: rest) ++ newline level ++ ['\x7d']

def writePrettyItems (level : Nat) : List Json → List Char
  | [] => []
  | [v] => newline level ++ v.writePretty level
  | v :: rest => newline level ++ v.writePretty level ++ ',' :: writePrettyItems level rest

def writePrettyFields (level : Nat) : List (String × Json) → List Char
  | [] => []
  | [(k, v)] => newline level ++ writeString k ++ ':' :: ' ' :: v.writePretty level
  | (k, v) :: rest =>
    newline level ++ writeString k ++ ':' :: ' ' :: v.writePretty level ++
      ',' :: writePrettyFields level rest

end

/-- The indented text of a value, without a final line break. -/
def prettyText (v : Json) : String := String.ofList (v.writePretty 0)

end DocStore.Json
