import DocStore.Json.Basic

/-!
# Escaping literals

Literals stand in filter strings among parentheses, brackets and operators. `escape` puts a
backslash before every reserved character and before each pair `&&` or `||`, from left to right.
Most literals need no escaping and are passed on as they are.
-/

namespace DocStore.Filter

/-- The characters that are part of the notation of filter strings. -/
def isReservedChar (c : Char) : Bool :=
  c == '+' || c == '-' || c == '!' || c == '(' || c == ')' || c == '\x7b' || c == '\x7d' ||
  c == '[' || c == ']' || c == '^' || c == '"' || c == '~' || c == '*' || c == '?' || c == ':' ||
  c == '\\'

/-- The characters that are part of the notation when they stand twice. -/
def isPairChar (c : Char) : Bool := c == '&' || c == '|'

/-- Puts a backslash before what is reserved. -/
def escapeChars : List Char → List Char
  | [] => []
  | c :: d :: rest =>
    if isPairChar c && c == d then '\\' :: c :: c :: escapeChars rest
    else if isReservedChar c then '\\' :: c :: escapeChars (d :: rest)
    else c :: escapeChars (d :: rest)
  | [c] => if isReservedChar c then ['\\', c] else [c]

/-- A pair of the same pair character stands somewhere in the text. -/
def hasPair : List Char → Bool
  | c :: d :: rest => (isPairChar c && c == d) || hasPair (d :: rest)
  | _ => false

def needsEscaping (s : List Char) : Bool := s.any isReservedChar || hasPair s

def escape (s : String) : String :=
  if needsEscaping s.toList then String.ofList (escapeChars s.toList) else s

mutual

/-- Escapes the strings of a value that is a string or a list; other values stay as they are. -/
def escapeValue : Json → Json
  | .string s => .string (escape s)
  | .array items => .array (escapeItems items)
  | other => other

def escapeItems : List Json → List Json
  | [] => []
  | v :: rest => escapeValue v :: escapeItems rest

end

end DocStore.Filter
