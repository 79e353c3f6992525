import DocStore.Text.Unprintable

/-!
# Quoted texts

`quoted` shows a text between double quotes. The quote, the backslash and four control characters
have one-letter escapes; any other unprintable character is shown by its number.
-/

namespace DocStore.Text

/-- A number in hexadecimal, in lower case. -/
def hexChars (n : Nat) : List Char := Nat.toDigits 16 n

def quotedChar (c : Char) : List Char :=
  match c with
  | '"' => ['\\', '"']
  | '\\' => ['\\', '\\']
  | '\n' => ['\\', 'n']
  | '\r' => ['\\', 'r']
  | '\t' => ['\\', 't']
  | '\x00' => ['\\', '0']
  | c =>
    if isPrintable c then [c]
    else '\\' :: 'u' :: '\x7b' :: hexChars c.toNat ++ ['\x7d']

def quoted (s : String) : String :=
  String.ofList ('"' :: s.toList.flatMap quotedChar ++ ['"'])

end DocStore.Text
