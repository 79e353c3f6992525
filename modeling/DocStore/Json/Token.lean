import DocStore.Json.Basic
import DocStore.Text.Percent

/-!
# JSON tokens

`Token.scan` cuts a text into tokens. Number and string literals keep their value, which is missing
for a number beyond the range of doubles and for a string with an escaped surrogate that has no
partner: such literals are well formed, and only reading their value fails. Between tokens stand
spaces, tabs and line breaks.
-/

namespace DocStore

inductive Token where
  | openArray
  | closeArray
  | openObject
  | closeObject
  | comma
  | colon
  | null
  | bool (value : Bool)
  | number (value : Option Number)
  | string (value : Option String)
  deriving DecidableEq

namespace Token

/-! ## Numbers -/

/-- The parts of a number literal. -/
structure NumberLiteral where
  negative : Bool
  whole : List Char
  fraction : List Char
  /-- The written exponent, if there is one. -/
  exponent : Option Int

namespace NumberLiteral

/-- Reads digits as long as the number fits in 64 bits: the number and the digits that are left. -/
def readDigits (n : Nat) : List Char → Nat × List Char
  | [] => (n, [])
  | c :: rest =>
    let m := 10 * n + (c.toNat - '0'.toNat)
    if m < 0x10000000000000000 then readDigits m rest else (n, c :: rest)

def greatestPower : Nat := 308

/-- A double over a power of ten. Powers that are no doubles are taken in steps. -/
def overTen (x : Binary64) (n : Nat) : Binary64 :=
  if n ≤ greatestPower then x.div (.ofDecimal false 1 n)
  else if x.isZero then x
  else overTen (x.div (.ofDecimal false 1 greatestPower)) (n - greatestPower)
termination_by n
decreasing_by simp only [greatestPower] at *; omega

/-- A double times a power of ten, if that is finite. -/
def timesTen (x : Binary64) (exponent : Int) : Option Binary64 :=
  if exponent < 0 then some (overTen x exponent.natAbs)
  else if x.isZero then some x
  else if greatestPower < exponent then none
  else
    let y := x.mul (.ofDecimal false 1 exponent)
    if y.isFinite then some y else none

/-- The double of a literal. The digits that fit in 64 bits are one double, which is multiplied or
divided by the power of ten that is left; this may miss the double nearest to the literal by one
place. A literal beyond the range of doubles has no value. -/
def toDouble? (lit : NumberLiteral) : Option Binary64 :=
  let (n, wholeLeft) := readDigits 0 lit.whole
  let (n, fractionLeft) := readDigits n lit.fraction
  let point : Int := wholeLeft.length + fractionLeft.length - lit.fraction.length
  let x := timesTen (.ofInt n) (point + lit.exponent.getD 0)
  x.map fun x => if lit.negative then x.neg else x

/-- A literal of digits alone is an integer if it fits in 64 bits. Negative zero is a double. -/
def value? (lit : NumberLiteral) : Option Number :=
  let magnitude := Decimal.ofDigitChars 0 lit.whole
  let i : Int := if lit.negative then -magnitude else magnitude
  if lit.fraction = [] ∧ lit.exponent = none ∧ ¬(lit.negative ∧ magnitude = 0) ∧
      Number.integerRange i then
    some (.integer i)
  else lit.toDouble?.map .double

end NumberLiteral

def spanDigits (s : List Char) : List Char × List Char :=
  (s.takeWhile Char.isDigit, s.dropWhile Char.isDigit)

/-- The digits before the point: `0`, or digits that do not start with `0`. -/
def spanWhole : List Char → Option (List Char × List Char)
  | '0' :: rest => some (['0'], rest)
  | s =>
    match spanDigits s with
    | ([], _) => none
    | parts => some parts

/-- The digits after a point, if a point follows. -/
def spanFraction : List Char → Option (List Char × List Char)
  | '.' :: rest =>
    match spanDigits rest with
    | ([], _) => none
    | parts => some parts
  | s => some ([], s)

def spanExponentDigits (negative : Bool) (s : List Char) : Option (Option Int × List Char) :=
  match spanDigits s with
  | ([], _) => none
  | (digits, rest) =>
    let n : Int := Decimal.ofDigitChars 0 digits
    some (some (if negative then -n else n), rest)

def spanExponent : List Char → Option (Option Int × List Char)
  | e :: rest =>
    if e = 'e' ∨ e = 'E' then
      match rest with
      | '-' :: digits => spanExponentDigits true digits
      | '+' :: digits => spanExponentDigits false digits
      | digits => spanExponentDigits false digits
    else some (none, e :: rest)
  | [] => some (none, [])

def spanUnsigned (negative : Bool) (s : List Char) : Option (NumberLiteral × List Char) := do
  let (whole, s) ← spanWhole s
  let (fraction, s) ← spanFraction s
  let (exponent, s) ← spanExponent s
  return (⟨negative, whole, fraction, exponent⟩, s)

def spanNumber : List Char → Option (NumberLiteral × List Char)
  | '-' :: rest => spanUnsigned true rest
  | s => spanUnsigned false s

/-! ## Strings -/

/-- A piece of a string literal: a character, or a code unit that was escaped by number. -/
inductive Piece where
  | char (c : Char)
  | unit (code : Nat)

def isHighSurrogate (code : Nat) : Bool := 0xD800 ≤ code && code < 0xDC00

def isLowSurrogate (code : Nat) : Bool := 0xDC00 ≤ code && code < 0xE000

/-- The characters of a string literal. Two escaped surrogates, high and low, are one character;
any other surrogate stands for none. -/
def joinPieces : List Piece → Option (List Char)
  | [] => some []
  | .char c :: rest => (c :: ·) <$> joinPieces rest
  | .unit code :: rest =>
    if isHighSurrogate code then
      match rest with
      | .unit low :: rest =>
        if isLowSurrogate low then
          let c := Char.ofNat (0x10000 + (code - 0xD800) * 0x400 + (low - 0xDC00))
          (c :: ·) <$> joinPieces rest
        else none
      | _ => none
    else if isLowSurrogate code then none
    else (Char.ofNat code :: ·) <$> joinPieces rest

def hexUnit (a b c d : Char) : Option Nat := do
  let a ← Text.hexValue a
  let b ← Text.hexValue b
  let c ← Text.hexValue c
  let d ← Text.hexValue d
  return ((a * 16 + b) * 16 + c) * 16 + d

/-- The character that a one-letter escape stands for. -/
def escapeValue : Char → Option Char
  | '"' => some '"'
  | '\\' => some '\\'
  | '/' => some '/'
  | 'b' => some '\x08'
  | 'f' => some '\x0c'
  | 'n' => some '\n'
  | 'r' => some '\r'
  | 't' => some '\t'
  | _ => none

/-- The pieces of a string literal up to its closing quote, and what follows the quote. -/
def spanString : List Char → Option (List Piece × List Char)
  | [] => none
  | '"' :: rest => some ([], rest)
  | '\\' :: 'u' :: a :: b :: c :: d :: rest => do
    let code ← hexUnit a b c d
    let (pieces, rest) ← spanString rest
    return (.unit code :: pieces, rest)
  | '\\' :: e :: rest => do
    let c ← escapeValue e
    let (pieces, rest) ← spanString rest
    return (.char c :: pieces, rest)
  | c :: rest =>
    if c.toNat < 0x20 then none
    else do
      let (pieces, rest) ← spanString rest
      return (.char c :: pieces, rest)

/-! ## Tokens -/

def isBlank (c : Char) : Bool := c == ' ' || c == '\t' || c == '\n' || c == '\r'

/-- The token at the start of a text that does not start with a blank, and what follows it. -/
def next? : List Char → Option (Token × List Char)
  | '[' :: rest => some (.openArray, rest)
  | ']' :: rest => some (.closeArray, rest)
  | '\x7b' :: rest => some (.openObject, rest)
  | '\x7d' :: rest => some (.closeObject, rest)
  | ',' :: rest => some (.comma, rest)
  | ':' :: rest => some (.colon, rest)
  | 'n' :: 'u' :: 'l' :: 'l' :: rest => some (.null, rest)
  | 't' :: 'r' :: 'u' :: 'e' :: rest => some (.bool true, rest)
  | 'f' :: 'a' :: 'l' :: 's' :: 'e' :: rest => some (.bool false, rest)
  | '"' :: rest => do
    let (pieces, rest) ← spanString rest
    return (.string ((joinPieces pieces).map String.ofList), rest)
  | s => do
    let (lit, rest) ← spanNumber s
    return (.number lit.value?, rest)

/-! ## Every token takes at least one character -/

theorem spanString_length {s r : List Char} {p : List Piece} (h : spanString s = some (p, r)) :
    r.length < s.length := by
  fun_induction spanString s generalizing p with
  | case1 => simp at h
  | case2 => simp_all
  | case3 a b c d rest ih =>
    simp only [bind, Option.bind_eq_some_iff, pure, Option.some.injEq] at h
    obtain ⟨_, _, ⟨_, _⟩, h, h'⟩ := h
    have := ih (by rw [h]; simp at h'; rw [h'.2])
    simp only [List.length_cons]; omega
  | case4 e rest _ ih =>
    simp only [bind, Option.bind_eq_some_iff, pure, Option.some.injEq] at h
    obtain ⟨_, _, ⟨_, _⟩, h, h'⟩ := h
    have := ih (by rw [h]; simp at h'; rw [h'.2])
    simp only [List.length_cons]; omega
  | case5 => simp at h
  | case6 c rest _ _ _ _ ih =>
    simp only [bind, Option.bind_eq_some_iff, pure, Option.some.injEq] at h
    obtain ⟨⟨_, _⟩, h, h'⟩ := h
    have := ih (by rw [h]; simp at h'; rw [h'.2])
    simp only [List.length_cons]; omega

theorem spanDigits_length (s : List Char) :
    (spanDigits s).1.length + (spanDigits s).2.length = s.length := by
  rw [← List.length_append, spanDigits, List.takeWhile_append_dropWhile]

theorem spanWhole_length {s d r : List Char} (h : spanWhole s = some (d, r)) :
    r.length < s.length := by
  unfold spanWhole at h
  split at h
  · simp_all
  · have hs := spanDigits_length s
    split at h
    · cases h
    · rename_i hne
      simp only [Option.some.injEq] at h
      rw [h] at hs hne
      have : d ≠ [] := fun hd => hne r (by rw [hd])
      have := List.length_pos_iff.mpr this
      simp only at hs; omega

theorem spanFraction_length {s d r : List Char} (h : spanFraction s = some (d, r)) :
    r.length ≤ s.length := by
  unfold spanFraction at h
  split at h
  · rename_i rest
    have hs := spanDigits_length rest
    split at h
    · cases h
    · simp only [Option.some.injEq] at h
      rw [h] at hs
      simp only [List.length_cons] at hs ⊢; omega
  · simp_all

theorem spanExponentDigits_length {n : Bool} {s r : List Char} {e : Option Int}
    (h : spanExponentDigits n s = some (e, r)) : r.length ≤ s.length := by
  unfold spanExponentDigits at h
  have hs := spanDigits_length s
  split at h
  · cases h
  · rename_i hd
    simp only [Option.some.injEq, Prod.mk.injEq] at h
    rw [hd, h.2] at hs
    simp only at hs; omega

theorem spanExponent_length {s r : List Char} {e : Option Int}
    (h : spanExponent s = some (e, r)) : r.length ≤ s.length := by
  unfold spanExponent at h
  split at h
  · split at h
    · split at h <;> have := spanExponentDigits_length h <;> simp only [List.length_cons] <;> omega
    · simp_all
  · simp_all

theorem spanUnsigned_length {n : Bool} {s r : List Char} {lit : NumberLiteral}
    (h : spanUnsigned n s = some (lit, r)) : r.length < s.length := by
  simp only [spanUnsigned, bind, Option.bind_eq_some_iff, pure, Option.some.injEq] at h
  obtain ⟨⟨_, s₁⟩, h₁, ⟨_, s₂⟩, h₂, ⟨_, s₃⟩, h₃, h₄⟩ := h
  have : s₁.length < s.length := spanWhole_length h₁
  have : s₂.length ≤ s₁.length := spanFraction_length h₂
  have : s₃.length ≤ s₂.length := spanExponent_length h₃
  simp only [Prod.mk.injEq] at h₄
  rw [← h₄.2]; omega

theorem spanNumber_length {s r : List Char} {lit : NumberLiteral}
    (h : spanNumber s = some (lit, r)) : r.length < s.length := by
  unfold spanNumber at h
  split at h
  · have := spanUnsigned_length h
    simp only [List.length_cons]; omega
  · exact spanUnsigned_length h

theorem next?_length {s r : List Char} {t : Token} (h : next? s = some (t, r)) :
    r.length < s.length := by
  unfold next? at h
  split at h
  case h_10 =>
    simp only [bind, Option.bind_eq_some_iff, pure, Option.some.injEq] at h
    obtain ⟨⟨p, r'⟩, hs, h⟩ := h
    have := spanString_length hs
    simp only [Prod.mk.injEq] at h
    rw [← h.2]; simp only [List.length_cons]; omega
  case h_11 =>
    simp only [bind, Option.bind_eq_some_iff, pure, Option.some.injEq] at h
    obtain ⟨⟨p, r'⟩, hs, h⟩ := h
    have := spanNumber_length hs
    simp only [Prod.mk.injEq] at h
    rw [← h.2]; exact this
  all_goals
    simp only [Option.some.injEq, Prod.mk.injEq] at h
    rw [← h.2]; simp only [List.length_cons]; omega

/-! ## Scanning -/

/-- All tokens of a text, or none if a part of it is no token. -/
def scan (s : List Char) : Option (List Token) :=
  match s with
  | [] => some []
  | c :: rest =>
    if isBlank c then scan rest
    else
      match _h : next? (c :: rest) with
      | none => none
      | some (t, rest') => (t :: ·) <$> scan rest'
termination_by s.length
decreasing_by
  · simp
  · exact next?_length ‹_›

end Token

end DocStore
