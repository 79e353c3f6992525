import DocStore.Decimal.Shortest

/-!
# Texts of doubles

A `Layout` fixes how the shortest decimal of a double is written: which decimal exponents are
written positionally, how wide the exponent is, and which way a tie between two shortest decimals
goes. Positional texts keep at least one digit after the point; exponents carry their sign.
-/

namespace DocStore.Decimal

structure Layout where
  least : Int
  greatest : Int
  exponentWidth : Nat
  tie : Tie

def zeros (n : Nat) : List Char := List.replicate n '0'

/-- The digits with a point in the place that `exponent` gives it. -/
def positional (digits : List Char) (exponent : Int) : List Char :=
  let before := digits.length + exponent
  if 0 ≤ exponent then digits ++ zeros exponent.natAbs ++ ['.', '0']
  else if 0 < before then digits.take before.toNat ++ '.' :: digits.drop before.toNat
  else '0' :: '.' :: zeros before.natAbs ++ digits

/-- A signed exponent of at least `width` digits. -/
def exponentText (width : Nat) (exponent : Int) : List Char :=
  let digits := digitChars exponent.natAbs
  (if exponent < 0 then '-' else '+') :: zeros (width - digits.length) ++ digits

/-- One digit, the point and the other digits if there are any, and the exponent. -/
def scientific (width : Nat) (digits : List Char) (exponent : Int) : List Char :=
  let fraction := if digits.length ≤ 1 then [] else '.' :: digits.drop 1
  digits.take 1 ++ fraction ++ 'e' :: exponentText width exponent

namespace Layout

def writeDecimal (layout : Layout) (d : Decimal) : List Char :=
  let digits := digitChars d.digits
  let leading := d.exponent + digits.length - 1
  if layout.least ≤ leading ∧ leading ≤ layout.greatest then positional digits d.exponent
  else scientific layout.exponentWidth digits leading

/-- The text of a double. NaN has no sign, every other double shows its sign bit. -/
def write (layout : Layout) (x : Binary64) : List Char :=
  if x.isNaN then ['N', 'a', 'N']
  else
    let body :=
      if x.isInfinite then ['i', 'n', 'f']
      else if x.isZero then ['0', '.', '0']
      else layout.writeDecimal (shortest layout.tie x)
    if x.isNegative then '-' :: body else body

end Layout

end DocStore.Decimal
