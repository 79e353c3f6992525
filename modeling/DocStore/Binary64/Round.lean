import DocStore.Binary64.Basic

/-!
# Rounding to a double

`roundRatio` is the double nearest to a quotient, ties going to the even significand, and infinity
past the greatest finite double. Sums, products, integers and decimal literals are exact quotients
that are rounded once.
-/

namespace DocStore.Binary64

/-- The integer nearest to `n / d`; a tie goes to the even neighbour. -/
def nearestEven (n d : Nat) : Nat :=
  let quotient := n / d
  let twice := 2 * (n % d)
  if twice < d then quotient
  else if d < twice then quotient + 1
  else quotient + quotient % 2

/-- The least `p` with `n / d < 2 ^ (p + 53)`: one unit of the last place of `n / d` is `2 ^ p`. -/
def placeExponent (n d : Nat) : Nat :=
  let p := n.log2 - (d.log2 + 52)
  if 0 < p ∧ n < d * Nat.pow 2 (p + 52) then p - 1 else p

/-- The double nearest to `n / d` units of `2⁻¹⁰⁷⁴`. A significand that rounds up to `2⁵³` carries
into the exponent field of the pattern. -/
def roundRatio (negative : Bool) (n d : Nat) : Binary64 :=
  let p := placeExponent n d
  ofPattern negative (min (p * Nat.pow 2 52 + nearestEven n (d * Nat.pow 2 p)) infinityPattern)

/-- One, in units of `2⁻¹⁰⁷⁴`. -/
def one : Nat := Nat.pow 2 1074

/-- The sum of two finite doubles, rounded. A sum of zero is `-0.0` only for two negative zeros. -/
def add (x y : Binary64) : Binary64 :=
  let sum := x.scaled + y.scaled
  if sum = 0 then ofPattern (x.isNegative && y.isNegative) 0
  else roundRatio (sum < 0) sum.natAbs 1

def sub (x y : Binary64) : Binary64 := x.add y.neg

def mul (x y : Binary64) : Binary64 :=
  roundRatio (x.isNegative != y.isNegative) (x.magnitude * y.magnitude) one

/-- The quotient of two finite doubles, rounded. The divisor is not zero. -/
def div (x y : Binary64) : Binary64 :=
  roundRatio (x.isNegative != y.isNegative) (x.magnitude * one) y.magnitude

def ofInt (i : Int) : Binary64 := roundRatio (i < 0) (i.natAbs * one) 1

/-- The double nearest to `digits · 10 ^ exponent`. Exponents far outside the range of doubles are
answered without computing the power. -/
def ofDecimal (negative : Bool) (digits : Nat) (exponent : Int) : Binary64 :=
  if digits = 0 then ofPattern negative 0
  else
    let leading := exponent + (digits.log2 : Int) * 30103 / 100000
    if 400 < leading then ofPattern negative infinityPattern
    else if leading < -400 then ofPattern negative 0
    else if exponent < 0 then roundRatio negative (digits * one) (Nat.pow 10 exponent.natAbs)
    else roundRatio negative (digits * Nat.pow 10 exponent.natAbs * one) 1

end DocStore.Binary64
