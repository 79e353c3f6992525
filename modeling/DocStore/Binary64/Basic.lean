/-!
# Doubles as bit patterns

A `Binary64` is the 64-bit pattern of a double. Its magnitude is counted in units of `2⁻¹⁰⁷⁴`, the
smallest positive double, so every finite double is an integer (`scaled`) and comparisons,
rounding and neighbours are integer arithmetic. `rank` orders the patterns as the doubles they
stand for are ordered; `nextUp` and `nextDown` are the neighbours in that order.
-/

namespace DocStore

structure Binary64 where
  bits : UInt64
  deriving DecidableEq, Inhabited

namespace Binary64

def word (x : Binary64) : Nat := x.bits.toNat

def isNegative (x : Binary64) : Bool := Nat.pow 2 63 ≤ x.word

/-- The pattern without its sign bit. -/
def pattern (x : Binary64) : Nat := x.word % Nat.pow 2 63

def exponentField (x : Binary64) : Nat := x.pattern / Nat.pow 2 52

def fractionField (x : Binary64) : Nat := x.pattern % Nat.pow 2 52

def infinityPattern : Nat := 2047 * Nat.pow 2 52

def isFinite (x : Binary64) : Bool := x.pattern < infinityPattern

def isNaN (x : Binary64) : Bool := infinityPattern < x.pattern

def isInfinite (x : Binary64) : Bool := x.pattern == infinityPattern

def isZero (x : Binary64) : Bool := x.pattern == 0

/-- The double with a sign and a pattern below `2⁶³`. -/
def ofPattern (negative : Bool) (pattern : Nat) : Binary64 :=
  ⟨UInt64.ofNat ((if negative then Nat.pow 2 63 else 0) + pattern)⟩

def zero : Binary64 := ofPattern false 0

def infinity : Binary64 := ofPattern false infinityPattern

def abs (x : Binary64) : Binary64 := ofPattern false x.pattern

def neg (x : Binary64) : Binary64 := ofPattern (!x.isNegative) x.pattern

/-! ## Values -/

/-- The exponent of the unit in which the magnitude is a multiple of the significand. -/
def unitExponent (x : Binary64) : Nat := x.exponentField - 1

/-- The significand, with the leading bit that normal doubles leave out. -/
def significand (x : Binary64) : Nat :=
  if x.exponentField = 0 then x.fractionField else Nat.pow 2 52 + x.fractionField

/-- The magnitude of a finite double, in units of `2⁻¹⁰⁷⁴`. -/
def magnitude (x : Binary64) : Nat := x.significand * Nat.pow 2 x.unitExponent

/-- The value of a finite double, in units of `2⁻¹⁰⁷⁴`. -/
def scaled (x : Binary64) : Int :=
  if x.isNegative then -(x.magnitude : Int) else x.magnitude

/-! ## Order -/

/-- The place of a double in the order of doubles: both zeros have place `0`. -/
def rank (x : Binary64) : Int :=
  if x.isNegative then -(x.pattern : Int) else x.pattern

/-- `x` lies strictly below `y`; no double lies below or above NaN. -/
def lt (x y : Binary64) : Bool := !x.isNaN && !y.isNaN && decide (x.rank < y.rank)

/-- The doubles are equal as numbers: the two zeros are, and NaN equals nothing. -/
def same (x y : Binary64) : Bool := !x.isNaN && !y.isNaN && decide (x.rank = y.rank)

/-! ## Neighbours -/

/-- The least double above `x`; infinity and NaN have none and are returned as they are. -/
def nextUp (x : Binary64) : Binary64 :=
  if x.isNaN || x == infinity then x
  else if x.isZero then ⟨1⟩
  else if x.isNegative then ⟨x.bits - 1⟩
  else ⟨x.bits + 1⟩

def nextDown (x : Binary64) : Binary64 := x.neg.nextUp.neg

end Binary64

end DocStore
