import DocStore.Binary64.Round
import DocStore.Decimal.Basic

/-!
# Shortest decimals

`shortest` is a decimal of the fewest digits that rounds back to a double. For each count of
digits the two multiples of the power of ten around the double are tried; the first count with a
hit wins, of two hits the nearer one, and a tie goes as `Tie` says. The exact value, which always
rounds back, stands last.
-/

namespace DocStore.Decimal

/-- Which of two equally near decimals is taken. -/
inductive Tie where
  | toEven
  | up
  deriving DecidableEq, Repr

def readsBack (x : Binary64) (d : Decimal) : Bool :=
  Binary64.ofDecimal false d.digits d.exponent == x.abs

def overPower (x : Binary64) (exponent : Int) : Nat × Nat :=
  if exponent < 0 then (x.magnitude * Nat.pow 10 exponent.natAbs, Binary64.one)
  else (x.magnitude, Binary64.one * Nat.pow 10 exponent.natAbs)

/-- A lower bound of the number of digits before the point, short by at most two. -/
def leadingEstimate (x : Binary64) : Int := ((x.magnitude.log2 : Int) - 1074) * 30103 / 100000

/-- The number of digits of `x` before the point; for `x < 1` minus the zeros after it. -/
def leadingPlace (x : Binary64) : Int :=
  let below (k : Int) : Bool := let (n, d) := overPower x k; n < d
  let k := leadingEstimate x
  if below k then k else if below (k + 1) then k + 1 else k + 2

/-- The decimal nearest to `x` among those multiples of `10 ^ exponent` next to `x` that round
back to it. -/
def nearestOn (tie : Tie) (x : Binary64) (exponent : Int) : Option Decimal :=
  let (n, d) := overPower x exponent
  let lower : Decimal := ⟨n / d, exponent⟩
  let upper : Decimal := ⟨n / d + 1, exponent⟩
  let twice := 2 * (n % d)
  let lowerFirst := twice < d || (twice == d && tie == .toEven && lower.digits % 2 == 0)
  match readsBack x lower, readsBack x upper with
  | true, true => some (if lowerFirst then lower else upper)
  | true, false => some lower
  | false, true => some upper
  | false, false => none

/-- The value of a finite double itself: `2⁻¹⁰⁷⁴` is `5¹⁰⁷⁴ · 10⁻¹⁰⁷⁴`. -/
def exact (x : Binary64) : Decimal := ⟨x.magnitude * Nat.pow 5 1074, -1074⟩

/-- The decimal of the fewest digits that rounds to the magnitude of a finite `x`. -/
def shortest (tie : Tie) (x : Binary64) : Decimal :=
  let place := leadingPlace x
  let found := (List.range 17).findSome? fun n => nearestOn tie x (place - (n + 1 : Nat))
  (found.getD (exact x)).normalize

end DocStore.Decimal
