import DocStore.Json.Basic

/-!
# Numbers and bounds in filter strings

Ranges of filter strings include their bounds. An exclusive bound is therefore moved by a relative
`10⁻¹⁶`, or, where that is lost in rounding, to the neighbouring double. Past the greatest double
the moved bound is infinite.
-/

namespace DocStore.Filter

/-- The doubles of filter strings: positional between `10⁻⁴` and `10¹⁶`, an exponent of at least
two digits, and a tie goes up. -/
def numberLayout : Decimal.Layout := ⟨-4, 15, 2, .up⟩

def doubleText (x : Binary64) : String := String.ofList (numberLayout.write x)

/-- A number as filter strings write it: integers have neither point nor exponent. -/
def numberText : Number → String
  | .integer value => String.ofList (Decimal.integerChars value)
  | .double value => doubleText value

/-- The relative distance by which an exclusive bound is moved. -/
def boundShift : Binary64 := .ofDecimal false 1 (-16)

/-- The least double that a lower bound excluding the number admits. -/
def exclusiveLowerBound (n : Number) : Binary64 :=
  let x := n.toBinary64
  let moved := x.add (x.abs.mul boundShift)
  if x.lt moved then moved else x.nextUp

/-- The greatest double that an upper bound excluding the number admits. -/
def exclusiveUpperBound (n : Number) : Binary64 :=
  let x := n.toBinary64
  let moved := x.sub (x.abs.mul boundShift)
  if moved.lt x then moved else x.nextDown

end DocStore.Filter
