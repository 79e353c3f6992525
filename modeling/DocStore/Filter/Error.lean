import DocStore.Filter.Basic
import DocStore.Json.Printer
import DocStore.Text.Quoted

/-!
# What can be wrong with a filter

`FilterError` lists the causes; `FilterError.kind` sorts them and `FilterError.message` words them.
`Operand.shown` and `Operand.described` are the two ways in which messages show an operand.
-/

namespace DocStore

/-! ## Operands in messages -/

def Scalar.described : Scalar → String
  | .null => "Null"
  | .bool b => "Bool(" ++ String.ofList (Json.writeBool b) ++ ")"
  | .number n => "Number(Number(" ++ String.ofList n.write ++ "))"
  | .string s => "String(" ++ Text.quoted s ++ ")"

def Operand.described : Operand → String
  | .scalar v => "Scalar(" ++ v.described ++ ")"
  | .list vs => "List([" ++ ", ".intercalate (vs.map Scalar.described) ++ "])"
  | .number n => "Number(Number(" ++ String.ofList n.write ++ "))"

/-- An operand as a value: strings are quoted, lists are not shown. -/
def Operand.shown : Operand → String
  | .number n => String.ofList n.write
  | .scalar (.string s) => Text.quoted s
  | .scalar (.number n) => String.ofList n.write
  | .scalar (.bool b) => String.ofList (Json.writeBool b)
  | .scalar .null => "null"
  | .list _ => "a list"

/-! ## Errors -/

inductive FilterError where
  | rootKind (got : Json.Kind)
  | nestedKind (got : Json.Kind)
  | notScalar (field : String) (got : Json.Kind)
  | noValues (relation : Relation) (field : String)
  /-- A sequence of comparisons under a connective holds something else. -/
  | notComparisons (connective : Connective) (field : String) (got : Json.Kind)
  /-- A condition of a given filter has an empty list. -/
  | emptyList (attr : String)
  /-- A relation of a given filter has an operand of the wrong form. -/
  | operandForm (relation : Relation) (operand : Operand)
  | unsupportedOperator (key : String)
  /-- A relation of order has an operand that is no number or has no finite bound. -/
  | rangeOperand (relation : Relation) (shown : String)
  deriving DecidableEq

namespace FilterError

inductive Kind where
  | malformed
  | unsupportedOperator
  | rangeOperand
  deriving DecidableEq, Repr

def kind : FilterError → Kind
  | .unsupportedOperator _ => .unsupportedOperator
  | .rangeOperand _ _ => .rangeOperand
  | _ => .malformed

def malformedText (reason : String) : String := "Malformed filter: " ++ reason

def message : FilterError → String
  | .rootKind got => malformedText ("filters must be a mapping or null, got " ++ got.name)
  | .nestedKind got =>
    malformedText ("expected a mapping or a sequence of mappings, got " ++ got.name)
  | .notScalar field got =>
    malformedText ("field " ++ field ++ " expects a scalar value, got " ++ got.name)
  | .noValues relation field =>
    malformedText (relation.key ++ " on field " ++ field ++ " requires at least one value")
  | .notComparisons connective field got =>
    malformedText (connective.key ++ " on field " ++ field ++ " expects mappings, got " ++ got.name)
  | .emptyList attr => malformedText ("value list for " ++ attr ++ " must not be empty")
  | .operandForm relation operand =>
    malformedText ("operator " ++ relation.key ++ " does not accept operand " ++ operand.described)
  | .unsupportedOperator key =>
    "Operator " ++ key ++ " is not supported or is not a valid operator"
  | .rangeOperand relation shown =>
    "Filter value " ++ shown ++ " is not supported for " ++ relation.key ++
      " range filters, must be an integer or float"

end FilterError

end DocStore
