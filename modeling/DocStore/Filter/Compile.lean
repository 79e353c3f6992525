import DocStore.Filter.Bound
import DocStore.Filter.Escape
import DocStore.Filter.OfJson
import DocStore.Filter.Statement
import DocStore.Schema

/-!
# Filter strings

`Filter.statements` lists what a filter says, from left to right: sequences are flattened, parts
that say nothing are left out, and lists of values are groups. `Filter.compile` joins the
statements; `compileJson?` reads a filter first. Filters that were read from JSON have the right
form, filters built by hand are checked here, and the first bad condition is the error.
-/

namespace DocStore.Filter

structure Options where
  schema : Schema := .content
  /-- Escape string literals; without it they stand as they are. -/
  escapeValues : Bool := true
  deriving DecidableEq

/-- A scalar as filter strings hold it. -/
def literal (options : Options) : Scalar → String
  | .null => "null"
  | .bool true => "true"
  | .bool false => "false"
  | .number n => numberText n
  | .string s => if options.escapeValues then escape s else s

/-- The attribute has the value, or has it not. -/
def equals (options : Options) (negated : Bool) (attr : String) (value : Scalar) : Statement :=
  .holds negated attr (literal options value)

/-- The group of tests for the values of a list: one of them holds, or all of them fail. -/
def membership (options : Options) (negated : Bool) (attr : String) (values : List Scalar) :
    Except FilterError Statement :=
  if values.isEmpty then .error (.emptyList attr)
  else .ok (.group (if negated then .and else .or) (values.map (equals options negated attr)))

def bound? (relation : Relation) (n : Number) : Option String :=
  let finite (x : Binary64) (text : String) : Option String :=
    if x.isFinite then some text else none
  match relation with
  | .greater => let x := exclusiveLowerBound n; finite x (doubleText x)
  | .less => let x := exclusiveUpperBound n; finite x (doubleText x)
  | _ => finite n.toBinary64 (numberText n)

/-- The bounds of `$gt` and `$gte` are lower ones. -/
def isLower : Relation → Bool
  | .greater | .greaterOrEqual => true
  | _ => false

def range (attr : String) (relation : Relation) (operand : Operand) :
    Except FilterError Statement :=
  let bad : Except FilterError Statement := .error (.rangeOperand relation operand.shown)
  match operand with
  | .number n =>
    match bound? relation n with
    | some bound => .ok (if isLower relation then .atLeast attr bound else .atMost attr bound)
    | none => bad
  | _ => bad

/-- The test of a relation. A single value serves as a list of one. -/
def comparison (options : Options) (attr : String) (relation : Relation) (operand : Operand) :
    Except FilterError Statement :=
  if relation.isRange then range attr relation operand
  else
    match relation, operand with
    | .equal, .scalar v => .ok (equals options false attr v)
    | .notEqual, .scalar v => .ok (equals options true attr v)
    | .oneOf, .list vs => membership options false attr vs
    | .oneOf, .scalar v => membership options false attr [v]
    | .noneOf, .list vs => membership options true attr vs
    | .noneOf, .scalar v => membership options true attr [v]
    | _, _ => .error (.operandForm relation operand)

def grouped (connective : Connective) (members : List Statement) : List Statement :=
  if members.isEmpty then [] else [.group connective members]

mutual

def conditionStatements (options : Options) (attr : String) :
    Condition → Except FilterError (List Statement)
  | .scalar v => .ok [equals options false attr v]
  | .oneOf vs => do return [← membership options false attr vs]
  | .comparisons items => comparisonStatements options attr items

def comparisonStatements (options : Options) (attr : String) :
    List Comparison → Except FilterError (List Statement)
  | [] => .ok []
  | .compare relation operand :: rest => do
    let first ← comparison options attr relation operand
    let others ← comparisonStatements options attr rest
    return first :: others
  | .group connective condition :: rest => do
    let members ← conditionStatements options attr condition
    let others ← comparisonStatements options attr rest
    return grouped connective members ++ others

end

mutual

/-- What a filter says, from left to right. -/
def statements (options : Options) : Filter → Except FilterError (List Statement)
  | .clauses items => clauseStatements options items
  | .sequence items => sequenceStatements options items

def sequenceStatements (options : Options) : List Filter → Except FilterError (List Statement)
  | [] => .ok []
  | item :: rest => do
    let first ← statements options item
    let others ← sequenceStatements options rest
    return first ++ others

def clauseStatements (options : Options) : List Clause → Except FilterError (List Statement)
  | [] => .ok []
  | .group connective operand :: rest => do
    let members ← statements options operand
    let others ← clauseStatements options rest
    return grouped connective members ++ others
  | .field name condition :: rest => do
    let first ← conditionStatements options (options.schema.attributeOf name) condition
    let others ← clauseStatements options rest
    return first ++ others

end

/-- The filter string of a filter whose statements are joined by a connective; none if it says
nothing. -/
def compile (options : Options) (connective : Connective) (filter : Filter) :
    Except FilterError (Option String) := do
  return Statement.joined? connective (← statements options filter)

/-- Reads the filter of a request and compiles it. Its clauses are joined by `AND`. -/
def compileJson (options : Options) (value : Option Json) : Noted (Option String) := do
  match ← ofRoot value with
  | none => return none
  | some filter => .ofExcept (compile options .and filter)

end DocStore.Filter
