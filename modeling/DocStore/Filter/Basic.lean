import DocStore.Json.Basic

/-!
# Filters

A `Filter` says which documents are meant. Its nodes are mappings of clauses and sequences of
filters; a clause is a filter under a connective or a condition on a field; a condition is a
scalar, a list of scalars, or comparisons, which may again stand under a connective.
`Filter.isEmpty` holds of the filters that say nothing.
-/

namespace DocStore

/-- The operators that join the statements of a group. -/
inductive Connective where
  | and
  | or
  | not
  deriving DecidableEq, Repr

/-- The operators that compare a field with a value. -/
inductive Relation where
  | equal
  | notEqual
  | oneOf
  | noneOf
  | greater
  | greaterOrEqual
  | less
  | lessOrEqual
  deriving DecidableEq, Repr

inductive Scalar where
  | null
  | bool (value : Bool)
  | number (value : Number)
  | string (value : String)
  deriving DecidableEq

/-- What a relation compares with. Relations of order take a number. -/
inductive Operand where
  | scalar (value : Scalar)
  | list (values : List Scalar)
  | number (value : Number)
  deriving DecidableEq

mutual

inductive Condition where
  | scalar (value : Scalar)
  | oneOf (values : List Scalar)
  | comparisons (items : List Comparison)

inductive Comparison where
  | compare (relation : Relation) (operand : Operand)
  /-- A condition on the same field under a connective. -/
  | group (connective : Connective) (condition : Condition)

end

mutual

inductive Filter where
  | clauses (items : List Clause)
  | sequence (items : List Filter)

inductive Clause where
  | group (connective : Connective) (operand : Filter)
  | field (name : String) (condition : Condition)

end

namespace Connective

def ofKey? : String → Option Connective
  | "$and" => some and
  | "$or" => some or
  | "$not" => some not
  | _ => none

def key : Connective → String
  | and => "$and"
  | or => "$or"
  | not => "$not"

def keyword : Connective → String
  | and => "AND"
  | or => "OR"
  | not => "NOT"

theorem ofKey?_key (c : Connective) : ofKey? c.key = some c := by cases c <;> rfl

end Connective

namespace Relation

def ofKey? : String → Option Relation
  | "$eq" => some equal
  | "$ne" => some notEqual
  | "$in" => some oneOf
  | "$nin" => some noneOf
  | "$gt" => some greater
  | "$gte" => some greaterOrEqual
  | "$lt" => some less
  | "$lte" => some lessOrEqual
  | _ => none

def key : Relation → String
  | equal => "$eq"
  | notEqual => "$ne"
  | oneOf => "$in"
  | noneOf => "$nin"
  | greater => "$gt"
  | greaterOrEqual => "$gte"
  | less => "$lt"
  | lessOrEqual => "$lte"

/-- The relations of order, whose operand is a number. -/
def isRange : Relation → Bool
  | greater | greaterOrEqual | less | lessOrEqual => true
  | _ => false

def takesList : Relation → Bool
  | oneOf | noneOf => true
  | _ => false

theorem ofKey?_key (r : Relation) : ofKey? r.key = some r := by cases r <;> rfl

end Relation

/-! ## Empty filters -/

mutual

def Condition.isEmpty : Condition → Bool
  | .scalar _ => false
  | .oneOf values => values.isEmpty
  | .comparisons items => Comparison.allEmpty items

def Comparison.allEmpty : List Comparison → Bool
  | [] => true
  | .compare _ _ :: _ => false
  | .group _ condition :: rest => condition.isEmpty && Comparison.allEmpty rest

end

mutual

def Filter.isEmpty : Filter → Bool
  | .clauses items => Clause.allEmpty items
  | .sequence items => Filter.allEmpty items

def Filter.allEmpty : List Filter → Bool
  | [] => true
  | item :: rest => item.isEmpty && Filter.allEmpty rest

def Clause.allEmpty : List Clause → Bool
  | [] => true
  | .group _ operand :: rest => operand.isEmpty && Clause.allEmpty rest
  | .field _ condition :: rest => condition.isEmpty && Clause.allEmpty rest

end

end DocStore
