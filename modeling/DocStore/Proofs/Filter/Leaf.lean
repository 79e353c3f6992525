import DocStore.Proofs.Filter.Statements

/-!
# Leaves of filters

The leaves of a filter are the tests in it, whatever stands around them: values, lists of values and
comparisons, each with the name of its field, from left to right. `Leaf.error?` says what is wrong
with a leaf. Compiling fails exactly if a leaf is bad, and the first bad leaf is the error
(`errorOf?_compile`); neither connectives nor the escaping of literals have a part in that.
-/

namespace DocStore

/-- A test of a field, whatever stands around it. -/
inductive Leaf where
  | value (value : Scalar)
  | oneOf (values : List Scalar)
  | compare (relation : Relation) (operand : Operand)

mutual

/-- The tests in a condition, from left to right. -/
def Condition.leaves : Condition → List Leaf
  | .scalar v => [.value v]
  | .oneOf vs => [.oneOf vs]
  | .comparisons items => Comparison.leavesOf items

def Comparison.leavesOf : List Comparison → List Leaf
  | [] => []
  | .compare relation operand :: rest => .compare relation operand :: Comparison.leavesOf rest
  | .group _ condition :: rest => condition.leaves ++ Comparison.leavesOf rest

end

mutual

/-- The tests in a filter, each with the name of its field, from left to right. -/
def Filter.leaves : Filter → List (String × Leaf)
  | .clauses items => Clause.leavesOf items
  | .sequence items => Filter.leavesOf items

def Filter.leavesOf : List Filter → List (String × Leaf)
  | [] => []
  | item :: rest => item.leaves ++ Filter.leavesOf rest

def Clause.leavesOf : List Clause → List (String × Leaf)
  | [] => []
  | .group _ operand :: rest => operand.leaves ++ Clause.leavesOf rest
  | .field name condition :: rest => condition.leaves.map (name, ·) ++ Clause.leavesOf rest

end

/-! ## Bad leaves -/

/-- The double that a relation of order compares with. -/
def Relation.limit (relation : Relation) (n : Number) : Binary64 :=
  match relation with
  | .greater => Filter.exclusiveLowerBound n
  | .less => Filter.exclusiveUpperBound n
  | _ => n.toBinary64

/-- What is wrong with the operand of a relation: that of a relation of order has to be a number
with a finite limit, that of a relation to a list is a single value or a list with a value in it,
and the other relations take a single value. -/
def Operand.error? (attr : String) (relation : Relation) (operand : Operand) : Option FilterError :=
  match operand with
  | .number n =>
    if relation.isRange = false then some (.operandForm relation operand)
    else if (relation.limit n).isFinite then none
    else some (.rangeOperand relation operand.shown)
  | .list values =>
    if relation.isRange then some (.rangeOperand relation operand.shown)
    else if relation.takesList = false then some (.operandForm relation operand)
    else if values = [] then some (.emptyList attr)
    else none
  | .scalar _ =>
    if relation.isRange then some (.rangeOperand relation operand.shown) else none

def Leaf.error? (attr : String) : Leaf → Option FilterError
  | .value _ => none
  | .oneOf values => if values = [] then some (.emptyList attr) else none
  | .compare relation operand => operand.error? attr relation

/-- The error of a result that is one. -/
def errorOf? {ε α : Type} : Except ε α → Option ε
  | .error e => some e
  | .ok _ => none

section

variable {ε α β γ : Type}

theorem errorOf?_eq_some {x : Except ε α} {e : ε} : errorOf? x = some e ↔ x = .error e := by
  cases x <;> simp [errorOf?]

theorem errorOf?_eq_none {x : Except ε α} : errorOf? x = none ↔ ∃ a, x = .ok a := by
  cases x <;> simp [errorOf?]

theorem errorOf?_map (x : Except ε α) (f : α → β) :
    errorOf? (do return f (← x)) = errorOf? x := by
  cases x <;> rfl

/-- Of two results that are put together the first error counts. -/
theorem errorOf?_both (x : Except ε α) (y : Except ε β) (f : α → β → γ) :
    errorOf? (do let a ← x; let b ← y; return f a b) = (errorOf? x).or (errorOf? y) := by
  cases x with
  | error e => rfl
  | ok a => cases y <;> rfl

end

/-! ## Compiling leaves -/

namespace Filter

variable (options : Options) (attr : String)

theorem bound?_isNone (relation : Relation) (n : Number) :
    (bound? relation n).isNone = !(relation.limit n).isFinite := by
  cases relation <;> simp only [bound?, Relation.limit] <;> split <;> simp_all

theorem errorOf?_membership (negated : Bool) (values : List Scalar) :
    errorOf? (membership options negated attr values) =
      if values = [] then some (.emptyList attr) else none := by
  cases values <;> rfl

theorem errorOf?_range (relation : Relation) (hr : relation.isRange = true) (operand : Operand) :
    errorOf? (range attr relation operand) = operand.error? attr relation := by
  cases operand with
  | number n =>
    have hnone := bound?_isNone relation n
    simp only [range, Operand.error?, hr, Bool.true_eq_false, if_false]
    cases hb : bound? relation n with
    | none =>
      rw [hb, Option.isNone_none, eq_comm, Bool.not_eq_true'] at hnone
      simp [hnone, errorOf?]
    | some bound =>
      rw [hb, Option.isNone_some, eq_comm, Bool.not_eq_false'] at hnone
      simp [hnone, errorOf?]
  | list values => simp [range, Operand.error?, hr, errorOf?]
  | scalar v => simp [range, Operand.error?, hr, errorOf?]

theorem errorOf?_comparison (relation : Relation) (operand : Operand) :
    errorOf? (comparison options attr relation operand) = operand.error? attr relation := by
  cases relation with
  | greater | greaterOrEqual | less | lessOrEqual => exact errorOf?_range attr _ rfl operand
  | equal | notEqual => cases operand <;> rfl
  | oneOf | noneOf =>
    cases operand with
    | list values => exact errorOf?_membership options attr _ values
    | scalar v => rfl
    | number n => rfl

mutual

theorem errorOf?_condition : (c : Condition) →
    errorOf? (conditionStatements options attr c) = c.leaves.findSome? (·.error? attr)
  | .scalar v => rfl
  | .oneOf vs => by
    rw [conditionStatements, errorOf?_map, errorOf?_membership]
    simp [Condition.leaves, Leaf.error?]
  | .comparisons items => errorOf?_comparisons items

theorem errorOf?_comparisons : (items : List Comparison) →
    errorOf? (comparisonStatements options attr items) =
      (Comparison.leavesOf items).findSome? (·.error? attr)
  | [] => rfl
  | .compare relation operand :: rest => by
    rw [comparisonStatements, errorOf?_both, errorOf?_comparison, errorOf?_comparisons rest]
    simp only [Comparison.leavesOf, List.findSome?_cons, Leaf.error?]
    cases operand.error? attr relation <;> rfl
  | .group connective condition :: rest => by
    rw [comparisonStatements, errorOf?_both, errorOf?_condition condition,
      errorOf?_comparisons rest, Comparison.leavesOf, List.findSome?_append]

end

def leafError? (schema : Schema) (leaf : String × Leaf) : Option FilterError :=
  leaf.2.error? (schema.attributeOf leaf.1)

theorem findSome?_leafError? (schema : Schema) (name : String) (leaves : List Leaf) :
    (leaves.map (name, ·)).findSome? (leafError? schema) =
      leaves.findSome? (·.error? (schema.attributeOf name)) := by
  rw [List.findSome?_map]
  rfl

mutual

theorem errorOf?_statements : (f : Filter) →
    errorOf? (statements options f) = f.leaves.findSome? (leafError? options.schema)
  | .clauses items => errorOf?_clauses items
  | .sequence items => errorOf?_sequence items

theorem errorOf?_sequence : (items : List Filter) →
    errorOf? (sequenceStatements options items) =
      (Filter.leavesOf items).findSome? (leafError? options.schema)
  | [] => rfl
  | item :: rest => by
    rw [sequenceStatements, errorOf?_both, errorOf?_statements item, errorOf?_sequence rest,
      Filter.leavesOf, List.findSome?_append]

theorem errorOf?_clauses : (items : List Clause) →
    errorOf? (clauseStatements options items) =
      (Clause.leavesOf items).findSome? (leafError? options.schema)
  | [] => rfl
  | .group connective operand :: rest => by
    rw [clauseStatements, errorOf?_both, errorOf?_statements operand, errorOf?_clauses rest,
      Clause.leavesOf, List.findSome?_append]
  | .field name condition :: rest => by
    rw [clauseStatements, errorOf?_both, errorOf?_condition, errorOf?_clauses rest,
      Clause.leavesOf, List.findSome?_append, findSome?_leafError?]

end

/-- The error of a filter is that of its first bad leaf, under whatever connective. -/
theorem errorOf?_compile (connective : Connective) (f : Filter) :
    errorOf? (compile options connective f) = f.leaves.findSome? (leafError? options.schema) := by
  rw [compile, errorOf?_map, errorOf?_statements]

end Filter

end DocStore
