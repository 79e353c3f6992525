import DocStore.Filter.Merge

/-!
# Reading filters

`Filter.ofJson` reads a nested filter and `Filter.ofRoot` the filter of a request, which is a
mapping or absent. Every check of form happens here, in document order, and the first violation is
the error. A condition under a connective may be a sequence of comparison mappings, which are
merged before they are read; reading ends because the merged mapping is smaller than the sequence.
-/

namespace DocStore

def Scalar.ofJson (field : String) : Json → Except FilterError Scalar
  | .null => .ok .null
  | .bool b => .ok (.bool b)
  | .number n => .ok (.number n)
  | .string s => .ok (.string s)
  | other => .error (.notScalar field other.kind)

/-- The values of a list under the key of a relation; there has to be one. -/
def Scalar.listOfJson (relation : Relation) (field : String) (items : List Json) :
    Except FilterError (List Scalar) :=
  if items.isEmpty then .error (.noValues relation field)
  else items.mapM (Scalar.ofJson field)

/-- The operand of a relation: a number for a relation of order, a list or a single value for a
relation to a list, a single value for the others. -/
def Operand.ofJson (relation : Relation) (field : String) (value : Json) :
    Except FilterError Operand :=
  if relation.isRange then
    match value with
    | .number n => .ok (.number n)
    | other => .error (.rangeOperand relation other.text)
  else if relation.takesList then
    match value with
    | .array items => .list <$> Scalar.listOfJson relation field items
    | other => (fun v => .list [v]) <$> Scalar.ofJson field other
  else .scalar <$> Scalar.ofJson field value

mutual

def Condition.ofJson (field : String) (value : Json) : Noted Condition :=
  match value with
  | .object entries => .comparisons <$> Comparison.listOfJson field entries
  | .array items => .ofExcept (.oneOf <$> Scalar.listOfJson .oneOf field items)
  | other => .ofExcept (.scalar <$> Scalar.ofJson field other)
termination_by 3 * value.size
decreasing_by simp only [Json.size]; omega

def Comparison.listOfJson (field : String) (entries : List (String × Json)) :
    Noted (List Comparison) :=
  match entries with
  | [] => pure []
  | (key, value) :: rest => do
    let comparison ← Comparison.ofJson field key value
    let comparisons ← Comparison.listOfJson field rest
    return comparison :: comparisons
termination_by 3 * Json.fieldsSize entries + 2
decreasing_by
  · simp only [Json.fieldsSize]; omega
  · have : 0 < value.size := by cases value <;> simp only [Json.size] <;> omega
    simp only [Json.fieldsSize]; omega

def Comparison.ofJson (field key : String) (value : Json) : Noted Comparison :=
  match Connective.ofKey? key with
  | some connective =>
    match value with
    | .array items =>
      let merging := merge field connective items
      match _h : merging.result with
      | .error e => ⟨merging.overwrites, .error e⟩
      | .ok merged =>
        Noted.note merging.overwrites >>= fun _ =>
          .group connective <$> Condition.ofJson field (.object merged)
    | other => .group connective <$> Condition.ofJson field other
  | none =>
    match Relation.ofKey? key with
    | some relation => .ofExcept (.compare relation <$> Operand.ofJson relation field value)
    | none => .fail (.unsupportedOperator key)
termination_by 3 * value.size + 1
decreasing_by
  · have := fieldsSize_merge _h
    simp only [Json.size]; omega
  · omega

end

def isOperatorKey (key : String) : Bool := key.toList.head? == some '$'

mutual

/-- Reads a filter at any level of nesting; `null` is the filter that says nothing. -/
def Filter.ofJson : Json → Noted Filter
  | .null => pure (.clauses [])
  | .object entries => .clauses <$> Clause.listOfJson entries
  | .array items => .sequence <$> Filter.listOfJson items
  | other => .fail (.nestedKind other.kind)

def Filter.listOfJson : List Json → Noted (List Filter)
  | [] => pure []
  | v :: rest => do
    let filter ← Filter.ofJson v
    let filters ← Filter.listOfJson rest
    return filter :: filters

def Clause.listOfJson : List (String × Json) → Noted (List Clause)
  | [] => pure []
  | (key, value) :: rest => do
    let clause ←
      match Connective.ofKey? key with
      | some connective => .group connective <$> Filter.ofJson value
      | none =>
        if isOperatorKey key then .fail (.unsupportedOperator key)
        else .field key <$> Condition.ofJson key value
    let clauses ← Clause.listOfJson rest
    return clause :: clauses

end

/-- Reads the filter of a request. There is none if it is absent, `null` or says nothing. -/
def Filter.ofRoot : Option Json → Noted (Option Filter)
  | none => pure none
  | some .null => pure none
  | some (.object entries) => do
    let filter : Filter := .clauses (← Clause.listOfJson entries)
    return if filter.isEmpty then none else some filter
  | some other => .fail (.rootKind other.kind)

end DocStore
