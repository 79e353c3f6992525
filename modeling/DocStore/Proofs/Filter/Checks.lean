import DocStore.Proofs.Filter.Leaf
import DocStore.Proofs.Filter.Parsed

/-!
# What readers check

A filter is read from left to right, and each `Check` on the way can fail by itself: that of a value
or an operand, and that of the form of what is around it. `rootChecks` lists them. Reading a filter
fails with the error of the first check that fails (`errorOf?_ofRoot`), so that the place of a check
in the list is the place at which reading fails.
-/

namespace DocStore

/-- One step of reading a filter. -/
inductive Check where
  /-- The form is wrong, whatever stands there. -/
  | refused (error : FilterError)
  /-- A value or a list of values as the condition of a field. -/
  | condition (field : String) (value : Json)
  | operand (field : String) (relation : Relation) (value : Json)

def Check.error? : Check → Option FilterError
  | .refused e => some e
  | .condition field v => errorOf? (Condition.ofJson field v).result
  | .operand field relation v => errorOf? (Operand.ofJson relation field v)

mutual

/-- The checks of the condition of a field. -/
def conditionChecks (field : String) (value : Json) : List Check :=
  match value with
  | .object entries => comparisonChecks field entries
  | other => [.condition field other]
termination_by 3 * value.size
decreasing_by simp only [Json.size]; omega

def comparisonChecks (field : String) (entries : List (String × Json)) : List Check :=
  match entries with
  | [] => []
  | (key, value) :: rest => entryChecks field key value ++ comparisonChecks field rest
termination_by 3 * Json.fieldsSize entries + 2
decreasing_by
  · simp only [Json.fieldsSize]; omega
  · have : 0 < value.size := by cases value <;> simp only [Json.size] <;> omega
    simp only [Json.fieldsSize]; omega

def entryChecks (field key : String) (value : Json) : List Check :=
  match Connective.ofKey? key with
  | some connective =>
    match value with
    | .array items =>
      match _h : (merge field connective items).result with
      | .error e => [.refused e]
      | .ok merged => conditionChecks field (.object merged)
    | other => conditionChecks field other
  | none =>
    match Relation.ofKey? key with
    | some relation => [.operand field relation value]
    | none => [.refused (.unsupportedOperator key)]
termination_by 3 * value.size + 1
decreasing_by
  · have := fieldsSize_merge _h
    simp only [Json.size]; omega
  · omega

end

mutual

/-- The checks of a filter at any level of nesting. -/
def filterChecks : Json → List Check
  | .null => []
  | .object entries => clauseChecks entries
  | .array items => sequenceChecks items
  | other => [.refused (.nestedKind other.kind)]

def sequenceChecks : List Json → List Check
  | [] => []
  | v :: rest => filterChecks v ++ sequenceChecks rest

def clauseChecks : List (String × Json) → List Check
  | [] => []
  | (key, value) :: rest =>
    (match Connective.ofKey? key with
      | some _ => filterChecks value
      | none =>
        if isOperatorKey key then [.refused (.unsupportedOperator key)]
        else conditionChecks key value) ++ clauseChecks rest

end

def rootChecks : Option Json → List Check
  | none => []
  | some .null => []
  | some (.object entries) => clauseChecks entries
  | some other => [.refused (.rootKind other.kind)]

/-! ## Checks of entries -/

section

variable {field key : String} {connective : Connective}

theorem entryChecks_relation {relation : Relation} (hr : Relation.ofKey? key = some relation)
    (v : Json) : entryChecks field key v = [.operand field relation v] := by
  rw [entryChecks, Connective.ofKey?_of_relation hr, hr]

theorem entryChecks_unknown (hc : Connective.ofKey? key = none) (hr : Relation.ofKey? key = none)
    (v : Json) : entryChecks field key v = [.refused (.unsupportedOperator key)] := by
  rw [entryChecks, hc, hr]

theorem entryChecks_group (hk : Connective.ofKey? key = some connective) {v : Json}
    (ha : ∀ items, v ≠ .array items) : entryChecks field key v = conditionChecks field v := by
  rw [entryChecks, hk]
  dsimp only
  split
  · exact absurd rfl (ha _)
  · rfl

theorem entryChecks_mappings (hk : Connective.ofKey? key = some connective) (maps : List Fields) :
    entryChecks field key (.array (maps.map .object)) =
      conditionChecks field (.object (Fields.ofEntries maps.flatten)) := by
  have hm := merge_mappings field connective maps
  rw [entryChecks, hk]
  dsimp only
  split
  · rename_i e he
    rw [hm] at he
    cases he
  · rename_i merged he
    rw [hm, Except.ok.injEq] at he
    rw [he]

theorem entryChecks_element (hk : Connective.ofKey? key = some connective) (maps : List Fields)
    {v : Json} (post : List Json) (hv : ∀ fields, v ≠ .object fields) :
    entryChecks field key (.array (maps.map .object ++ v :: post)) =
      [.refused (.notComparisons connective field v.kind)] := by
  have hm := merge_element field connective maps post hv
  rw [entryChecks, hk]
  dsimp only
  split
  · rename_i e he
    rw [hm, Except.error.injEq] at he
    rw [he]
  · rename_i merged he
    rw [hm] at he
    cases he

end

/-! ## The first check that fails -/

theorem errorOf?_functorMap {ε α β : Type} (f : α → β) (x : Except ε α) :
    errorOf? (f <$> x) = errorOf? x := by
  cases x <;> rfl

/-- The error of a result in two steps is that of the first step that has one. -/
theorem errorOf?_checks {α β γ : Type} {x : Noted α} {y : Noted β} {f : α → β → γ}
    {first others : List Check} (hx : errorOf? x.result = first.findSome? Check.error?)
    (hy : errorOf? y.result = others.findSome? Check.error?) :
    errorOf? (do let a ← x; let b ← y; return f a b : Noted γ).result =
      (first ++ others).findSome? Check.error? := by
  rw [Noted.result_both, errorOf?_both, List.findSome?_append, hx, hy]

section

variable {field : String}

mutual

theorem errorOf?_conditionChecks (v : Json) :
    errorOf? (Condition.ofJson field v).result =
      (conditionChecks field v).findSome? Check.error? := by
  match v with
  | .object entries =>
    rw [Condition.ofJson, conditionChecks, Noted.result_map, errorOf?_functorMap]
    exact errorOf?_comparisonChecks entries
  | .array _ | .null | .bool _ | .number _ | .string _ =>
    rw [conditionChecks, List.findSome?_singleton, Check.error?]
    simp
termination_by 3 * v.size
decreasing_by simp only [Json.size]; omega

theorem errorOf?_comparisonChecks (entries : List (String × Json)) :
    errorOf? (Comparison.listOfJson field entries).result =
      (comparisonChecks field entries).findSome? Check.error? := by
  match entries with
  | [] =>
    rw [Comparison.listOfJson, comparisonChecks]
    rfl
  | (key, v) :: rest =>
    rw [Comparison.listOfJson, comparisonChecks]
    exact errorOf?_checks (errorOf?_entryChecks key v) (errorOf?_comparisonChecks rest)
termination_by 3 * Json.fieldsSize entries + 2
decreasing_by
  · simp only [Json.fieldsSize]; omega
  · have : 0 < v.size := by cases v <;> simp only [Json.size] <;> omega
    simp only [Json.fieldsSize]; omega

theorem errorOf?_entryChecks (key : String) (v : Json) :
    errorOf? (Comparison.ofJson field key v).result =
      (entryChecks field key v).findSome? Check.error? := by
  cases hc : Connective.ofKey? key with
  | none =>
    cases hr : Relation.ofKey? key with
    | none =>
      rw [comparison_unknown hc hr, entryChecks_unknown hc hr]
      rfl
    | some relation =>
      rw [comparison_relation hr, entryChecks_relation hr, errorOf?_functorMap,
        List.findSome?_singleton]
      rfl
  | some connective =>
    match v with
    | .array items =>
      rcases mappings_or_element items with ⟨maps, hitems⟩ | ⟨maps, w, post, hitems, hw⟩
      · have hsize : Json.fieldsSize (Fields.ofEntries maps.flatten) ≤ Json.itemsSize items :=
          hitems ▸ fieldsSize_merge (merge_mappings field connective maps)
        rw [hitems, comparison_mappings hc, entryChecks_mappings hc, errorOf?_functorMap]
        exact errorOf?_conditionChecks _
      · rw [hitems, comparison_element hc maps post hw, entryChecks_element hc maps post hw]
        rfl
    | .null | .bool _ | .number _ | .string _ | .object _ =>
      rw [comparison_group hc (by simp), entryChecks_group hc (by simp), errorOf?_functorMap]
      exact errorOf?_conditionChecks _
termination_by 3 * v.size + 1
decreasing_by
  · simp only [Json.size]; omega
  all_goals omega

end

end

mutual

theorem errorOf?_filterChecks : (v : Json) →
    errorOf? (Filter.ofJson v).result = (filterChecks v).findSome? Check.error?
  | .null => rfl
  | .object entries => by
    rw [Filter.ofJson, filterChecks, Noted.result_map, errorOf?_functorMap]
    exact errorOf?_clauseChecks entries
  | .array items => by
    rw [Filter.ofJson, filterChecks, Noted.result_map, errorOf?_functorMap]
    exact errorOf?_sequenceChecks items
  | .bool _ => rfl
  | .number _ => rfl
  | .string _ => rfl

theorem errorOf?_sequenceChecks : (items : List Json) →
    errorOf? (Filter.listOfJson items).result = (sequenceChecks items).findSome? Check.error?
  | [] => rfl
  | v :: rest => by
    rw [Filter.listOfJson, sequenceChecks]
    exact errorOf?_checks (errorOf?_filterChecks v) (errorOf?_sequenceChecks rest)

theorem errorOf?_clauseChecks : (entries : List (String × Json)) →
    errorOf? (Clause.listOfJson entries).result = (clauseChecks entries).findSome? Check.error?
  | [] => rfl
  | (key, v) :: rest => by
    have hrest := errorOf?_clauseChecks rest
    rw [Clause.listOfJson, clauseChecks]
    cases Connective.ofKey? key with
    | some connective =>
      refine errorOf?_checks ?_ hrest
      rw [Noted.result_map, errorOf?_functorMap]
      exact errorOf?_filterChecks v
    | none =>
      cases isOperatorKey key with
      | true => rfl
      | false =>
        refine errorOf?_checks ?_ hrest
        rw [Noted.result_map, errorOf?_functorMap]
        exact errorOf?_conditionChecks v

end

/-- Reading the filter of a request fails with the error of the first check that fails. -/
theorem errorOf?_ofRoot (root : Option Json) :
    errorOf? (Filter.ofRoot root).result = (rootChecks root).findSome? Check.error? := by
  match root with
  | none | some .null => rfl
  | some (.object entries) =>
    rw [Filter.ofRoot, rootChecks, Noted.result_bind, ← errorOf?_clauseChecks]
    cases (Clause.listOfJson entries).result <;> rfl
  | some (.array _) | some (.bool _) | some (.number _) | some (.string _) => rfl

end DocStore
