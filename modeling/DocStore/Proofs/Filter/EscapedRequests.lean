import DocStore.Proofs.Filter.Escaped

/-!
# Requests with escaped operands

`escapeFilter` escapes the values and lists that fields are compared with in the filter of a
request, wherever they stand, and leaves the keys as they are. What is read of such a filter is the
filter with escaped strings, and reading fails at the same check. Escaping beforehand is therefore
the same as escaping while compiling (`escaped_beforehand`).
-/

namespace DocStore

namespace Filter

/-! ## Escaping operands -/

mutual

/-- Escapes the operands in the condition of a field. -/
def escapeCondition : Json → Json
  | .object entries => .object (escapeComparisons entries)
  | other => escapeValue other

def escapeComparisons : List (String × Json) → List (String × Json)
  | [] => []
  | (key, v) :: rest =>
    (key, if (Connective.ofKey? key).isSome then escapeGroup v else escapeValue v) ::
      escapeComparisons rest

/-- Escapes the operands under a connective of a field. -/
def escapeGroup : Json → Json
  | .array items => .array (escapeMappings items)
  | .object entries => .object (escapeComparisons entries)
  | other => escapeValue other

def escapeMappings : List Json → List Json
  | [] => []
  | .object entries :: rest => .object (escapeComparisons entries) :: escapeMappings rest
  | other :: rest => other :: escapeMappings rest

end

mutual

/-- Escapes the operands in a filter. -/
def escapeFilter : Json → Json
  | .object entries => .object (escapeClauses entries)
  | .array items => .array (escapeFilters items)
  | other => other

def escapeFilters : List Json → List Json
  | [] => []
  | v :: rest => escapeFilter v :: escapeFilters rest

def escapeClauses : List (String × Json) → List (String × Json)
  | [] => []
  | (key, v) :: rest =>
    (key, if (Connective.ofKey? key).isSome then escapeFilter v else escapeCondition v) ::
      escapeClauses rest

end

theorem escapeItems_eq_map (items : List Json) : escapeItems items = items.map escapeValue := by
  induction items with
  | nil => rfl
  | cons v rest ih => rw [escapeItems, ih, List.map_cons]

/-- Escapes an entry of a mapping of comparisons. -/
def escapeEntry (key : String) (v : Json) : Json :=
  if (Connective.ofKey? key).isSome then escapeGroup v else escapeValue v

theorem escapeComparisons_eq_map (entries : List (String × Json)) :
    escapeComparisons entries = entries.map fun e => (e.1, escapeEntry e.1 e.2) := by
  induction entries with
  | nil => rfl
  | cons e rest ih => rw [escapeComparisons, ih, List.map_cons, escapeEntry]

/-- The union of mappings with escaped operands. -/
theorem ofEntries_escapeComparisons (maps : List Fields) :
    Fields.ofEntries (maps.map escapeComparisons).flatten =
      escapeComparisons (Fields.ofEntries maps.flatten) := by
  have hflatten : (maps.map escapeComparisons).flatten =
      maps.flatten.map fun e => (e.1, escapeEntry e.1 e.2) := by
    rw [List.map_flatten]
    refine congrArg List.flatten (List.map_congr_left fun fields _ => ?_)
    exact escapeComparisons_eq_map fields
  rw [hflatten, Fields.ofEntries_map, escapeComparisons_eq_map]

theorem escapeMappings_append (maps : List Fields) (rest : List Json) :
    escapeMappings (maps.map .object ++ rest) =
      (maps.map escapeComparisons).map .object ++ escapeMappings rest := by
  induction maps with
  | nil => rfl
  | cons fields maps ih =>
    simp only [List.map_cons, List.cons_append, escapeMappings, ih]

theorem escapeMappings_map (maps : List Fields) :
    escapeMappings (maps.map .object) = (maps.map escapeComparisons).map .object := by
  have h := escapeMappings_append maps []
  rwa [List.append_nil, escapeMappings, List.append_nil] at h

theorem escapeMappings_cons {v : Json} (hv : ∀ fields, v ≠ .object fields) (rest : List Json) :
    escapeMappings (v :: rest) = v :: escapeMappings rest := by
  cases v with
  | object fields => exact absurd rfl (hv fields)
  | _ => rfl

theorem escapeGroup_of_ne_array {v : Json} (hv : ∀ items, v ≠ .array items) :
    escapeGroup v = escapeCondition v := by
  cases v with
  | array items => exact absurd rfl (hv items)
  | _ => rfl

theorem escapeCondition_ne_array {v : Json} (hv : ∀ items, v ≠ .array items) (items : List Json) :
    escapeCondition v ≠ .array items := by
  cases v with
  | array items => exact absurd rfl (hv items)
  | _ => exact nofun

theorem escapeCondition_of_ne_object {v : Json} (hv : ∀ entries, v ≠ .object entries) :
    escapeCondition v = escapeValue v := by
  cases v with
  | object entries => exact absurd rfl (hv entries)
  | _ => rfl

theorem escapeValue_ne_object {v : Json} (hv : ∀ entries, v ≠ .object entries)
    (entries : List (String × Json)) : escapeValue v ≠ .object entries := by
  cases v with
  | object entries => exact absurd rfl (hv entries)
  | string s | array items => exact nofun
  | _ => exact hv entries

theorem escapeEntry_connective {key : String} {connective : Connective}
    (hk : Connective.ofKey? key = some connective) (v : Json) :
    escapeEntry key v = escapeGroup v := by
  rw [escapeEntry, hk]
  rfl

theorem escapeEntry_other {key : String} (hk : Connective.ofKey? key = none) (v : Json) :
    escapeEntry key v = escapeValue v := by
  rw [escapeEntry, hk]
  rfl

/-! ## Reading escaped operands -/

section

variable {ε α β γ α' β' γ' : Type}

theorem toOption_map_congr {x : Except ε α} {x' : Except ε α'} {g : α → α'} {g' : β → β'}
    {f : α → β} {f' : α' → β'} (hx : x'.toOption = x.toOption.map g)
    (hf : ∀ a, f' (g a) = g' (f a)) :
    (f' <$> x').toOption = (f <$> x).toOption.map g' := by
  rw [toOption_map, toOption_map, hx, Option.map_map, Option.map_map]
  exact congrArg (Option.map · _) (funext hf)

/-- Two results in a row, and two others whose values are those of the first under a function. -/
theorem toOption_both_map {x : Except ε α} {x' : Except ε α'} {y : Except ε β} {y' : Except ε β'}
    {g₁ : α → α'} {g₂ : β → β'} {g : γ → γ'} {f : α → β → γ} {f' : α' → β' → γ'}
    (hx : x'.toOption = x.toOption.map g₁) (hy : y'.toOption = y.toOption.map g₂)
    (hf : ∀ a b, f' (g₁ a) (g₂ b) = g (f a b)) :
    (do let a ← x'; let b ← y'; return f' a b).toOption =
      (do let a ← x; let b ← y; return f a b).toOption.map g := by
  rw [toOption_both, toOption_both, hx, hy]
  cases x.toOption with
  | none => rfl
  | some a =>
    cases y.toOption with
    | none => rfl
    | some b => exact congrArg some (hf a b)

end

section

variable {field : String}

theorem toOption_scalar_escaped (v : Json) :
    (Scalar.ofJson field (escapeValue v)).toOption =
      (Scalar.ofJson field v).toOption.map Scalar.escaped := by
  cases v <;> rfl

theorem toOption_scalars_escaped (items : List Json) :
    ((items.map escapeValue).mapM (Scalar.ofJson field)).toOption =
      (items.mapM (Scalar.ofJson field)).toOption.map (List.map Scalar.escaped) := by
  induction items with
  | nil => rfl
  | cons v rest ih =>
    rw [List.map_cons, List.mapM_cons, List.mapM_cons]
    exact toOption_both_map (toOption_scalar_escaped v) ih fun _ _ => rfl

theorem toOption_list_escaped (relation : Relation) (items : List Json) :
    (Scalar.listOfJson relation field (escapeItems items)).toOption =
      (Scalar.listOfJson relation field items).toOption.map (List.map Scalar.escaped) := by
  rw [escapeItems_eq_map, Scalar.listOfJson, Scalar.listOfJson, List.isEmpty_map]
  split
  · rfl
  · exact toOption_scalars_escaped items

theorem toOption_operand_escaped (relation : Relation) (v : Json) :
    (Operand.ofJson relation field (escapeValue v)).toOption =
      (Operand.ofJson relation field v).toOption.map Operand.escaped := by
  unfold Operand.ofJson
  split
  · cases v <;> rfl
  · split
    · cases v with
      | array items =>
        exact toOption_map_congr (toOption_list_escaped relation items) fun _ => rfl
      | _ => rfl
    · exact toOption_map_congr (toOption_scalar_escaped v) fun _ => rfl

theorem toOption_scalarCondition_escaped {v : Json} (hv : v.IsScalar) :
    (Condition.ofJson field (escapeCondition v)).result.toOption =
      (Condition.ofJson field v).result.toOption.map Condition.escaped := by
  have hv' : (escapeValue v).IsScalar := by cases v <;> exact hv
  have ho : ∀ entries, v ≠ .object entries := by
    rintro entries rfl
    exact hv
  rw [escapeCondition_of_ne_object ho, condition_scalar field hv', condition_scalar field hv]
  exact toOption_map_congr (toOption_scalar_escaped v) fun _ => rfl

mutual

theorem toOption_condition_escaped (v : Json) :
    (Condition.ofJson field (escapeCondition v)).result.toOption =
      (Condition.ofJson field v).result.toOption.map Condition.escaped := by
  match v with
  | .object entries =>
    rw [escapeCondition, Condition.ofJson, Condition.ofJson, Noted.result_map, Noted.result_map]
    exact toOption_map_congr (toOption_comparisons_escaped entries) fun _ => rfl
  | .array items =>
    show (Condition.ofJson field (.array (escapeItems items))).result.toOption = _
    rw [Condition.ofJson, Condition.ofJson]
    exact toOption_map_congr (toOption_list_escaped .oneOf items) fun _ => rfl
  | .null | .bool _ | .number _ | .string _ => exact toOption_scalarCondition_escaped trivial
termination_by 3 * v.size
decreasing_by simp only [Json.size]; omega

theorem toOption_comparisons_escaped (entries : List (String × Json)) :
    (Comparison.listOfJson field (escapeComparisons entries)).result.toOption =
      (Comparison.listOfJson field entries).result.toOption.map Comparison.allEscaped := by
  match entries with
  | [] =>
    rw [escapeComparisons, Comparison.listOfJson]
    rfl
  | (key, v) :: rest =>
    rw [escapeComparisons, Comparison.listOfJson, Comparison.listOfJson, Noted.result_both,
      Noted.result_both]
    exact toOption_both_map (toOption_comparison_escaped key v) (toOption_comparisons_escaped rest)
      fun _ _ => rfl
termination_by 3 * Json.fieldsSize entries + 2
decreasing_by
  · simp only [Json.fieldsSize]; omega
  · have : 0 < v.size := by cases v <;> simp only [Json.size] <;> omega
    simp only [Json.fieldsSize]; omega

theorem toOption_comparison_escaped (key : String) (v : Json) :
    (Comparison.ofJson field key (escapeEntry key v)).result.toOption =
      (Comparison.ofJson field key v).result.toOption.map Comparison.escaped := by
  cases hc : Connective.ofKey? key with
  | none =>
    rw [escapeEntry_other hc]
    cases hr : Relation.ofKey? key with
    | none =>
      rw [comparison_unknown hc hr, comparison_unknown hc hr]
      rfl
    | some relation =>
      rw [comparison_relation hr, comparison_relation hr]
      exact toOption_map_congr (toOption_operand_escaped relation v) fun _ => rfl
  | some connective =>
    rw [escapeEntry_connective hc]
    match v with
    | .array items =>
      rcases mappings_or_element items with ⟨maps, hitems⟩ | ⟨maps, w, post, hitems, hw⟩
      · have hsize : Json.fieldsSize (Fields.ofEntries maps.flatten) ≤ Json.itemsSize items :=
          hitems ▸ fieldsSize_merge (merge_mappings field connective maps)
        rw [hitems, escapeGroup, escapeMappings_map, comparison_mappings hc,
          comparison_mappings hc, ofEntries_escapeComparisons]
        exact toOption_map_congr
          (toOption_condition_escaped (.object (Fields.ofEntries maps.flatten))) fun _ => rfl
      · rw [hitems, escapeGroup, escapeMappings_append, escapeMappings_cons hw,
          comparison_element hc _ _ hw, comparison_element hc _ _ hw]
        rfl
    | .null | .bool _ | .number _ | .string _ | .object _ =>
      rw [escapeGroup_of_ne_array (by simp),
        comparison_group hc (escapeCondition_ne_array (by simp)), comparison_group hc (by simp)]
      exact toOption_map_congr (toOption_condition_escaped _) fun _ => rfl
termination_by 3 * v.size + 1
decreasing_by
  · simp only [Json.size]; omega
  all_goals omega

end

end

mutual

theorem toOption_filter_escaped : (v : Json) →
    (Filter.ofJson (escapeFilter v)).result.toOption =
      (Filter.ofJson v).result.toOption.map escaped
  | .object entries => by
    rw [escapeFilter, Filter.ofJson, Filter.ofJson, Noted.result_map, Noted.result_map]
    exact toOption_map_congr (toOption_clauses_escaped entries) fun _ => rfl
  | .array items => by
    rw [escapeFilter, Filter.ofJson, Filter.ofJson, Noted.result_map, Noted.result_map]
    exact toOption_map_congr (toOption_filters_escaped items) fun _ => rfl
  | .null => rfl
  | .bool _ => rfl
  | .number _ => rfl
  | .string _ => rfl

theorem toOption_filters_escaped : (items : List Json) →
    (Filter.listOfJson (escapeFilters items)).result.toOption =
      (Filter.listOfJson items).result.toOption.map allEscaped
  | [] => rfl
  | v :: rest => by
    rw [escapeFilters, Filter.listOfJson, Filter.listOfJson, Noted.result_both, Noted.result_both]
    exact toOption_both_map (toOption_filter_escaped v) (toOption_filters_escaped rest)
      fun _ _ => rfl

theorem toOption_clauses_escaped : (entries : List (String × Json)) →
    (Clause.listOfJson (escapeClauses entries)).result.toOption =
      (Clause.listOfJson entries).result.toOption.map Clause.allEscaped
  | [] => rfl
  | (key, v) :: rest => by
    have hrest := toOption_clauses_escaped rest
    rw [escapeClauses, Clause.listOfJson, Clause.listOfJson]
    cases Connective.ofKey? key with
    | some connective =>
      simp only [Option.isSome_some, if_true]
      rw [Noted.result_both, Noted.result_both, Noted.result_map, Noted.result_map]
      exact toOption_both_map (toOption_map_congr (toOption_filter_escaped v) fun _ => rfl) hrest
        fun _ _ => rfl
    | none =>
      simp only [Option.isSome_none, Bool.false_eq_true, if_false]
      cases isOperatorKey key with
      | true => rfl
      | false =>
        simp only [Bool.false_eq_true, if_false]
        rw [Noted.result_both, Noted.result_both, Noted.result_map, Noted.result_map]
        exact toOption_both_map (toOption_map_congr (toOption_condition_escaped v) fun _ => rfl)
          hrest fun _ _ => rfl

end

theorem ofRoot_object (entries : List (String × Json)) :
    (ofRoot (some (.object entries))).result =
      (fun items => if isEmpty (.clauses items) then none else some (.clauses items)) <$>
        (Clause.listOfJson entries).result := by
  rw [ofRoot, Noted.result_bind]
  rfl

theorem toOption_root_escaped (root : Option Json) :
    (ofRoot (root.map escapeFilter)).result.toOption =
      (ofRoot root).result.toOption.map (Option.map escaped) := by
  match root with
  | some (.object entries) =>
    rw [Option.map_some, escapeFilter, ofRoot_object, ofRoot_object]
    refine toOption_map_congr (toOption_clauses_escaped entries) fun items => ?_
    have hempty : isEmpty (.clauses (Clause.allEscaped items)) = isEmpty (.clauses items) :=
      isEmpty_escaped (.clauses items)
    rw [hempty, apply_ite (Option.map escaped)]
    rfl
  | none | some .null | some (.array _) | some (.bool _) | some (.number _) | some (.string _) =>
    rfl

/-! ## Checks of escaped operands -/

section

variable {α β : Type} {x : Except FilterError α} {x' : Except FilterError β}

/-- Results that fail together, with errors of one kind. -/
theorem kind_errorOf?_congr {g : α → β} {kind : FilterError.Kind}
    (h : x'.toOption = x.toOption.map g) (hx : ∀ e, x = .error e → e.kind = kind)
    (hx' : ∀ e, x' = .error e → e.kind = kind) :
    (errorOf? x').map FilterError.kind = (errorOf? x).map FilterError.kind := by
  cases x with
  | ok a => rw [eq_ok_of_toOption h]; rfl
  | error e =>
    cases x' with
    | ok b => cases h
    | error e' => simp [errorOf?, hx e rfl, hx' e' rfl]

end

theorem kind_of_listFault {relation : Relation} {field : String} {items : List Json}
    {e : FilterError} (h : Scalar.ListFault relation field items e) : e.kind = .malformed := by
  cases h <;> rfl

theorem kind_of_operand_error {relation : Relation} {field : String} {v : Json} {e : FilterError}
    (h : Operand.ofJson relation field v = .error e) :
    e.kind = if relation.isRange then .rangeOperand else .malformed := by
  cases ((decides_operand relation v).rejects e).mp h with
  | range hr => rw [if_pos hr]; rfl
  | list hl hf => rw [Relation.isRange_of_takesList hl]; exact kind_of_listFault hf
  | single hr => rw [hr]; rfl

theorem kind_of_condition_error {field : String} {v : Json} (hv : ∀ entries, v ≠ .object entries)
    {e : FilterError} (h : (Condition.ofJson field v).result = .error e) : e.kind = .malformed := by
  cases ((decides_condition v).rejects e).mp h with
  | list hf => exact kind_of_listFault hf
  | mapping => exact absurd rfl (hv _)

theorem kind_condition_escaped {field : String} {v : Json} (hv : ∀ entries, v ≠ .object entries) :
    (errorOf? (Condition.ofJson field (escapeValue v)).result).map FilterError.kind =
      (errorOf? (Condition.ofJson field v).result).map FilterError.kind := by
  have h : (Condition.ofJson field (escapeCondition v)).result.toOption = _ :=
    toOption_condition_escaped v
  rw [escapeCondition_of_ne_object hv] at h
  exact kind_errorOf?_congr h (fun _ => kind_of_condition_error hv)
    fun _ => kind_of_condition_error (escapeValue_ne_object hv)

/-- The check with its operand escaped. -/
def escapedCheck : Check → Check
  | .refused e => .refused e
  | .condition field v => .condition field (escapeValue v)
  | .operand field relation v => .operand field relation (escapeValue v)

/-- Which checks fail, and with which kind of error, does not change. -/
theorem kind_error?_escapedCheck (c : Check) :
    (escapedCheck c).error?.map FilterError.kind = c.error?.map FilterError.kind := by
  cases c with
  | refused e => rfl
  | operand field relation v =>
    exact kind_errorOf?_congr (toOption_operand_escaped relation v)
      (fun _ => kind_of_operand_error) fun _ => kind_of_operand_error
  | condition field v =>
    cases v with
    | object entries => rfl
    | _ => exact kind_condition_escaped (by simp)

section

variable {field : String}

mutual

theorem conditionChecks_escaped (v : Json) :
    conditionChecks field (escapeCondition v) = (conditionChecks field v).map escapedCheck := by
  match v with
  | .object entries =>
    rw [escapeCondition, conditionChecks, conditionChecks]
    exact comparisonChecks_escaped entries
  | .array _ | .null | .bool _ | .number _ | .string _ =>
    simp [conditionChecks, escapeCondition, escapeValue, escapedCheck]
termination_by 3 * v.size
decreasing_by simp only [Json.size]; omega

theorem comparisonChecks_escaped (entries : List (String × Json)) :
    comparisonChecks field (escapeComparisons entries) =
      (comparisonChecks field entries).map escapedCheck := by
  match entries with
  | [] =>
    rw [escapeComparisons, comparisonChecks]
    rfl
  | (key, v) :: rest =>
    rw [escapeComparisons, comparisonChecks, comparisonChecks, List.map_append,
      ← entryChecks_escaped key v, ← comparisonChecks_escaped rest]
    rfl
termination_by 3 * Json.fieldsSize entries + 2
decreasing_by
  · simp only [Json.fieldsSize]; omega
  · have : 0 < v.size := by cases v <;> simp only [Json.size] <;> omega
    simp only [Json.fieldsSize]; omega

theorem entryChecks_escaped (key : String) (v : Json) :
    entryChecks field key (escapeEntry key v) = (entryChecks field key v).map escapedCheck := by
  cases hc : Connective.ofKey? key with
  | none =>
    rw [escapeEntry_other hc]
    cases hr : Relation.ofKey? key with
    | none =>
      rw [entryChecks_unknown hc hr, entryChecks_unknown hc hr]
      rfl
    | some relation =>
      rw [entryChecks_relation hr, entryChecks_relation hr]
      rfl
  | some connective =>
    rw [escapeEntry_connective hc]
    match v with
    | .array items =>
      rcases mappings_or_element items with ⟨maps, hitems⟩ | ⟨maps, w, post, hitems, hw⟩
      · have hsize : Json.fieldsSize (Fields.ofEntries maps.flatten) ≤ Json.itemsSize items :=
          hitems ▸ fieldsSize_merge (merge_mappings field connective maps)
        rw [hitems, escapeGroup, escapeMappings_map, entryChecks_mappings hc,
          entryChecks_mappings hc, ofEntries_escapeComparisons]
        exact conditionChecks_escaped (.object (Fields.ofEntries maps.flatten))
      · rw [hitems, escapeGroup, escapeMappings_append, escapeMappings_cons hw,
          entryChecks_element hc _ _ hw, entryChecks_element hc _ _ hw]
        rfl
    | .null | .bool _ | .number _ | .string _ | .object _ =>
      rw [escapeGroup_of_ne_array (by simp),
        entryChecks_group hc (escapeCondition_ne_array (by simp)), entryChecks_group hc (by simp)]
      exact conditionChecks_escaped _
termination_by 3 * v.size + 1
decreasing_by
  · simp only [Json.size]; omega
  all_goals omega

end

end

mutual

theorem filterChecks_escaped : (v : Json) →
    filterChecks (escapeFilter v) = (filterChecks v).map escapedCheck
  | .object entries => clauseChecks_escaped entries
  | .array items => sequenceChecks_escaped items
  | .null => rfl
  | .bool _ => rfl
  | .number _ => rfl
  | .string _ => rfl

theorem sequenceChecks_escaped : (items : List Json) →
    sequenceChecks (escapeFilters items) = (sequenceChecks items).map escapedCheck
  | [] => rfl
  | v :: rest => by
    rw [escapeFilters, sequenceChecks, sequenceChecks, List.map_append, filterChecks_escaped v,
      sequenceChecks_escaped rest]

theorem clauseChecks_escaped : (entries : List (String × Json)) →
    clauseChecks (escapeClauses entries) = (clauseChecks entries).map escapedCheck
  | [] => rfl
  | (key, v) :: rest => by
    rw [escapeClauses, clauseChecks, clauseChecks, List.map_append, clauseChecks_escaped rest]
    cases Connective.ofKey? key with
    | some connective => exact congrArg (· ++ _) (filterChecks_escaped v)
    | none =>
      cases isOperatorKey key with
      | true => rfl
      | false => exact congrArg (· ++ _) (conditionChecks_escaped v)

end

theorem rootChecks_escaped (root : Option Json) :
    rootChecks (root.map escapeFilter) = (rootChecks root).map escapedCheck := by
  match root with
  | some (.object entries) => exact clauseChecks_escaped entries
  | none | some .null | some (.array _) | some (.bool _) | some (.number _) | some (.string _) =>
    rfl

/-! ## Requests -/

/-- A place in the filter of a request: a check of the reader, or a leaf of what was read. -/
inductive Place where
  | check (index : Nat)
  | leaf (index : Nat)

/-- The filter of a request fails at the first check that fails while it is read, or else at the
first leaf that fails to compile. -/
inductive RequestFailsAt (options : Options) (root : Option Json) : Place → FilterError → Prop where
  | reading {index : Nat} {e : FilterError}
    (h : FirstAt Check.error? (rootChecks root) index e) :
    RequestFailsAt options root (.check index) e
  | compiling {f : Filter} {index : Nat} {e : FilterError}
    (hf : (ofRoot root).result = .ok (some f)) (h : FailsAt options f index e) :
    RequestFailsAt options root (.leaf index) e

theorem result_compileJson (options : Options) (root : Option Json) :
    (compileJson options root).result =
      (ofRoot root).result >>= fun f? =>
        match f? with
        | none => .ok none
        | some f => compile options .and f := by
  rw [compileJson, Noted.result_bind]
  cases (ofRoot root).result with
  | error e => rfl
  | ok f? => cases f? <;> rfl

theorem sameOutcome_compileJson (schema : Schema) (root : Option Json) :
    SameOutcome (RequestFailsAt ⟨schema, true⟩ root)
      (RequestFailsAt ⟨schema, false⟩ (root.map escapeFilter))
      (compileJson ⟨schema, true⟩ root).result
      (compileJson ⟨schema, false⟩ (root.map escapeFilter)).result := by
  have hread := toOption_root_escaped root
  rw [result_compileJson, result_compileJson]
  cases hroot : (ofRoot root).result with
  | error e =>
    have hchecks := errorOf?_ofRoot root
    have hchecks' := errorOf?_ofRoot (root.map escapeFilter)
    rw [hroot] at hchecks
    rw [rootChecks_escaped] at hchecks'
    obtain ⟨place, e', hplace, hplace', hk, he'⟩ :=
      exists_place_of_error hchecks.symm hchecks' kind_error?_escapedCheck
    rw [he']
    exact .failure (.reading hplace) (.reading (rootChecks_escaped root ▸ hplace')) hk
  | ok f? =>
    rw [hroot] at hread
    have hread' := eq_ok_of_toOption hread
    rw [hread']
    cases f? with
    | none => exact .result none
    | some f =>
      exact (sameOutcome_compile schema .and f).within .leaf (fun _ _ => .compiling hroot)
        fun _ _ => .compiling hread'

/-- Escaping while compiling is the same as escaping beforehand and not while compiling: the filter
string is the same, and so are the place of failure and the kind of its error. That holds of filters
with escaped strings, under whatever connective, and of requests with escaped operands. -/
theorem escaped_beforehand (schema : Schema) :
    (∀ (connective : Connective) (f : Filter),
      SameOutcome (FailsAt ⟨schema, true⟩ f) (FailsAt ⟨schema, false⟩ f.escaped)
        (compile ⟨schema, true⟩ connective f) (compile ⟨schema, false⟩ connective f.escaped)) ∧
      ∀ root : Option Json,
        SameOutcome (RequestFailsAt ⟨schema, true⟩ root)
          (RequestFailsAt ⟨schema, false⟩ (root.map escapeFilter))
          (compileJson ⟨schema, true⟩ root).result
          (compileJson ⟨schema, false⟩ (root.map escapeFilter)).result :=
  ⟨sameOutcome_compile schema, sameOutcome_compileJson schema⟩

end Filter

end DocStore
