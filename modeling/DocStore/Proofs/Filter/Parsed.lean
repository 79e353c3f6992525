import DocStore.Filter.OfJson
import DocStore.Proofs.Filter.Statements
import DocStore.Proofs.Json.Fields

/-!
# What reading gives

Each reader of filters with what it gives where it succeeds. `ComparisonRead` lists what an entry of
a comparison mapping can be read as, and `merge_ok` says which entries the mapping has that stands
for a sequence of mappings.
-/

namespace DocStore

theorem Noted.map_eq_ok {α β : Type} {x : Noted α} {f : α → β} {b : β}
    (h : (f <$> x).result = .ok b) : ∃ a, x.result = .ok a ∧ b = f a := by
  obtain ⟨a, ha, h⟩ := Noted.bind_eq_ok h
  cases h
  exact ⟨a, ha, rfl⟩

theorem Noted.map_of_ok {α β : Type} {x : Noted α} {a : α} (h : x.result = .ok a) (f : α → β) :
    (f <$> x).result = .ok (f a) := by
  show (x >>= fun a => pure (f a)).result = _
  rw [bind_of_ok h]
  rfl

theorem Noted.result_bind {α β : Type} (x : Noted α) (f : α → Noted β) :
    (x >>= f).result = x.result >>= fun a => (f a).result := by
  cases h : x.result with
  | error e => rw [bind_of_error h]; rfl
  | ok a => rw [bind_of_ok h]; rfl

theorem Noted.result_map {α β : Type} (f : α → β) (x : Noted α) :
    (f <$> x).result = f <$> x.result := by
  show (x >>= fun a => pure (f a)).result = _
  rw [result_bind]
  cases x.result <;> rfl

theorem Noted.result_both {α β γ : Type} (x : Noted α) (y : Noted β) (f : α → β → γ) :
    (do let a ← x; let b ← y; return f a b : Noted γ).result =
      do let a ← x.result; let b ← y.result; return f a b := by
  rw [result_bind]
  simp only [result_bind]
  rfl

/-- Two results in a row that are put together. -/
theorem Noted.both_eq_ok {α β γ : Type} {x : Noted α} {y : Noted β} {f : α → β → γ} {c : γ}
    (h : (do let a ← x; let b ← y; return f a b : Noted γ).result = .ok c) :
    ∃ a b, x.result = .ok a ∧ y.result = .ok b ∧ c = f a b := by
  obtain ⟨a, ha, h⟩ := Noted.bind_eq_ok h
  obtain ⟨b, hb, h⟩ := Noted.bind_eq_ok h
  cases h
  exact ⟨a, b, ha, hb, rfl⟩

theorem exists_of_map_ok {ε α β : Type} {x : Except ε α} {f : α → β} {b : β}
    (h : f <$> x = .ok b) : ∃ a, x = .ok a ∧ b = f a := by
  cases x with
  | error e => cases h
  | ok a => cases h; exact ⟨a, rfl, rfl⟩

theorem Connective.eq_key_of_ofKey? {key : String} {c : Connective} (h : ofKey? key = some c) :
    key = c.key := by
  unfold ofKey? at h
  split at h <;> first | (cases h; rfl) | cases h

/-- The keys of connectives are none of relations. -/
theorem Connective.ofKey?_of_relation {key : String} {relation : Relation}
    (h : Relation.ofKey? key = some relation) : Connective.ofKey? key = none := by
  unfold Relation.ofKey? at h
  split at h <;> first | rfl | cases h

theorem Relation.ofKey?_of_connective {key : String} {connective : Connective}
    (h : Connective.ofKey? key = some connective) : ofKey? key = none := by
  cases hr : ofKey? key with
  | none => rfl
  | some relation => rw [Connective.ofKey?_of_relation hr] at h; cases h

theorem isOperatorKey_of_connective {key : String} {connective : Connective}
    (h : Connective.ofKey? key = some connective) : isOperatorKey key = true := by
  rw [Connective.eq_key_of_ofKey? h]
  cases connective <;> decide

theorem Connective.ofKey?_of_name {name : String} (h : isOperatorKey name = false) :
    ofKey? name = none := by
  cases hk : ofKey? name with
  | none => rfl
  | some connective => rw [isOperatorKey_of_connective hk] at h; cases h

/-! ## Values -/

/-- The value is neither a sequence nor a mapping. -/
def Json.IsScalar : Json → Prop
  | .array _ | .object _ => False
  | _ => True

theorem Json.IsScalar.exists_scalar {v : Json} (hv : v.IsScalar) :
    ∃ s, ∀ field, Scalar.ofJson field v = .ok s := by
  cases v <;> first | exact False.elim hv | exact ⟨_, fun _ => rfl⟩

theorem forall₂_of_mapM_ok {ε α β : Type} {f : α → Except ε β} {items : List α} {values : List β}
    (h : items.mapM f = .ok values) : List.Forall₂ (fun v s => f v = .ok s) items values := by
  induction items generalizing values with
  | nil => cases h; exact .nil
  | cons v rest ih =>
    rw [List.mapM_cons] at h
    obtain ⟨s, others, hs, ho, rfl⟩ := exists_of_both_ok h
    exact .cons hs (ih ho)

theorem listOfJson_ok {relation : Relation} {field : String} {items : List Json}
    {values : List Scalar} (h : Scalar.listOfJson relation field items = .ok values) :
    values ≠ [] ∧ List.Forall₂ (fun v s => Scalar.ofJson field v = .ok s) items values := by
  unfold Scalar.listOfJson at h
  split at h
  · cases h
  · rename_i hne
    have hall := forall₂_of_mapM_ok h
    refine ⟨?_, hall⟩
    rintro rfl
    cases hall
    exact hne rfl

theorem Relation.eq_of_takesList {relation : Relation} (h : relation.takesList = true) :
    relation = .oneOf ∨ relation = .noneOf := by
  cases relation <;> first | exact .inl rfl | exact .inr rfl | cases h

/-- What a value can be read as after a relation. -/
inductive OperandRead (field : String) : Relation → Json → Operand → Prop where
  | range {relation : Relation} (hr : relation.isRange = true) (n : Number) :
    OperandRead field relation (.number n) (.number n)
  | list {relation : Relation} {items : List Json} {values : List Scalar}
    (hr : relation = .oneOf ∨ relation = .noneOf) (hne : values ≠ [])
    (hv : List.Forall₂ (fun v s => Scalar.ofJson field v = .ok s) items values) :
    OperandRead field relation (.array items) (.list values)
  | single {relation : Relation} {v : Json} {s : Scalar}
    (hr : relation = .oneOf ∨ relation = .noneOf) (hs : Scalar.ofJson field v = .ok s) :
    OperandRead field relation v (.list [s])
  | scalar {relation : Relation} {v : Json} {s : Scalar}
    (hr : relation = .equal ∨ relation = .notEqual) (hs : Scalar.ofJson field v = .ok s) :
    OperandRead field relation v (.scalar s)

theorem operand_ok_read {relation : Relation} {field : String} {v : Json} {operand : Operand}
    (h : Operand.ofJson relation field v = .ok operand) : OperandRead field relation v operand := by
  unfold Operand.ofJson at h
  split at h
  · rename_i hr
    split at h
    · cases h; exact .range hr _
    · cases h
  · rename_i hr
    split at h
    · rename_i hl
      have hl := Relation.eq_of_takesList hl
      split at h
      · obtain ⟨values, hv, rfl⟩ := exists_of_map_ok h
        obtain ⟨hne, hall⟩ := listOfJson_ok hv
        exact .list hl hne hall
      · obtain ⟨s, hs, rfl⟩ := exists_of_map_ok h
        exact .single hl hs
    · rename_i hl
      obtain ⟨s, hs, rfl⟩ := exists_of_map_ok h
      refine .scalar ?_ hs
      cases relation <;> first | exact .inl rfl | exact .inr rfl | exact absurd rfl hr |
        exact absurd rfl hl

/-! ## Conditions -/

theorem condition_object_ok {field : String} {entries : List (String × Json)} {c : Condition}
    (h : (Condition.ofJson field (.object entries)).result = .ok c) :
    ∃ items, (Comparison.listOfJson field entries).result = .ok items ∧ c = .comparisons items := by
  rw [Condition.ofJson] at h
  exact Noted.map_eq_ok h

theorem condition_array_ok {field : String} {items : List Json} {c : Condition}
    (h : (Condition.ofJson field (.array items)).result = .ok c) :
    ∃ values, Scalar.listOfJson .oneOf field items = .ok values ∧ c = .oneOf values := by
  rw [Condition.ofJson] at h
  exact exists_of_map_ok h

theorem condition_scalar_ok {field : String} {v : Json} {c : Condition}
    (ho : ∀ entries, v ≠ .object entries) (ha : ∀ items, v ≠ .array items)
    (h : (Condition.ofJson field v).result = .ok c) :
    ∃ s, Scalar.ofJson field v = .ok s ∧ c = .scalar s := by
  rw [Condition.ofJson] at h
  · exact exists_of_map_ok h
  · exact ho
  · exact ha

theorem condition_scalar (field : String) {v : Json} (hv : v.IsScalar) :
    (Condition.ofJson field v).result = .scalar <$> Scalar.ofJson field v := by
  cases v <;> first | exact False.elim hv | (rw [Condition.ofJson] <;> first | rfl | simp)

theorem comparisons_cons_ok {field key : String} {v : Json} {rest : List (String × Json)}
    {items : List Comparison}
    (h : (Comparison.listOfJson field ((key, v) :: rest)).result = .ok items) :
    ∃ first others, (Comparison.ofJson field key v).result = .ok first ∧
      (Comparison.listOfJson field rest).result = .ok others ∧ items = first :: others := by
  rw [Comparison.listOfJson] at h
  exact Noted.both_eq_ok h

/-- What an entry of a comparison mapping can be read as. -/
inductive ComparisonRead (field key : String) : Json → Comparison → Prop where
  | merged {connective : Connective} {items : List Json} (fields : Fields) {c : Condition}
    (hk : Connective.ofKey? key = some connective)
    (hm : (merge field connective items).result = .ok fields)
    (hc : (Condition.ofJson field (.object fields)).result = .ok c) :
    ComparisonRead field key (.array items) (.group connective c)
  | group {connective : Connective} {v : Json} {c : Condition}
    (hk : Connective.ofKey? key = some connective) (ha : ∀ items, v ≠ .array items)
    (hc : (Condition.ofJson field v).result = .ok c) :
    ComparisonRead field key v (.group connective c)
  | compare {relation : Relation} {v : Json} {operand : Operand}
    (hk : Connective.ofKey? key = none) (hr : Relation.ofKey? key = some relation)
    (ho : OperandRead field relation v operand) :
    ComparisonRead field key v (.compare relation operand)

theorem comparison_ok_read {field key : String} {v : Json} {c : Comparison}
    (h : (Comparison.ofJson field key v).result = .ok c) : ComparisonRead field key v c := by
  rw [Comparison.ofJson] at h
  split at h
  · rename_i connective hk
    split at h
    · dsimp only at h
      split at h
      · cases h
      · rename_i fields hm
        obtain ⟨_, _, h⟩ := Noted.bind_eq_ok h
        obtain ⟨c, hc, rfl⟩ := Noted.map_eq_ok h
        exact .merged fields hk hm hc
    · rename_i ha
      obtain ⟨c, hc, rfl⟩ := Noted.map_eq_ok h
      exact .group hk ha hc
  · rename_i hk
    split at h
    · rename_i relation hr
      obtain ⟨operand, ho, rfl⟩ := exists_of_map_ok h
      exact .compare hk hr (operand_ok_read ho)
    · cases h

/-! ## Merged sequences -/

/-- The entries of a sequence of mappings. -/
def entriesOf : List Json → List (String × Json)
  | [] => []
  | .object fields :: rest => fields ++ entriesOf rest
  | _ :: rest => entriesOf rest

theorem mergeEntries_insertAll (field : String) (connective : Connective) (merged : Fields)
    (entries : List (String × Json)) :
    (mergeEntries field connective merged entries).2 = merged.insertAll entries := by
  induction entries generalizing merged with
  | nil => rfl
  | cons e rest ih =>
    obtain ⟨k, v⟩ := e
    have h := ih (merged.insert k v)
    simp only [mergeEntries]
    split <;> simpa only [Fields.insertAll, List.foldl_cons] using h

theorem mergeFrom_ok {field : String} {connective : Connective} {merged final : Fields}
    {items : List Json} (h : (mergeFrom field connective merged items).result = .ok final) :
    final = merged.insertAll (entriesOf items) := by
  induction items generalizing merged with
  | nil =>
    simp only [mergeFrom, pure, Except.ok.injEq] at h
    exact h.symm
  | cons item rest ih =>
    cases item with
    | object fields =>
      simp only [mergeFrom] at h
      obtain ⟨_, _, h⟩ := Noted.bind_eq_ok h
      rw [ih h, mergeEntries_insertAll, entriesOf, Fields.insertAll, Fields.insertAll,
        Fields.insertAll, List.foldl_append]
    | _ => simp [mergeFrom, Noted.fail] at h

theorem merge_ok {field : String} {connective : Connective} {items : List Json} {fields : Fields}
    (h : (merge field connective items).result = .ok fields) :
    fields = Fields.ofEntries (entriesOf items) := mergeFrom_ok h

theorem mergeFrom_mappings {field : String} {connective : Connective} (merged : Fields)
    (maps : List Fields) (rest : List Json) :
    (mergeFrom field connective merged (maps.map .object ++ rest)).result =
      (mergeFrom field connective (merged.insertAll maps.flatten) rest).result := by
  induction maps generalizing merged with
  | nil => rfl
  | cons fields maps ih =>
    rw [List.map_cons, List.cons_append, mergeFrom, Noted.result_bind]
    show (mergeFrom field connective _ (maps.map .object ++ rest)).result = _
    rw [ih, mergeEntries_insertAll, List.flatten_cons, Fields.insertAll, Fields.insertAll,
      Fields.insertAll, List.foldl_append]

theorem merge_mappings (field : String) (connective : Connective) (maps : List Fields) :
    (merge field connective (maps.map .object)).result = .ok (Fields.ofEntries maps.flatten) := by
  have h : (mergeFrom field connective [] (maps.map .object ++ [])).result = _ :=
    mergeFrom_mappings [] maps []
  rw [List.append_nil] at h
  exact h

theorem merge_element (field : String) (connective : Connective) (maps : List Fields) {v : Json}
    (post : List Json) (hv : ∀ fields, v ≠ .object fields) :
    (merge field connective (maps.map .object ++ v :: post)).result =
      .error (.notComparisons connective field v.kind) := by
  rw [merge, mergeFrom_mappings]
  cases v with
  | object fields => exact absurd rfl (hv fields)
  | _ => rfl

/-- Either all values of a sequence are mappings or there is a first that is none. -/
theorem mappings_or_element (items : List Json) :
    (∃ maps : List Fields, items = maps.map .object) ∨
      ∃ (maps : List Fields) (v : Json) (post : List Json),
        items = maps.map .object ++ v :: post ∧ ∀ fields, v ≠ .object fields := by
  induction items with
  | nil => exact .inl ⟨[], rfl⟩
  | cons v rest ih =>
    cases v with
    | object fields =>
      rcases ih with ⟨maps, rfl⟩ | ⟨maps, v, post, rfl, hv⟩
      · exact .inl ⟨fields :: maps, rfl⟩
      · exact .inr ⟨fields :: maps, v, post, rfl, hv⟩
    | _ => exact .inr ⟨[], _, rest, rfl, by simp⟩

theorem mem_entriesOf {e : String × Json} {items : List Json} (h : e ∈ entriesOf items) :
    ∃ entries, .object entries ∈ items ∧ e ∈ entries := by
  induction items with
  | nil => cases h
  | cons v rest ih =>
    cases v with
    | object fields =>
      rcases List.mem_append.mp h with h | h
      · exact ⟨fields, List.mem_cons_self, h⟩
      · obtain ⟨entries, hm, he⟩ := ih h
        exact ⟨entries, List.mem_cons_of_mem _ hm, he⟩
    | _ =>
      obtain ⟨entries, hm, he⟩ := ih h
      exact ⟨entries, List.mem_cons_of_mem _ hm, he⟩

/-- Each entry of the merged mapping is an entry of one of the mappings. -/
theorem mem_of_merge_ok {field : String} {connective : Connective} {items : List Json}
    {fields : Fields} (h : (merge field connective items).result = .ok fields)
    {e : String × Json} (he : e ∈ fields) : ∃ entries, .object entries ∈ items ∧ e ∈ entries := by
  rw [merge_ok h] at he
  exact mem_entriesOf ((lastOfEach_sublist _).subset ((Fields.ofEntries_perm _).mem_iff.mp he))

/-! ## Entries of comparison mappings -/

section

variable {field key : String} {connective : Connective}

theorem comparison_relation {relation : Relation} (hr : Relation.ofKey? key = some relation)
    (v : Json) :
    (Comparison.ofJson field key v).result =
      .compare relation <$> Operand.ofJson relation field v := by
  rw [Comparison.ofJson, Connective.ofKey?_of_relation hr, hr]
  rfl

theorem comparison_unknown (hc : Connective.ofKey? key = none) (hr : Relation.ofKey? key = none)
    (v : Json) : (Comparison.ofJson field key v).result = .error (.unsupportedOperator key) := by
  rw [Comparison.ofJson, hc, hr]
  rfl

theorem comparison_group (hk : Connective.ofKey? key = some connective) {v : Json}
    (ha : ∀ items, v ≠ .array items) :
    (Comparison.ofJson field key v).result =
      .group connective <$> (Condition.ofJson field v).result := by
  rw [Comparison.ofJson, hk]
  dsimp only
  split
  · exact absurd rfl (ha _)
  · exact Noted.result_map _ _

/-- A sequence of mappings is read like their union. -/
theorem comparison_mappings (hk : Connective.ofKey? key = some connective) (maps : List Fields) :
    (Comparison.ofJson field key (.array (maps.map .object))).result =
      .group connective <$>
        (Condition.ofJson field (.object (Fields.ofEntries maps.flatten))).result := by
  have hm := merge_mappings field connective maps
  rw [Comparison.ofJson, hk]
  dsimp only
  split
  · rename_i e he
    rw [hm] at he
    cases he
  · rename_i merged he
    rw [hm, Except.ok.injEq] at he
    rw [Noted.result_bind, Noted.result_map, he]
    rfl

theorem comparison_element (hk : Connective.ofKey? key = some connective) (maps : List Fields)
    {v : Json} (post : List Json) (hv : ∀ fields, v ≠ .object fields) :
    (Comparison.ofJson field key (.array (maps.map .object ++ v :: post))).result =
      .error (.notComparisons connective field v.kind) := by
  have hm := merge_element field connective maps post hv
  rw [Comparison.ofJson, hk]
  dsimp only
  split
  · rename_i e he
    rw [hm, Except.error.injEq] at he
    rw [he]
  · rename_i merged he
    rw [hm] at he
    cases he

end

/-! ## Clauses -/

theorem filter_object_ok {entries : List (String × Json)} {f : Filter}
    (h : (Filter.ofJson (.object entries)).result = .ok f) :
    ∃ items, (Clause.listOfJson entries).result = .ok items ∧ f = .clauses items := by
  rw [Filter.ofJson] at h
  exact Noted.map_eq_ok h

theorem filter_array_ok {values : List Json} {f : Filter}
    (h : (Filter.ofJson (.array values)).result = .ok f) :
    ∃ items, (Filter.listOfJson values).result = .ok items ∧ f = .sequence items := by
  rw [Filter.ofJson] at h
  exact Noted.map_eq_ok h

theorem filters_cons_ok {v : Json} {rest : List Json} {items : List Filter}
    (h : (Filter.listOfJson (v :: rest)).result = .ok items) :
    ∃ first others, (Filter.ofJson v).result = .ok first ∧
      (Filter.listOfJson rest).result = .ok others ∧ items = first :: others := by
  rw [Filter.listOfJson] at h
  exact Noted.both_eq_ok h

/-- What an entry of a mapping of clauses can be read as. -/
inductive ClauseRead (key : String) (v : Json) : Clause → Prop where
  | group {connective : Connective} {operand : Filter}
    (hk : Connective.ofKey? key = some connective) (ho : (Filter.ofJson v).result = .ok operand) :
    ClauseRead key v (.group connective operand)
  | field {condition : Condition} (hk : Connective.ofKey? key = none)
    (hc : (Condition.ofJson key v).result = .ok condition) :
    ClauseRead key v (.field key condition)

theorem clauses_cons_ok {key : String} {v : Json} {rest : List (String × Json)}
    {items : List Clause} (h : (Clause.listOfJson ((key, v) :: rest)).result = .ok items) :
    ∃ first others, ClauseRead key v first ∧ (Clause.listOfJson rest).result = .ok others ∧
      items = first :: others := by
  rw [Clause.listOfJson] at h
  split at h
  · rename_i hk
    obtain ⟨first, others, hf, ho, rfl⟩ := Noted.both_eq_ok h
    obtain ⟨operand, hop, rfl⟩ := Noted.map_eq_ok hf
    exact ⟨_, others, .group hk hop, ho, rfl⟩
  · rename_i hk
    split at h
    · cases h
    · obtain ⟨first, others, hf, ho, rfl⟩ := Noted.both_eq_ok h
      obtain ⟨condition, hc, rfl⟩ := Noted.map_eq_ok hf
      exact ⟨_, others, .field hk hc, ho, rfl⟩

/-- A key that names a field does not start like that of an operator. -/
theorem isOperatorKey_of_ok {key : String} {v : Json} {rest : List (String × Json)}
    {items : List Clause} (h : (Clause.listOfJson ((key, v) :: rest)).result = .ok items)
    (hk : Connective.ofKey? key = none) : isOperatorKey key = false := by
  rw [Clause.listOfJson, hk] at h
  cases ho : isOperatorKey key with
  | false => rfl
  | true =>
    rw [ho] at h
    cases h

end DocStore
