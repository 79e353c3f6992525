import DocStore.Proofs.Filter.Parsed
import Mathlib.Logic.Relation

/-!
# Shorthands

The same filter can be written in several ways: a value is short for `$eq`, a list for `$in`, and
under a connective sequences may be nested, have holes and stand for one mapping. `RootRewrites` is
one such step anywhere in the filter of a request. What a filter says (`Said`) is put together from
what its parts say, so that a step in a part changes nothing (`compileJson_of_rewrites`).
-/

namespace DocStore

namespace Filter

/-! ## What filters say -/

/-- What a filter says: whether it is empty, and its statements under each choice of options. -/
structure Saying where
  isEmpty : Bool
  statements : Options → Except FilterError (List Statement)

namespace Saying

def append (a b : Saying) : Saying :=
  ⟨a.isEmpty && b.isEmpty, fun options => do
    let first ← a.statements options
    let others ← b.statements options
    return first ++ others⟩

def group (connective : Connective) (a : Saying) : Saying :=
  ⟨a.isEmpty, fun options => do return grouped connective (← a.statements options)⟩

def nothing : Saying := ⟨true, fun _ => .ok []⟩

theorem nothing_append (a : Saying) : nothing.append a = a := by
  obtain ⟨empty, statements⟩ := a
  refine congrArg (Saying.mk empty) (funext fun options => ?_)
  show (statements options >>= fun others => pure ([] ++ others)) = _
  cases statements options <;> rfl

theorem append_nothing (a : Saying) : a.append nothing = a := by
  obtain ⟨empty, statements⟩ := a
  refine congrArg₂ Saying.mk (Bool.and_true empty) (funext fun options => ?_)
  show (statements options >>= fun first => pure (first ++ [])) = _
  simp only [List.append_nil]
  cases statements options <;> rfl

theorem append_assoc (a b c : Saying) : (a.append b).append c = a.append (b.append c) := by
  refine congrArg₂ Saying.mk (Bool.and_assoc _ _ _) (funext fun options => ?_)
  simp only [append, bind_assoc, pure_bind, List.append_assoc]

end Saying

/-- What is read of a filter: an error, or what the filter says. -/
abbrev Said := Except FilterError Saying

namespace Said

def append (x y : Said) : Said := do
  let a ← x
  let b ← y
  return a.append b

/-- What parts say together; the first error counts. -/
def all (parts : List Said) : Said := parts.foldr append (.ok .nothing)

def group (connective : Connective) (x : Said) : Said := Saying.group connective <$> x

theorem nothing_append (x : Said) : append (.ok .nothing) x = x := by
  cases x with
  | error e => rfl
  | ok a => exact congrArg Except.ok a.nothing_append

theorem append_assoc (x y z : Said) : append (append x y) z = append x (append y z) := by
  simp only [append, bind_assoc, pure_bind, Saying.append_assoc]

theorem all_cons (x : Said) (rest : List Said) : all (x :: rest) = append x (all rest) := rfl

theorem all_append (xs ys : List Said) : all (xs ++ ys) = append (all xs) (all ys) := by
  induction xs with
  | nil => exact (nothing_append _).symm
  | cons x xs ih => rw [List.cons_append, all_cons, ih, all_cons, append_assoc]

theorem all_flatten (parts : List (List Said)) : all parts.flatten = all (parts.map all) := by
  induction parts with
  | nil => rfl
  | cons xs parts ih => rw [List.flatten_cons, all_append, ih, List.map_cons, all_cons]

theorem append_nothing (x : Said) : append x (.ok .nothing) = x := by
  cases x with
  | error e => rfl
  | ok a => exact congrArg Except.ok a.append_nothing

theorem all_singleton (x : Said) : all [x] = x := append_nothing x

theorem all_replace {x : Said} {parts : List Said} (h : x = all parts) (pre post : List Said) :
    all (pre ++ x :: post) = all (pre ++ parts ++ post) := by
  rw [all_append, all_cons, h, ← all_append, ← all_append, List.append_assoc]

/-- One part among others may be replaced by one that says the same. -/
theorem map_middle {α : Type} {say : α → Said} {x y : α} (h : say x = say y) (pre post : List α) :
    (pre ++ x :: post).map say = (pre ++ y :: post).map say := by
  rw [List.map_append, List.map_cons, List.map_append, List.map_cons, h]

theorem map_both {α β γ : Type} {x : Except FilterError α} {y : Except FilterError β}
    {f : α → β → γ} {say : γ → Saying} {sayFirst : α → Saying} {sayOthers : β → Saying}
    (h : ∀ a b, say (f a b) = (sayFirst a).append (sayOthers b)) :
    (say <$> do let a ← x; let b ← y; return f a b) =
      append (sayFirst <$> x) (sayOthers <$> y) := by
  cases x with
  | error e => rfl
  | ok a =>
    cases y with
    | error e => rfl
    | ok b => exact congrArg Except.ok (h a b)

end Said

/-! ## What the parts of filters say -/

def conditionSaying (name : String) (c : Condition) : Saying :=
  ⟨c.isEmpty, fun options => conditionStatements options (options.schema.attributeOf name) c⟩

def comparisonsSaying (name : String) (items : List Comparison) : Saying :=
  ⟨Comparison.allEmpty items,
    fun options => comparisonStatements options (options.schema.attributeOf name) items⟩

def saying (f : Filter) : Saying := ⟨f.isEmpty, fun options => statements options f⟩

def sequenceSaying (items : List Filter) : Saying :=
  ⟨Filter.allEmpty items, fun options => sequenceStatements options items⟩

def clausesSaying (items : List Clause) : Saying :=
  ⟨Clause.allEmpty items, fun options => clauseStatements options items⟩

section

variable {name : String}

theorem comparisonsSaying_group (connective : Connective) (c : Condition) :
    comparisonsSaying name [.group connective c] = (conditionSaying name c).group connective := by
  refine congrArg₂ Saying.mk (Bool.and_true _) (funext fun options => ?_)
  show (conditionStatements options (options.schema.attributeOf name) c >>=
    fun members => pure (grouped connective members ++ [])) = _
  simp only [List.append_nil]
  rfl

theorem comparisonsSaying_cons (first : Comparison) (rest : List Comparison) :
    comparisonsSaying name (first :: rest) =
      (comparisonsSaying name [first]).append (comparisonsSaying name rest) := by
  cases first with
  | compare relation operand =>
    refine congrArg (Saying.mk false) (funext fun options => ?_)
    simp only [comparisonStatements, comparisonsSaying]
    cases comparison options (options.schema.attributeOf name) relation operand <;> rfl
  | group connective c =>
    rw [comparisonsSaying_group]
    refine congrArg (Saying.mk _) (funext fun options => ?_)
    simp only [comparisonStatements, comparisonsSaying, conditionSaying, Saying.group, bind_assoc,
      pure_bind]

theorem sequenceSaying_cons (first : Filter) (rest : List Filter) :
    sequenceSaying (first :: rest) = (saying first).append (sequenceSaying rest) := rfl

theorem clausesSaying_group (connective : Connective) (f : Filter) :
    clausesSaying [.group connective f] = (saying f).group connective := by
  refine congrArg₂ Saying.mk (Bool.and_true _) (funext fun options => ?_)
  show (statements options f >>= fun members => pure (grouped connective members ++ [])) = _
  simp only [List.append_nil]
  rfl

theorem clausesSaying_field (c : Condition) :
    clausesSaying [.field name c] = conditionSaying name c := by
  refine congrArg₂ Saying.mk (Bool.and_true _) (funext fun options => ?_)
  show (conditionStatements options (options.schema.attributeOf name) c >>=
    fun first => pure (first ++ [])) = _
  simp only [List.append_nil]
  cases conditionStatements options (options.schema.attributeOf name) c <;> rfl

theorem clausesSaying_cons (first : Clause) (rest : List Clause) :
    clausesSaying (first :: rest) = (clausesSaying [first]).append (clausesSaying rest) := by
  cases first with
  | group connective f =>
    rw [clausesSaying_group]
    refine congrArg (Saying.mk _) (funext fun options => ?_)
    simp only [clauseStatements, clausesSaying, saying, Saying.group, bind_assoc, pure_bind]
  | field name c => rw [clausesSaying_field]; rfl

end

/-! ## What is read -/

/-- What a value says as the condition of a field. -/
def saidCondition (name : String) (v : Json) : Said :=
  conditionSaying name <$> (Condition.ofJson name v).result

/-- What an entry of a comparison mapping says. -/
def saidComparison (name : String) (entry : String × Json) : Said :=
  (fun c => comparisonsSaying name [c]) <$> (Comparison.ofJson name entry.1 entry.2).result

def said (v : Json) : Said := saying <$> (Filter.ofJson v).result

/-- What an entry of a mapping of clauses says. -/
def saidClause (entry : String × Json) : Said :=
  match Connective.ofKey? entry.1 with
  | some connective => Said.group connective (said entry.2)
  | none =>
    if isOperatorKey entry.1 then .error (.unsupportedOperator entry.1)
    else saidCondition entry.1 entry.2

section

variable {name key : String}

theorem said_comparisons (entries : List (String × Json)) :
    comparisonsSaying name <$> (Comparison.listOfJson name entries).result =
      Said.all (entries.map (saidComparison name)) := by
  induction entries with
  | nil => rw [Comparison.listOfJson]; rfl
  | cons entry rest ih =>
    obtain ⟨key, v⟩ := entry
    rw [Comparison.listOfJson]
    simp only [Noted.result_bind]
    rw [List.map_cons, Said.all_cons, ← ih]
    exact Said.map_both comparisonsSaying_cons

theorem saidCondition_object (entries : List (String × Json)) :
    saidCondition name (.object entries) = Said.all (entries.map (saidComparison name)) := by
  rw [saidCondition, Condition.ofJson, Noted.result_map, ← said_comparisons]
  cases (Comparison.listOfJson name entries).result <;> rfl

theorem said_items (items : List Json) :
    sequenceSaying <$> (Filter.listOfJson items).result = Said.all (items.map said) := by
  induction items with
  | nil => rfl
  | cons v rest ih =>
    rw [Filter.listOfJson]
    simp only [Noted.result_bind]
    rw [List.map_cons, Said.all_cons, ← ih]
    exact Said.map_both sequenceSaying_cons

theorem said_array (items : List Json) : said (.array items) = Said.all (items.map said) := by
  rw [said, Filter.ofJson, Noted.result_map, ← said_items]
  cases (Filter.listOfJson items).result <;> rfl

theorem said_clauses (entries : List (String × Json)) :
    clausesSaying <$> (Clause.listOfJson entries).result =
      Said.all (entries.map saidClause) := by
  induction entries with
  | nil => rfl
  | cons entry rest ih =>
    obtain ⟨key, v⟩ := entry
    rw [List.map_cons, Said.all_cons, ← ih, saidClause, Clause.listOfJson]
    cases hk : Connective.ofKey? key with
    | some connective =>
      simp only [Noted.result_bind, Noted.result_map]
      refine (Said.map_both clausesSaying_cons).trans (congrArg (Said.append · _) ?_)
      rw [Said.group, said, Functor.map_map, Functor.map_map]
      simp only [clausesSaying_group]
    | none =>
      cases ho : isOperatorKey key with
      | true => rfl
      | false =>
        simp only [Bool.false_eq_true, ↓reduceIte, Noted.result_bind, Noted.result_map]
        refine (Said.map_both clausesSaying_cons).trans (congrArg (Said.append · _) ?_)
        rw [saidCondition, Functor.map_map]
        simp only [clausesSaying_field]

theorem said_object (entries : List (String × Json)) :
    said (.object entries) = Said.all (entries.map saidClause) := by
  rw [said, Filter.ofJson, Noted.result_map, ← said_clauses]
  cases (Clause.listOfJson entries).result <;> rfl

theorem saidComparison_group {connective : Connective}
    (hk : Connective.ofKey? key = some connective) {v : Json} (ha : ∀ items, v ≠ .array items) :
    saidComparison name (key, v) = Said.group connective (saidCondition name v) := by
  rw [saidComparison, comparison_group hk ha, Said.group, saidCondition, Functor.map_map,
    Functor.map_map]
  simp only [comparisonsSaying_group]

theorem saidComparison_mappings {connective : Connective}
    (hk : Connective.ofKey? key = some connective) (maps : List Fields) :
    saidComparison name (key, .array (maps.map .object)) =
      Said.group connective (saidCondition name (.object (Fields.ofEntries maps.flatten))) := by
  rw [saidComparison, comparison_mappings hk, Said.group, saidCondition, Functor.map_map,
    Functor.map_map]
  simp only [comparisonsSaying_group]

theorem saidComparison_element {connective : Connective}
    (hk : Connective.ofKey? key = some connective) (maps : List Fields) {v : Json}
    (post : List Json) (hv : ∀ fields, v ≠ .object fields) :
    saidComparison name (key, .array (maps.map .object ++ v :: post)) =
      .error (.notComparisons connective name v.kind) := by
  rw [saidComparison, comparison_element hk maps post hv]
  rfl

/-- A value is short for a comparison with `$eq`. -/
theorem saidCondition_value {v : Json} (hv : v.IsScalar) :
    saidCondition name (.object [("$eq", v)]) = saidCondition name v := by
  obtain ⟨s, hs⟩ := hv.exists_scalar
  have hk : Relation.ofKey? "$eq" = some .equal := rfl
  rw [saidCondition_object, List.map_singleton, Said.all_singleton, saidComparison,
    comparison_relation hk, saidCondition, condition_scalar name hv, hs]
  show (fun c => comparisonsSaying name [c]) <$> Comparison.compare .equal <$> Operand.scalar <$>
    Scalar.ofJson name v = _
  rw [hs]
  rfl

/-- A list is short for a comparison with `$in`. -/
theorem saidCondition_list (items : List Json) :
    saidCondition name (.object [("$in", .array items)]) = saidCondition name (.array items) := by
  have hk : Relation.ofKey? "$in" = some .oneOf := rfl
  rw [saidCondition_object, List.map_singleton, Said.all_singleton, saidComparison,
    comparison_relation hk, saidCondition, Condition.ofJson]
  show (fun c => comparisonsSaying name [c]) <$> Comparison.compare .oneOf <$> Operand.list <$>
    Scalar.listOfJson .oneOf name items =
      conditionSaying name <$> Condition.oneOf <$> Scalar.listOfJson .oneOf name items
  cases hvalues : Scalar.listOfJson .oneOf name items with
  | error e => rfl
  | ok values =>
    refine congrArg Except.ok (congrArg₂ Saying.mk ?_ rfl)
    exact (List.isEmpty_eq_false_iff.mpr (listOfJson_ok hvalues).1).symm

/-- A value after a relation to a list is short for a list of one. -/
theorem saidComparison_one {relation : Relation} (hk : Relation.ofKey? key = some relation)
    (hl : relation.takesList = true) {v : Json} (hv : v.IsScalar) :
    saidComparison name (key, .array [v]) = saidComparison name (key, v) := by
  rw [saidComparison, saidComparison, comparison_relation hk, comparison_relation hk]
  rcases Relation.eq_of_takesList hl with rfl | rfl <;>
    cases v <;> first | exact False.elim hv | rfl

/-! ## Entries that say the same -/

/-- The entries have the same keys and say the same, one by one. -/
def SameEntries (name : String) : Fields → Fields → Prop :=
  List.Forall₂ fun e e' => e.1 = e'.1 ∧ saidComparison name e = saidComparison name e'

theorem SameEntries.refl (fields : Fields) : SameEntries name fields fields :=
  List.forall₂_same.mpr fun _ _ => ⟨rfl, rfl⟩

theorem SameEntries.said {fields fields' : Fields} (h : SameEntries name fields fields') :
    saidCondition name (.object fields) = saidCondition name (.object fields') := by
  have hmap : fields.map (saidComparison name) = fields'.map (saidComparison name) := by
    induction h with
    | nil => rfl
    | cons he _ ih => rw [List.map_cons, List.map_cons, he.2, ih]
  rw [saidCondition_object, saidCondition_object, hmap]

theorem SameEntries.ofEntries {entries entries' : Fields} (h : SameEntries name entries entries') :
    SameEntries name (Fields.ofEntries entries) (Fields.ofEntries entries') :=
  Fields.insertAll_rel And.left .nil h

/-- A sequence under a connective says the same if one of its mappings does. -/
theorem saidComparison_item {connective : Connective}
    (hk : Connective.ofKey? key = some connective) {fields fields' : Fields}
    (h : SameEntries name fields fields') (pre post : List Json) :
    saidComparison name (key, .array (pre ++ .object fields :: post)) =
      saidComparison name (key, .array (pre ++ .object fields' :: post)) := by
  rcases mappings_or_element pre with ⟨maps, rfl⟩ | ⟨maps, v, rest, rfl, hv⟩
  · rcases mappings_or_element post with ⟨others, rfl⟩ | ⟨others, v, rest, rfl, hv⟩
    · have hmaps (fs : Fields) : maps.map Json.object ++ .object fs :: others.map .object =
          (maps ++ fs :: others).map .object := by
        rw [List.map_append, List.map_cons]
      have hflatten : SameEntries name (maps ++ fields :: others).flatten
          (maps ++ fields' :: others).flatten := by
        rw [List.flatten_append, List.flatten_append, List.flatten_cons, List.flatten_cons]
        exact List.rel_append (SameEntries.refl _) (List.rel_append h (SameEntries.refl _))
      rw [hmaps, hmaps, saidComparison_mappings hk, saidComparison_mappings hk,
        hflatten.ofEntries.said]
    · have hmaps (fs : Fields) :
          maps.map Json.object ++ .object fs :: (others.map .object ++ v :: rest) =
            (maps ++ fs :: others).map .object ++ v :: rest := by
        rw [List.map_append, List.map_cons, List.append_assoc, List.cons_append]
      rw [hmaps, hmaps, saidComparison_element hk _ _ hv, saidComparison_element hk _ _ hv]
  · rw [List.append_assoc, List.append_assoc, List.cons_append, List.cons_append,
      saidComparison_element hk _ _ hv, saidComparison_element hk _ _ hv]

end

/-! ## Steps -/

mutual

/-- A step in a mapping of comparisons. -/
inductive ConditionRewrites : Json → Json → Prop where
  | entry (pre post : List (String × Json)) {e e' : String × Json} (h : ComparisonRewrites e e') :
    ConditionRewrites (.object (pre ++ e :: post)) (.object (pre ++ e' :: post))

/-- A step in an entry of a mapping of comparisons. What stands under a key that is no operator may
be anything. -/
inductive ComparisonRewrites : String × Json → String × Json → Prop where
  | one {key : String} {relation : Relation} {v : Json} (hk : Relation.ofKey? key = some relation)
    (hl : relation.takesList = true) (hv : v.IsScalar) :
    ComparisonRewrites (key, v) (key, .array [v])
  | value {key : String} {connective : Connective} {v : Json}
    (hk : Connective.ofKey? key = some connective) (hv : v.IsScalar) :
    ComparisonRewrites (key, v) (key, .object [("$eq", v)])
  | operand {key : String} {connective : Connective} {v v' : Json}
    (hk : Connective.ofKey? key = some connective) (h : ConditionRewrites v v') :
    ComparisonRewrites (key, v) (key, v')
  | item {key : String} {connective : Connective} (pre post : List Json) {v v' : Json}
    (hk : Connective.ofKey? key = some connective) (h : ConditionRewrites v v') :
    ComparisonRewrites (key, .array (pre ++ v :: post)) (key, .array (pre ++ v' :: post))
  | unknown {key : String} (v v' : Json) (hc : Connective.ofKey? key = none)
    (hr : Relation.ofKey? key = none) : ComparisonRewrites (key, v) (key, v')

end

mutual

/-- A step in a filter under a connective. -/
inductive Rewrites : Json → Json → Prop where
  | splice (pre items post : List Json) :
    Rewrites (.array (pre ++ .array items :: post)) (.array (pre ++ items ++ post))
  | drop (pre post : List Json) : Rewrites (.array (pre ++ .null :: post)) (.array (pre ++ post))
  | union {maps : List Fields} (hd : maps.Pairwise fun a b => a.keys.Disjoint b.keys) :
    Rewrites (.array (maps.map .object)) (.object maps.flatten)
  | item (pre post : List Json) {v v' : Json} (h : Rewrites v v') :
    Rewrites (.array (pre ++ v :: post)) (.array (pre ++ v' :: post))
  | entry (pre post : List (String × Json)) {e e' : String × Json} (h : EntryRewrites e e') :
    Rewrites (.object (pre ++ e :: post)) (.object (pre ++ e' :: post))

/-- A step in an entry of a mapping of clauses. What stands under a key that is no operator, though
it looks like one, may be anything. -/
inductive EntryRewrites : String × Json → String × Json → Prop where
  | operand {key : String} {connective : Connective} {v v' : Json}
    (hk : Connective.ofKey? key = some connective) (h : Rewrites v v') :
    EntryRewrites (key, v) (key, v')
  | value {name : String} {v : Json} (hn : isOperatorKey name = false) (hv : v.IsScalar) :
    EntryRewrites (name, v) (name, .object [("$eq", v)])
  | list {name : String} (items : List Json) (hn : isOperatorKey name = false) :
    EntryRewrites (name, .array items) (name, .object [("$in", .array items)])
  | condition {name : String} {v v' : Json} (hn : isOperatorKey name = false)
    (h : ConditionRewrites v v') : EntryRewrites (name, v) (name, v')
  | unknown {key : String} (v v' : Json) (hc : Connective.ofKey? key = none)
    (hk : isOperatorKey key = true) : EntryRewrites (key, v) (key, v')

end

/-- A step in the filter of a request. -/
inductive RootRewrites : Json → Json → Prop where
  | item (pre post : List Json) {v v' : Json} (h : Rewrites v v') :
    RootRewrites (.array (pre ++ v :: post)) (.array (pre ++ v' :: post))
  | entry (pre post : List (String × Json)) {e e' : String × Json} (h : EntryRewrites e e') :
    RootRewrites (.object (pre ++ e :: post)) (.object (pre ++ e' :: post))

/-! ## Steps change nothing -/

theorem saidClause_name {name : String} (hn : isOperatorKey name = false) (v : Json) :
    saidClause (name, v) = saidCondition name v := by
  rw [saidClause, Connective.ofKey?_of_name hn, hn]
  rfl

/-- A sequence of mappings says what one mapping with all their entries says. -/
theorem said_mappings (maps : List Fields) :
    said (.array (maps.map .object)) = said (.object maps.flatten) := by
  rw [said_array, said_object, List.map_flatten, Said.all_flatten, List.map_map, List.map_map]
  exact congrArg Said.all (List.map_congr_left fun fields _ => said_object fields)

theorem ne_array_of_isScalar {v : Json} (hv : v.IsScalar) (items : List Json) :
    v ≠ .array items := by
  rintro rfl
  exact hv

mutual

theorem ConditionRewrites.sameEntries {v v' : Json} : ConditionRewrites v v' →
    ∃ fields fields', v = .object fields ∧ v' = .object fields' ∧
      ∀ name, SameEntries name fields fields'
  | .entry pre post h => by
    obtain ⟨hkey, hsaid⟩ := h.same
    exact ⟨_, _, rfl, rfl, fun name => List.rel_append (SameEntries.refl pre)
      (.cons ⟨hkey, hsaid name⟩ (SameEntries.refl post))⟩

theorem ComparisonRewrites.same {e e' : String × Json} : ComparisonRewrites e e' →
    e.1 = e'.1 ∧ ∀ name, saidComparison name e = saidComparison name e'
  | .one hk hl hv => ⟨rfl, fun _ => (saidComparison_one hk hl hv).symm⟩
  | .value hk hv => by
    refine ⟨rfl, fun name => ?_⟩
    rw [saidComparison_group hk (ne_array_of_isScalar hv), saidComparison_group hk (by simp),
      saidCondition_value hv]
  | .operand hk h => by
    refine ⟨rfl, fun name => ?_⟩
    obtain ⟨fields, fields', rfl, rfl, hsame⟩ := h.sameEntries
    rw [saidComparison_group hk (by simp), saidComparison_group hk (by simp), (hsame name).said]
  | .item pre post hk h => by
    refine ⟨rfl, fun name => ?_⟩
    obtain ⟨fields, fields', rfl, rfl, hsame⟩ := h.sameEntries
    exact saidComparison_item hk (hsame name) pre post
  | .unknown v v' hc hr => by
    refine ⟨rfl, fun name => ?_⟩
    rw [saidComparison, saidComparison, comparison_unknown hc hr, comparison_unknown hc hr]

end

mutual

theorem Rewrites.said_eq {v v' : Json} : Rewrites v v' → said v = said v'
  | .splice pre items post => by
    rw [said_array, said_array, List.map_append, List.map_cons, List.map_append, List.map_append]
    exact Said.all_replace (said_array items) _ _
  | .drop pre post => by
    have hole := Said.all_replace (show said .null = Said.all [] from rfl) (pre.map said)
      (post.map said)
    rw [List.append_nil] at hole
    rw [said_array, said_array, List.map_append, List.map_cons, List.map_append, hole]
  | .union _ => said_mappings _
  | .item pre post h => by rw [said_array, said_array, Said.map_middle h.said_eq]
  | .entry pre post h => by rw [said_object, said_object, Said.map_middle h.said_eq]

theorem EntryRewrites.said_eq {e e' : String × Json} :
    EntryRewrites e e' → saidClause e = saidClause e'
  | .operand hk h => by
    rw [saidClause, saidClause, hk, h.said_eq]
  | .value hn hv => by
    rw [saidClause_name hn, saidClause_name hn, saidCondition_value hv]
  | .list items hn => by
    rw [saidClause_name hn, saidClause_name hn, saidCondition_list]
  | .condition hn h => by
    obtain ⟨fields, fields', rfl, rfl, hsame⟩ := h.sameEntries
    rw [saidClause_name hn, saidClause_name hn, (hsame _).said]
  | .unknown v v' hc hk => by
    rw [saidClause, saidClause, hc, hk]
    rfl

end

/-! ## Filters of requests -/

/-- The filter string of what a filter says, if it is not empty. -/
def Said.compiled (options : Options) (x : Said) : Except FilterError (Option String) := do
  let a ← x
  if a.isEmpty then return none
  else return Statement.joined? .and (← a.statements options)

theorem Said.compiled_saying (options : Options) (f : Filter) :
    Said.compiled options (.ok (saying f)) =
      if f.isEmpty then .ok none else compile options .and f := rfl

theorem compileJson_said (options : Options) (entries : List (String × Json)) :
    (compileJson options (some (.object entries))).result =
      Said.compiled options (said (.object entries)) := by
  rw [said, ofJson, Noted.result_map, compileJson, Noted.result_bind, ofRoot, Noted.result_bind]
  cases (Clause.listOfJson entries).result with
  | error e => rfl
  | ok items =>
    refine Eq.trans ?_ (Said.compiled_saying options (.clauses items)).symm
    show (Except.ok (if (Filter.clauses items).isEmpty then none else some _) >>= _) = _
    cases (Filter.clauses items).isEmpty <;> rfl

theorem RootRewrites.compileJson_eq {v v' : Json} (h : RootRewrites v v') (options : Options) :
    (compileJson options (some v')).result = (compileJson options (some v)).result := by
  cases h with
  | item => rfl
  | entry pre post h =>
    rw [compileJson_said, compileJson_said, said_object, said_object, Said.map_middle h.said_eq]

/-- Filters that differ in shorthands and groupings, wherever in them, compile to the same string or
fail with the same error. -/
theorem compileJson_of_rewrites {v w : Json} (h : Relation.ReflTransGen RootRewrites v w)
    (options : Options) :
    (compileJson options (some w)).result = (compileJson options (some v)).result := by
  induction h with
  | refl => rfl
  | tail _ hstep ih => exact (hstep.compileJson_eq options).trans ih

/-- A filter in shorthand, with a nested sequence and a hole. -/
def shortEntries : List (String × Json) :=
  [("genre", .string "news"),
   ("$or", .array [
     .array [.object [("a", .array [.string "x"])], .null],
     .object [("n", .object [("$and", .array [.object [("$nin", .number (.integer 5))],
       .object [("$gte", .number (.integer 3))]])])]])]

def longEntries : List (String × Json) :=
  [("genre", .object [("$eq", .string "news")]),
   ("$or", .object [("a", .object [("$in", .array [.string "x"])]),
     ("n", .object [("$and", .array [.object [("$nin", .array [.number (.integer 5)])],
       .object [("$gte", .number (.integer 3))]])])])]

theorem rewrites_longEntries :
    Relation.ReflTransGen RootRewrites (.object shortEntries) (.object longEntries) := by
  refine .head (.entry [] _ (.value (by decide) trivial)) ?_
  refine .head (.entry [_] [] (.operand rfl (.splice [] _ _))) ?_
  refine .head (.entry [_] [] (.operand rfl (.drop [_] _))) ?_
  refine .head (.entry [_] [] (.operand rfl (@Rewrites.union [_, _] (by simp [Fields.keys])))) ?_
  refine .head (.entry [_] [] (.operand rfl (.entry [] _ (.list _ (by decide))))) ?_
  exact .single (.entry [_] [] (.operand rfl (.entry [_] [] (.condition (by decide)
    (.entry [] [] (.item [] _ rfl (.entry [] [] (.one rfl rfl trivial))))))))

theorem compileJson_of_rewrites_longEntries :
    Relation.ReflTransGen RootRewrites (.object shortEntries) (.object longEntries) ∧
      (compileJson {} (some (.object longEntries))).result =
        (compileJson {} (some (.object shortEntries))).result ∧
      (compileJson {} (some (.object longEntries))).result =
        .ok (some ("__metadata_genre:(news) AND ((__metadata_a:(x)) OR " ++
          "((NOT __metadata_n:(5)) AND __metadata_n:[3 TO *]))")) := by
  have h := compileJson_of_rewrites rewrites_longEntries {}
  have hs : (compileJson {} (some (.object shortEntries))).result.toOption =
      some (some ("__metadata_genre:(news) AND ((__metadata_a:(x)) OR " ++
        "((NOT __metadata_n:(5)) AND __metadata_n:[3 TO *]))")) := by
    decide +kernel
  exact ⟨rewrites_longEntries, h, h.trans (eq_ok_of_toOption hs)⟩

end Filter

end DocStore
