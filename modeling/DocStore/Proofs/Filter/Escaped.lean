import DocStore.Proofs.Filter.BadLeaf
import DocStore.Proofs.Filter.Checks
import DocStore.Proofs.Filter.Emptiness

/-!
# Escaping beforehand

Compiling escapes each string once, wherever it stands, and nothing else. A filter whose strings
were escaped before therefore compiles without escaping to what the filter itself compiles to with
it, and where one fails the other fails at the same leaf (`sameOutcome_compile`).
-/

namespace DocStore

/-! ## Filters with escaped strings -/

def Scalar.escaped : Scalar → Scalar
  | .string s => .string (Filter.escape s)
  | other => other

def Operand.escaped : Operand → Operand
  | .scalar v => .scalar v.escaped
  | .list values => .list (values.map Scalar.escaped)
  | .number n => .number n

mutual

/-- The condition with every string in it escaped. -/
def Condition.escaped : Condition → Condition
  | .scalar v => .scalar v.escaped
  | .oneOf values => .oneOf (values.map Scalar.escaped)
  | .comparisons items => .comparisons (Comparison.allEscaped items)

def Comparison.escaped : Comparison → Comparison
  | .compare relation operand => .compare relation operand.escaped
  | .group connective condition => .group connective condition.escaped

def Comparison.allEscaped : List Comparison → List Comparison
  | [] => []
  | item :: rest => item.escaped :: Comparison.allEscaped rest

end

mutual

/-- The filter with every string in its conditions escaped. -/
def Filter.escaped : Filter → Filter
  | .clauses items => .clauses (Clause.allEscaped items)
  | .sequence items => .sequence (Filter.allEscaped items)

def Filter.allEscaped : List Filter → List Filter
  | [] => []
  | item :: rest => item.escaped :: Filter.allEscaped rest

def Clause.escaped : Clause → Clause
  | .group connective operand => .group connective operand.escaped
  | .field name condition => .field name condition.escaped

def Clause.allEscaped : List Clause → List Clause
  | [] => []
  | item :: rest => item.escaped :: Clause.allEscaped rest

end

/-! ## Leaves -/

def Leaf.escaped : Leaf → Leaf
  | .value v => .value v.escaped
  | .oneOf values => .oneOf (values.map Scalar.escaped)
  | .compare relation operand => .compare relation operand.escaped

mutual

theorem Condition.leaves_escaped : (c : Condition) →
    c.escaped.leaves = c.leaves.map Leaf.escaped
  | .scalar _ => rfl
  | .oneOf _ => rfl
  | .comparisons items => Comparison.leavesOf_allEscaped items

theorem Comparison.leavesOf_allEscaped : (items : List Comparison) →
    Comparison.leavesOf (Comparison.allEscaped items) =
      (Comparison.leavesOf items).map Leaf.escaped
  | [] => rfl
  | .compare relation operand :: rest => by
    rw [Comparison.allEscaped, Comparison.escaped, Comparison.leavesOf, Comparison.leavesOf,
      List.map_cons, Comparison.leavesOf_allEscaped rest, Leaf.escaped]
  | .group _ condition :: rest => by
    rw [Comparison.allEscaped, Comparison.escaped, Comparison.leavesOf, Comparison.leavesOf,
      List.map_append, condition.leaves_escaped, Comparison.leavesOf_allEscaped rest]

end

/-- The leaf of a filter with its strings escaped. -/
def Filter.escapedLeaf (leaf : String × Leaf) : String × Leaf := (leaf.1, leaf.2.escaped)

mutual

theorem Filter.leaves_escaped : (f : Filter) →
    f.escaped.leaves = f.leaves.map Filter.escapedLeaf
  | .clauses items => Clause.leavesOf_allEscaped items
  | .sequence items => Filter.leavesOf_allEscaped items

theorem Filter.leavesOf_allEscaped : (items : List Filter) →
    Filter.leavesOf (Filter.allEscaped items) = (Filter.leavesOf items).map Filter.escapedLeaf
  | [] => rfl
  | item :: rest => by
    rw [Filter.allEscaped, Filter.leavesOf, Filter.leavesOf, List.map_append, item.leaves_escaped,
      Filter.leavesOf_allEscaped rest]

theorem Clause.leavesOf_allEscaped : (items : List Clause) →
    Clause.leavesOf (Clause.allEscaped items) = (Clause.leavesOf items).map Filter.escapedLeaf
  | [] => rfl
  | .group _ operand :: rest => by
    rw [Clause.allEscaped, Clause.escaped, Clause.leavesOf, Clause.leavesOf, List.map_append,
      operand.leaves_escaped, Clause.leavesOf_allEscaped rest]
  | .field name condition :: rest => by
    rw [Clause.allEscaped, Clause.escaped, Clause.leavesOf, Clause.leavesOf, List.map_append,
      condition.leaves_escaped, Clause.leavesOf_allEscaped rest, List.map_map, List.map_map]
    rfl

end

theorem Leaf.escaped_eq_oneOf_nil_iff {l : Leaf} : l.escaped = .oneOf [] ↔ l = .oneOf [] := by
  cases l <;> simp [Leaf.escaped]

theorem Filter.isEmpty_escaped (f : Filter) : f.escaped.isEmpty = f.isEmpty := by
  rw [Bool.eq_iff_iff, isEmpty_iff, isEmpty_iff, leaves_escaped, List.forall_mem_map]
  exact forall₂_congr fun _ _ => Leaf.escaped_eq_oneOf_nil_iff

/-- Which leaves are wrong, and in which way, does not change. -/
theorem Leaf.kind_error?_escaped (l : Leaf) (attr : String) :
    (l.escaped.error? attr).map FilterError.kind = (l.error? attr).map FilterError.kind := by
  cases l with
  | value v => rfl
  | oneOf values =>
    simp only [escaped, error?, List.map_eq_nil_iff]
  | compare relation operand =>
    cases operand with
    | number n => rfl
    | scalar v =>
      simp only [escaped, Operand.escaped, error?, Operand.error?]
      split <;> rfl
    | list values =>
      simp only [escaped, Operand.escaped, error?, Operand.error?, List.map_eq_nil_iff]
      split
      · rfl
      · split <;> rfl

/-! ## Statements -/

section

variable {ε α β γ : Type}

theorem toOption_map (f : α → β) (x : Except ε α) :
    (f <$> x).toOption = x.toOption.map f := by
  cases x <;> rfl

theorem toOption_both (x : Except ε α) (y : Except ε β) (f : α → β → γ) :
    (do let a ← x; let b ← y; return f a b).toOption =
      x.toOption.bind fun a => y.toOption.map (f a) := by
  cases x <;> cases y <;> rfl

/-- Two results in a row and two others with the same values. -/
theorem toOption_both_congr {x x' : Except ε α} {y y' : Except ε β} (f : α → β → γ)
    (hx : x'.toOption = x.toOption) (hy : y'.toOption = y.toOption) :
    (do let a ← x'; let b ← y'; return f a b).toOption =
      (do let a ← x; let b ← y; return f a b).toOption := by
  rw [toOption_both, toOption_both, hx, hy]

end

namespace Filter

section

variable (schema : Schema)

theorem literal_escaped (v : Scalar) :
    literal ⟨schema, false⟩ v.escaped = literal ⟨schema, true⟩ v := by
  cases v with
  | bool b => cases b <;> rfl
  | _ => rfl

variable (attr : String)

theorem equals_escaped (negated : Bool) (v : Scalar) :
    equals ⟨schema, false⟩ negated attr v.escaped = equals ⟨schema, true⟩ negated attr v := by
  rw [equals, equals, literal_escaped]

theorem membership_escaped (negated : Bool) (values : List Scalar) :
    membership ⟨schema, false⟩ negated attr (values.map Scalar.escaped) =
      membership ⟨schema, true⟩ negated attr values := by
  simp only [membership, List.isEmpty_map, List.map_map, Function.comp_def, equals_escaped]

theorem range_escaped (relation : Relation) (operand : Operand) :
    (range attr relation operand.escaped).toOption = (range attr relation operand).toOption := by
  cases operand <;> rfl

theorem comparison_escaped (relation : Relation) (operand : Operand) :
    (comparison ⟨schema, false⟩ attr relation operand.escaped).toOption =
      (comparison ⟨schema, true⟩ attr relation operand).toOption := by
  cases relation with
  | greater | greaterOrEqual | less | lessOrEqual => exact range_escaped attr _ operand
  | equal | notEqual =>
    cases operand with
    | scalar v => exact congrArg some (equals_escaped schema attr _ v)
    | list _ | number _ => rfl
  | oneOf | noneOf =>
    cases operand with
    | scalar v => exact congrArg Except.toOption (membership_escaped schema attr _ [v])
    | list values => exact congrArg Except.toOption (membership_escaped schema attr _ values)
    | number _ => rfl

mutual

theorem conditionStatements_escaped : (c : Condition) →
    (conditionStatements ⟨schema, false⟩ attr c.escaped).toOption =
      (conditionStatements ⟨schema, true⟩ attr c).toOption
  | .scalar v => congrArg (fun s => some [s]) (equals_escaped schema attr false v)
  | .oneOf values => by
    rw [Condition.escaped, conditionStatements, conditionStatements, membership_escaped]
  | .comparisons items => comparisonStatements_escaped items

theorem comparisonStatements_escaped : (items : List Comparison) →
    (comparisonStatements ⟨schema, false⟩ attr (Comparison.allEscaped items)).toOption =
      (comparisonStatements ⟨schema, true⟩ attr items).toOption
  | [] => rfl
  | .compare relation operand :: rest =>
    toOption_both_congr _ (comparison_escaped schema attr relation operand)
      (comparisonStatements_escaped rest)
  | .group _ condition :: rest =>
    toOption_both_congr _ (conditionStatements_escaped condition)
      (comparisonStatements_escaped rest)

end

mutual

/-- A filter with escaped strings says as it stands what the filter says with escaping. -/
theorem statements_escaped : (f : Filter) →
    (statements ⟨schema, false⟩ f.escaped).toOption = (statements ⟨schema, true⟩ f).toOption
  | .clauses items => clauseStatements_escaped items
  | .sequence items => sequenceStatements_escaped items

theorem sequenceStatements_escaped : (items : List Filter) →
    (sequenceStatements ⟨schema, false⟩ (allEscaped items)).toOption =
      (sequenceStatements ⟨schema, true⟩ items).toOption
  | [] => rfl
  | item :: rest =>
    toOption_both_congr _ (statements_escaped item) (sequenceStatements_escaped rest)

theorem clauseStatements_escaped : (items : List Clause) →
    (clauseStatements ⟨schema, false⟩ (Clause.allEscaped items)).toOption =
      (clauseStatements ⟨schema, true⟩ items).toOption
  | [] => rfl
  | .group _ operand :: rest =>
    toOption_both_congr _ (statements_escaped operand) (clauseStatements_escaped rest)
  | .field _ condition :: rest =>
    toOption_both_congr _ (conditionStatements_escaped schema _ condition)
      (clauseStatements_escaped rest)

end

theorem compile_escaped (connective : Connective) (f : Filter) :
    (compile ⟨schema, false⟩ connective f.escaped).toOption =
      (compile ⟨schema, true⟩ connective f).toOption := by
  show Except.toOption (Statement.joined? connective <$> statements _ _) =
    Except.toOption (Statement.joined? connective <$> statements _ _)
  rw [toOption_map, toOption_map, statements_escaped]

end

end Filter

/-! ## Where a filter fails -/

/-- The item at the place is the first that has an error. -/
structure FirstAt {α ε : Type} (error? : α → Option ε) (items : List α) (place : Nat) (e : ε) :
    Prop where
  failed : ∃ item, items[place]? = some item ∧ error? item = some e
  before : ∀ item ∈ items.take place, error? item = none

theorem findSome?_eq_some_iff_firstAt {α ε : Type} {error? : α → Option ε} {items : List α}
    {e : ε} : items.findSome? error? = some e ↔ ∃ place, FirstAt error? items place e := by
  rw [List.findSome?_eq_some_iff]
  constructor
  · rintro ⟨pre, item, post, rfl, hitem, hpre⟩
    exact ⟨pre.length, ⟨item, by simp, hitem⟩, by simpa using hpre⟩
  · rintro ⟨place, ⟨item, hplace, hitem⟩, hbefore⟩
    obtain ⟨hlt, rfl⟩ := List.getElem?_eq_some_iff.mp hplace
    refine ⟨items.take place, _, items.drop (place + 1), ?_, hitem, hbefore⟩
    rw [← List.drop_eq_getElem_cons hlt, List.take_append_drop]

/-- Where the items change, but not whether and in which way they are wrong, the first one that is
stays where it is. -/
theorem FirstAt.map {α β : Type} {error? : α → Option FilterError} {items : List α} {place : Nat}
    {e : FilterError} (h : FirstAt error? items place e) {error?' : β → Option FilterError}
    {g : α → β} (hg : ∀ a, (error?' (g a)).map FilterError.kind = (error? a).map FilterError.kind) :
    ∃ e', FirstAt error?' (items.map g) place e' ∧ e'.kind = e.kind := by
  obtain ⟨⟨item, hplace, hitem⟩, hbefore⟩ := h
  have hkind := hg item
  rw [hitem, Option.map_some, Option.map_eq_some_iff] at hkind
  obtain ⟨e', he', hkind⟩ := hkind
  refine ⟨e', ⟨⟨g item, by rw [List.getElem?_map, hplace]; rfl, he'⟩, ?_⟩, hkind⟩
  rw [← List.map_take, List.forall_mem_map]
  intro a ha
  have hnone := hg a
  rwa [hbefore a ha, Option.map_none, Option.map_eq_none_iff] at hnone

/-- Two results are the same, or both are errors of one kind at one place. -/
inductive SameOutcome {α ι : Type} (fails fails' : ι → FilterError → Prop) :
    Except FilterError α → Except FilterError α → Prop where
  | result (a : α) : SameOutcome fails fails' (.ok a) (.ok a)
  | failure {place : ι} {e e' : FilterError} (h : fails place e) (h' : fails' place e')
    (hk : e'.kind = e.kind) : SameOutcome fails fails' (.error e) (.error e')

/-- The places may be part of a larger whole. -/
theorem SameOutcome.within {α ι κ : Type} {fails fails' : ι → FilterError → Prop}
    {within within' : κ → FilterError → Prop} {x x' : Except FilterError α}
    (h : SameOutcome fails fails' x x') (place : ι → κ)
    (hw : ∀ i e, fails i e → within (place i) e)
    (hw' : ∀ i e, fails' i e → within' (place i) e) : SameOutcome within within' x x' := by
  cases h with
  | result a => exact .result a
  | failure h h' hk => exact .failure (hw _ _ h) (hw' _ _ h') hk

section

variable {α α' β : Type} {items : List β} {g : β → β} {error? error?' : β → Option FilterError}

/-- Where one result is an error, that of the changed items is one of the same kind at the same
place. -/
theorem exists_place_of_error {x' : Except FilterError α'} {e : FilterError}
    (hx : items.findSome? error? = some e) (hx' : errorOf? x' = (items.map g).findSome? error?')
    (hg : ∀ b, (error?' (g b)).map FilterError.kind = (error? b).map FilterError.kind) :
    ∃ place e', FirstAt error? items place e ∧ FirstAt error?' (items.map g) place e' ∧
      e'.kind = e.kind ∧ x' = .error e' := by
  obtain ⟨place, hplace⟩ := findSome?_eq_some_iff_firstAt.mp hx
  obtain ⟨e', hplace', hk⟩ := hplace.map hg
  refine ⟨place, e', hplace, hplace', hk, ?_⟩
  rw [← errorOf?_eq_some, hx', findSome?_eq_some_iff_firstAt]
  exact ⟨place, hplace'⟩

theorem SameOutcome.of_firstAt {x x' : Except FilterError α} (h : x'.toOption = x.toOption)
    (hx : errorOf? x = items.findSome? error?) (hx' : errorOf? x' = (items.map g).findSome? error?')
    (hg : ∀ b, (error?' (g b)).map FilterError.kind = (error? b).map FilterError.kind) :
    SameOutcome (FirstAt error? items) (FirstAt error?' (items.map g)) x x' := by
  cases x with
  | ok a =>
    rw [eq_ok_of_toOption h]
    exact .result a
  | error e =>
    obtain ⟨place, e', hplace, hplace', hk, rfl⟩ := exists_place_of_error hx.symm hx' hg
    exact .failure hplace hplace' hk

end

namespace Filter

/-- The leaf as a filter of its own. -/
def ofLeaf (leaf : String × Leaf) : Filter :=
  .clauses [.field leaf.1 (match leaf.2 with
    | .value v => .scalar v
    | .oneOf values => .oneOf values
    | .compare relation operand => .comparisons [.compare relation operand])]

/-- The error with which the leaf by itself fails to compile. -/
def rejection? (options : Options) (leaf : String × Leaf) : Option FilterError :=
  errorOf? (compile options .and (ofLeaf leaf))

theorem rejection?_eq (options : Options) (leaf : String × Leaf) :
    rejection? options leaf = leafError? options.schema leaf := by
  obtain ⟨name, leaf⟩ := leaf
  have hleaves : (ofLeaf (name, leaf)).leaves = [(name, leaf)] := by cases leaf <;> rfl
  rw [rejection?, errorOf?_compile, hleaves, List.findSome?_singleton]

/-- The filter fails to compile at a leaf, the first that fails by itself. -/
def FailsAt (options : Options) (f : Filter) : Nat → FilterError → Prop :=
  FirstAt (rejection? options) f.leaves

theorem sameOutcome_compile (schema : Schema) (connective : Connective) (f : Filter) :
    SameOutcome (FailsAt ⟨schema, true⟩ f) (FailsAt ⟨schema, false⟩ f.escaped)
      (compile ⟨schema, true⟩ connective f) (compile ⟨schema, false⟩ connective f.escaped) := by
  have hleaf (options : Options) : rejection? options = leafError? options.schema :=
    funext (rejection?_eq options)
  rw [FailsAt, FailsAt, hleaf, hleaf, leaves_escaped]
  refine .of_firstAt (compile_escaped schema connective f) (errorOf?_compile _ connective f) ?_
    fun leaf => leaf.2.kind_error?_escaped _
  rw [errorOf?_compile, leaves_escaped]

end Filter

end DocStore
