import DocStore.Filter.Compile

/-!
# What compiling gives

Each function of the compiler with what it gives where it succeeds: for a relation the five kinds
of tests (`comparison_ok`), for mappings and sequences the statements of their parts in order, with
a group for every connective over at least one statement.
-/

namespace DocStore

theorem exists_of_bind_ok {ε α β : Type} {x : Except ε α} {f : α → Except ε β} {b : β}
    (h : x >>= f = .ok b) : ∃ a, x = .ok a ∧ f a = .ok b := by
  cases x with
  | error e => cases h
  | ok a => exact ⟨a, rfl, h⟩

/-- Two results in a row that are put together. -/
theorem exists_of_both_ok {ε α β γ : Type} {x : Except ε α} {y : Except ε β} {f : α → β → γ} {c : γ}
    (h : (do let a ← x; let b ← y; return f a b) = .ok c) :
    ∃ a b, x = .ok a ∧ y = .ok b ∧ c = f a b := by
  obtain ⟨a, ha, h⟩ := exists_of_bind_ok h
  obtain ⟨b, hb, h⟩ := exists_of_bind_ok h
  cases h
  exact ⟨a, b, ha, hb, rfl⟩

theorem eq_ok_of_toOption {ε α : Type} {x : Except ε α} {a : α} (h : x.toOption = some a) :
    x = .ok a := by
  cases x with
  | error e => cases h
  | ok b => cases h; rfl

namespace Filter

variable {options : Options} {attr : String}

theorem grouped_of_ne_nil (connective : Connective) {members : List Statement}
    (h : members ≠ []) : grouped connective members = [.group connective members] := by
  simp [grouped, h]

theorem membership_ok {negated : Bool} {values : List Scalar} {s : Statement}
    (h : membership options negated attr values = .ok s) :
    values ≠ [] ∧ s = .group (if negated then .and else .or)
      (values.map (equals options negated attr)) := by
  unfold membership at h
  split at h
  · cases h
  · rename_i hne
    cases h
    exact ⟨by simpa using hne, rfl⟩

theorem range_ok {relation : Relation} {operand : Operand} {s : Statement}
    (h : range attr relation operand = .ok s) :
    ∃ n bound, operand = .number n ∧ bound? relation n = some bound ∧
      s = if isLower relation then .atLeast attr bound else .atMost attr bound := by
  cases operand with
  | number n =>
    simp only [range] at h
    split at h
    · rename_i bound hb
      cases h
      exact ⟨n, bound, rfl, hb, rfl⟩
    · cases h
  | scalar v => cases h
  | list vs => cases h

/-- What a list of values is given as: itself, or one value for a list of one. -/
inductive Lists : Operand → List Scalar → Prop where
  | list (values : List Scalar) : Lists (.list values) values
  | scalar (value : Scalar) : Lists (.scalar value) [value]

/-- What the test of a relation can be. -/
inductive Compares (options : Options) (attr : String) :
    Relation → Operand → Statement → Prop where
  | equal (v : Scalar) : Compares options attr .equal (.scalar v) (equals options false attr v)
  | notEqual (v : Scalar) :
    Compares options attr .notEqual (.scalar v) (equals options true attr v)
  | oneOf {operand : Operand} {values : List Scalar} (hl : Lists operand values)
    (hne : values ≠ []) : Compares options attr .oneOf operand
      (.group .or (values.map (equals options false attr)))
  | noneOf {operand : Operand} {values : List Scalar} (hl : Lists operand values)
    (hne : values ≠ []) : Compares options attr .noneOf operand
      (.group .and (values.map (equals options true attr)))
  | lower {relation : Relation} {n : Number} {bound : String} (hr : relation.isRange = true)
    (hl : isLower relation = true) (hb : bound? relation n = some bound) :
    Compares options attr relation (.number n) (.atLeast attr bound)
  | upper {relation : Relation} {n : Number} {bound : String} (hr : relation.isRange = true)
    (hl : isLower relation = false) (hb : bound? relation n = some bound) :
    Compares options attr relation (.number n) (.atMost attr bound)

theorem Compares.of_membership (negated : Bool) {operand : Operand} {values : List Scalar}
    {s : Statement} (hl : Lists operand values)
    (h : membership options negated attr values = .ok s) :
    Compares options attr (if negated then .noneOf else .oneOf) operand s := by
  obtain ⟨hne, rfl⟩ := membership_ok h
  cases negated with
  | false => exact .oneOf hl hne
  | true => exact .noneOf hl hne

theorem comparison_ok {relation : Relation} {operand : Operand} {s : Statement}
    (h : comparison options attr relation operand = .ok s) :
    Compares options attr relation operand s := by
  unfold comparison at h
  split at h
  · rename_i hr
    obtain ⟨n, bound, rfl, hb, rfl⟩ := range_ok h
    cases hl : isLower relation with
    | true => exact .lower hr hl hb
    | false => exact .upper hr hl hb
  · split at h
    · cases h; exact .equal _
    · cases h; exact .notEqual _
    · exact .of_membership false (.list _) h
    · exact .of_membership false (.scalar _) h
    · exact .of_membership true (.list _) h
    · exact .of_membership true (.scalar _) h
    · cases h

theorem conditionStatements_oneOf {values : List Scalar} {sts : List Statement}
    (h : conditionStatements options attr (.oneOf values) = .ok sts) :
    values ≠ [] ∧ sts = [.group .or (values.map (equals options false attr))] := by
  simp only [conditionStatements] at h
  obtain ⟨s, hs, h⟩ := exists_of_bind_ok h
  obtain ⟨hne, rfl⟩ := membership_ok hs
  cases h
  exact ⟨hne, rfl⟩

theorem comparisonStatements_compare {relation : Relation} {operand : Operand}
    {rest : List Comparison} {sts : List Statement}
    (h : comparisonStatements options attr (.compare relation operand :: rest) = .ok sts) :
    ∃ first others, Compares options attr relation operand first ∧
      comparisonStatements options attr rest = .ok others ∧ sts = first :: others := by
  simp only [comparisonStatements] at h
  obtain ⟨first, others, hf, ho, rfl⟩ := exists_of_both_ok h
  exact ⟨first, others, comparison_ok hf, ho, rfl⟩

theorem comparisonStatements_group {connective : Connective} {condition : Condition}
    {rest : List Comparison} {sts : List Statement}
    (h : comparisonStatements options attr (.group connective condition :: rest) = .ok sts) :
    ∃ members others, conditionStatements options attr condition = .ok members ∧
      comparisonStatements options attr rest = .ok others ∧
      sts = grouped connective members ++ others := by
  simp only [comparisonStatements] at h
  exact exists_of_both_ok h

theorem sequenceStatements_cons {item : Filter} {rest : List Filter} {sts : List Statement}
    (h : sequenceStatements options (item :: rest) = .ok sts) :
    ∃ first others, statements options item = .ok first ∧
      sequenceStatements options rest = .ok others ∧ sts = first ++ others := by
  simp only [sequenceStatements] at h
  exact exists_of_both_ok h

theorem clauseStatements_group {connective : Connective} {operand : Filter} {rest : List Clause}
    {sts : List Statement}
    (h : clauseStatements options (.group connective operand :: rest) = .ok sts) :
    ∃ members others, statements options operand = .ok members ∧
      clauseStatements options rest = .ok others ∧ sts = grouped connective members ++ others := by
  simp only [clauseStatements] at h
  exact exists_of_both_ok h

theorem clauseStatements_field {name : String} {condition : Condition} {rest : List Clause}
    {sts : List Statement}
    (h : clauseStatements options (.field name condition :: rest) = .ok sts) :
    ∃ first others,
      conditionStatements options (options.schema.attributeOf name) condition = .ok first ∧
      clauseStatements options rest = .ok others ∧ sts = first ++ others := by
  simp only [clauseStatements] at h
  exact exists_of_both_ok h

theorem compile_ok {connective : Connective} {filter : Filter} {r : Option String}
    (h : compile options connective filter = .ok r) :
    ∃ sts, statements options filter = .ok sts ∧ Statement.joined? connective sts = r := by
  simp only [compile] at h
  obtain ⟨sts, hs, h⟩ := exists_of_bind_ok h
  cases h
  exact ⟨sts, hs, rfl⟩

end Filter

end DocStore
