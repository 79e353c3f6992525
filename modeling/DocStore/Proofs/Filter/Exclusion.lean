import DocStore.Proofs.Filter.Compiled

/-!
# Exclusion

`$not` is the keyword between the statements of its operand: the first statement has to hold and the
others must not. `compileJson_connective` and `compileJson_field_connective` say that the operand
gives the same statements under any connective. So `$not` and `$and` over at least two statements
never hold together, and over one statement they are the same (`not_and_opposed`).
-/

namespace DocStore

/-! ## Operands read under a connective -/

theorem mergeFrom_of_ok {field : String} {connective : Connective} {merged fields : Fields}
    {items : List Json} (h : (mergeFrom field connective merged items).result = .ok fields)
    (connective' : Connective) :
    (mergeFrom field connective' merged items).result = .ok fields := by
  induction items generalizing merged with
  | nil => exact h
  | cons item rest ih =>
    cases item with
    | object entries =>
      simp only [mergeFrom] at h ⊢
      obtain ⟨_, _, h⟩ := Noted.bind_eq_ok h
      rw [mergeEntries_insertAll] at h ⊢
      rw [Noted.bind_of_ok (a := ()) rfl]
      exact ih h
    | _ => cases h

/-- What stands under a connective in a comparison mapping is read in the same way under another
one. -/
theorem ComparisonRead.under {field : String} {connective : Connective} {v : Json} {c : Comparison}
    (h : ComparisonRead field connective.key v c) :
    ∃ condition, ∀ connective' : Connective,
      (Comparison.ofJson field connective'.key v).result = .ok (.group connective' condition) := by
  cases h with
  | @merged connective items fields condition _ hm hc =>
    refine ⟨condition, fun connective' => ?_⟩
    have hm' : (merge field connective' items).result = .ok fields := mergeFrom_of_ok hm connective'
    rw [Comparison.ofJson, Connective.ofKey?_key]
    dsimp only
    split
    · rename_i e he
      rw [hm'] at he
      cases he
    · rename_i merged he
      rw [hm', Except.ok.injEq] at he
      subst he
      exact Noted.map_of_ok hc _
  | @group connective v condition _ ha hc =>
    refine ⟨condition, fun connective' => ?_⟩
    rw [Comparison.ofJson, Connective.ofKey?_key]
    dsimp only
    split
    · exact absurd rfl (ha _)
    · exact Noted.map_of_ok hc _
  | compare hk _ _ =>
    rw [Connective.ofKey?_key] at hk
    cases hk

theorem Clause.listOfJson_connective {entries : List (String × Json)} {items : List Clause}
    (h : (Clause.listOfJson entries).result = .ok items) (connective : Connective) :
    (Clause.listOfJson [(connective.key, .object entries)]).result =
      .ok [.group connective (.clauses items)] := by
  have hoperand : (Filter.ofJson (.object entries)).result = .ok (.clauses items) := by
    rw [Filter.ofJson]
    exact Noted.map_of_ok h _
  rw [Clause.listOfJson, Connective.ofKey?_key]
  dsimp only
  rw [Noted.bind_of_ok (Noted.map_of_ok hoperand _)]
  rfl

theorem Clause.listOfJson_field_connective {field : String} {connective : Connective} {v : Json}
    {items : List Clause} (hfield : Connective.ofKey? field = none)
    (h : (Clause.listOfJson [(field, .object [(connective.key, v)])]).result = .ok items) :
    ∃ condition, ∀ connective' : Connective,
      (Clause.listOfJson [(field, .object [(connective'.key, v)])]).result =
        .ok [.field field (.comparisons [.group connective' condition])] := by
  have hkey := isOperatorKey_of_ok h hfield
  obtain ⟨first, others, hf, _, _⟩ := clauses_cons_ok h
  cases hf with
  | group hk _ =>
    rw [hfield] at hk
    cases hk
  | field _ hc =>
    obtain ⟨comparisons, hi, _⟩ := condition_object_ok hc
    obtain ⟨comparison, _, hcomparison, _, _⟩ := comparisons_cons_ok hi
    obtain ⟨condition, hunder⟩ := (comparison_ok_read hcomparison).under
    refine ⟨condition, fun connective' => ?_⟩
    have hcondition : (Condition.ofJson field (.object [(connective'.key, v)])).result =
        .ok (.comparisons [.group connective' condition]) := by
      rw [Condition.ofJson]
      refine Noted.map_of_ok ?_ _
      rw [Comparison.listOfJson, Noted.bind_of_ok (hunder connective'), Comparison.listOfJson]
      rfl
    rw [Clause.listOfJson, hfield, hkey]
    dsimp only
    rw [if_neg Bool.false_ne_true, Noted.bind_of_ok (Noted.map_of_ok hcondition _)]
    rfl

namespace Filter

/-! ## The truth of statements -/

section

variable (atom : Test → Bool)

mutual

def Statement.truth : Statement → Bool
  | .holds negated attr literal => negated ^^ atom (.equals attr literal)
  | .atLeast attr bound => atom (.atLeast attr bound)
  | .atMost attr bound => atom (.atMost attr bound)
  | .group connective members => connective.holds (Statement.truths members)

def Statement.truths : List Statement → List Bool
  | [] => []
  | s :: rest => s.truth :: Statement.truths rest

end

end

open Statement

theorem length_truths (atom : Test → Bool) (members : List Statement) :
    (truths atom members).length = members.length := by
  induction members with
  | nil => rfl
  | cons s rest ih => rw [truths, List.length_cons, List.length_cons, ih]

mutual

/-- What a legible statement is read as is as true as the statement. -/
theorem truth_reading {looser : Connective} (hl : looser ≠ .not) (atom : Test → Bool) :
    (s : Statement) → s.Legible → Reading.truth looser atom s.reading = s.truth atom
  | .holds false attr literal, _ => (Bool.false_xor _).symm
  | .holds true attr literal, _ => (Bool.true_xor _).symm
  | .atLeast attr bound, _ => rfl
  | .atMost attr bound, _ => rfl
  | .group connective members, ⟨hne, hm⟩ => by
    rw [Statement.reading, Reading.truth_joined hl atom connective
      (by simpa [readings_eq_map] using hne), readings_eq_map, truths_reading hl atom members hm]
    rfl

theorem truths_reading {looser : Connective} (hl : looser ≠ .not) (atom : Test → Bool) :
    (members : List Statement) → AllLegible members →
    (members.map Statement.reading).map (Reading.truth looser atom) = truths atom members
  | [], _ => rfl
  | s :: rest, ⟨hs, hm⟩ => by
    rw [List.map_cons, List.map_cons, truth_reading hl atom s hs, truths_reading hl atom rest hm,
      truths]

end

/-! ## Groups alone -/

/-- The string of a filter that is one group. -/
def groupText (connective : Connective) (members : List Statement) : String :=
  String.ofList (Statement.group connective members).write

theorem joined?_grouped {connective : Connective} {members : List Statement} (h : members ≠ []) :
    joined? .and (grouped connective members) = some (groupText connective members) := by
  rw [grouped_of_ne_nil _ h]
  rfl

theorem groupText_singleton (connective connective' : Connective) {members : List Statement}
    (h : members.length = 1) : groupText connective members = groupText connective' members := by
  obtain ⟨s, rfl⟩ := List.length_eq_one_iff.mp h
  rfl

theorem truth?_groupText {looser : Connective} (hl : looser ≠ .not) (atom : Test → Bool)
    (connective : Connective) {members : List Statement} (hne : members ≠ [])
    (h : AllLegible members) :
    truth? looser atom (groupText connective members) =
      some ((Statement.group connective members).truth atom) := by
  have hgroup : (Statement.group connective members).Legible := ⟨hne, h⟩
  have hjoined : joined? .and [.group connective members] = some (groupText connective members) :=
    rfl
  rw [truth?, Reading.ofText?_joined? hjoined ⟨hgroup, trivial⟩, Option.map_some,
    List.map_singleton, Reading.truth_joined hl atom .and (List.cons_ne_nil _ _),
    List.map_singleton, holds_singleton, truth_reading hl atom _ hgroup]

/-- Of two values or more, not all hold when only the first one does. -/
theorem not_and_holds {values : List Bool} (h : 2 ≤ values.length)
    (hnot : Connective.not.holds values = true) : Connective.and.holds values = false := by
  match values, h with
  | a :: b :: rest, _ =>
    simp only [Connective.holds, List.tail_cons, List.all_cons, Bool.and_eq_true,
      Bool.not_eq_true'] at hnot
    simp [Connective.holds, hnot.2.1]

/-! ## Filters under a connective -/

variable {options : Options}

theorem compileJson_connective {entries : List (String × Json)} {r : String}
    (h : (compileJson options (some (.object entries))).result = .ok (some r)) :
    ∃ members, members ≠ [] ∧ joined? .and members = some r ∧
      (options.escapeValues = true ∧ (∀ name ∈ entryNames entries, isPlainName name = true) →
        AllLegible members) ∧
      ∀ connective : Connective,
        (compileJson options (some (.object [(connective.key, .object entries)]))).result =
          .ok (some (groupText connective members)) := by
  obtain ⟨items, members, hi, hs, hne, hj⟩ := statements_of_compileJson h
  refine ⟨members, hne, hj, fun ⟨hescape, hnames⟩ => ?_, fun connective => ?_⟩
  · obtain ⟨schema, escapeValues⟩ := options
    subst hescape
    rw [← fieldNames_clauses entries hi] at hnames
    exact legible_clauses items hnames hs
  · have hgroup : clauseStatements options [.group connective (.clauses items)] =
        .ok (grouped connective members) := by
      rw [clauseStatements, statements, hs, clauseStatements]
      exact congrArg _ (List.append_nil _)
    have hcompiled := compileJson_of_statements (Clause.listOfJson_connective hi connective) hgroup
      (by rw [grouped_of_ne_nil _ hne]; exact List.cons_ne_nil _ _)
    rw [hcompiled, joined?_grouped hne]

/-- What stands under a connective in the comparison mapping of a field gives the same members under
any connective. -/
theorem compileJson_field_connective {field : String} {connective : Connective} {v : Json}
    {r : String} (hfield : Connective.ofKey? field = none)
    (h : (compileJson options (some (.object [(field, .object [(connective.key, v)])]))).result =
      .ok (some r)) :
    ∃ members, members ≠ [] ∧
      (options.escapeValues = true ∧ isPlainName field = true → AllLegible members) ∧
      ∀ connective' : Connective,
        (compileJson options (some (.object [(field, .object [(connective'.key, v)])]))).result =
          .ok (some (groupText connective' members)) := by
  obtain ⟨items, sts, hi, hs, hne, _⟩ := statements_of_compileJson h
  obtain ⟨condition, hunder⟩ := Clause.listOfJson_field_connective hfield hi
  have hitems := hunder connective
  rw [hi, Except.ok.injEq] at hitems
  subst hitems
  obtain ⟨first, others, hfirst, hothers, rfl⟩ := clauseStatements_field hs
  cases hothers
  obtain ⟨members, others, hmembers, hothers, rfl⟩ := comparisonStatements_group hfirst
  cases hothers
  have hmembers_ne : members ≠ [] := by
    rintro rfl
    exact hne rfl
  refine ⟨members, hmembers_ne, fun ⟨hescape, hname⟩ => ?_, fun connective' => ?_⟩
  · obtain ⟨schema, escapeValues⟩ := options
    subst hescape
    exact legible_condition (isAttribute_attributeOf hname schema) condition hmembers
  · have hgroup : clauseStatements options
        [.field field (.comparisons [.group connective' condition])] =
          .ok (grouped connective' members) := by
      rw [clauseStatements, conditionStatements, comparisonStatements, hmembers,
        comparisonStatements, clauseStatements]
      show Except.ok (grouped connective' members ++ [] ++ []) = _
      rw [List.append_nil, List.append_nil]
    have hcompiled := compileJson_of_statements (hunder connective') hgroup
      (by rw [grouped_of_ne_nil _ hmembers_ne]; exact List.cons_ne_nil _ _)
    rw [hcompiled, joined?_grouped hmembers_ne]

/-! ## Groups under `NOT` and under `AND` -/

/-- Two strings that are one group each over the same statements, joined by `NOT` in the one and by
`AND` in the other. Where the names of fields are plain and literals are escaped, both can be read,
and say what the groups say. -/
structure Opposed (plain : Prop) (members : List Statement) (excluding joining : String) :
    Prop where
  nonempty : members ≠ []
  excluding_eq : excluding = groupText .not members
  joining_eq : joining = groupText .and members
  same : members.length = 1 → excluding = joining
  never : 2 ≤ members.length → ∀ atom : Test → Bool,
    ¬ ((Statement.group .not members).truth atom = true ∧
      (Statement.group .and members).truth atom = true)
  excluding_truth : plain → ∀ looser : Connective, looser ≠ .not → ∀ atom : Test → Bool,
    truth? looser atom excluding = some ((Statement.group .not members).truth atom)
  joining_truth : plain → ∀ looser : Connective, looser ≠ .not → ∀ atom : Test → Bool,
    truth? looser atom joining = some ((Statement.group .and members).truth atom)

theorem opposed_groupText {plain : Prop} {members : List Statement} (hne : members ≠ [])
    (hlegible : plain → AllLegible members) :
    Opposed plain members (groupText .not members) (groupText .and members) where
  nonempty := hne
  excluding_eq := rfl
  joining_eq := rfl
  same := groupText_singleton .not .and
  never := by
    rintro hlen atom ⟨hnot, hand⟩
    have hfalse : (Statement.group .and members).truth atom = false :=
      not_and_holds (by rwa [length_truths]) hnot
    rw [hfalse] at hand
    cases hand
  excluding_truth := fun hp _ hl atom => truth?_groupText hl atom .not hne (hlegible hp)
  joining_truth := fun hp _ hl atom => truth?_groupText hl atom .and hne (hlegible hp)

theorem Opposed.not_both {plain : Prop} {members : List Statement} {excluding joining : String}
    (h : Opposed plain members excluding joining) (hp : plain) (hne : excluding ≠ joining)
    {looser : Connective} (hl : looser ≠ .not) (atom : Test → Bool) :
    ¬ (truth? looser atom excluding = some true ∧ truth? looser atom joining = some true) := by
  have hlen : 2 ≤ members.length := by
    have hpos := List.length_pos_iff.mpr h.nonempty
    have hone : members.length ≠ 1 := fun hone => hne (h.same hone)
    omega
  rw [h.excluding_truth hp looser hl, h.joining_truth hp looser hl, Option.some.injEq,
    Option.some.injEq]
  exact h.never hlen atom

/-- `$not` excludes what `$and` asks for if the operand says two things or more, as a filter and in
the comparison mapping of a field. The members of the two groups are the same; if there is only one,
`$not` is `$and`. -/
theorem not_and_opposed (options : Options) :
    (∀ (entries : List (String × Json)) (r : String),
      (compileJson options (some (.object entries))).result = .ok (some r) →
      ∃ members excluding joining, joined? .and members = some r ∧
        (compileJson options (some (.object [("$not", .object entries)]))).result =
          .ok (some excluding) ∧
        (compileJson options (some (.object [("$and", .object entries)]))).result =
          .ok (some joining) ∧
        Opposed (options.escapeValues = true ∧
          ∀ name ∈ entryNames entries, isPlainName name = true) members excluding joining) ∧
    ∀ (field : String) (v : Json) (connective : Connective) (r : String),
      Connective.ofKey? field = none →
      (compileJson options (some (.object [(field, .object [(connective.key, v)])]))).result =
        .ok (some r) →
      ∃ members excluding joining,
        (compileJson options (some (.object [(field, .object [("$not", v)])]))).result =
          .ok (some excluding) ∧
        (compileJson options (some (.object [(field, .object [("$and", v)])]))).result =
          .ok (some joining) ∧
        Opposed (options.escapeValues = true ∧ isPlainName field = true) members excluding
          joining := by
  constructor
  · intro entries r h
    obtain ⟨members, hne, hj, hlegible, hunder⟩ := compileJson_connective h
    exact ⟨members, _, _, hj, hunder .not, hunder .and, opposed_groupText hne hlegible⟩
  · intro field v connective r hfield h
    obtain ⟨members, hne, hlegible, hunder⟩ := compileJson_field_connective hfield h
    exact ⟨members, _, _, hunder .not, hunder .and, opposed_groupText hne hlegible⟩

def newsEntries : List (String × Json) :=
  [("genre", .array [.string "news", .string "sports"]), ("id", .null)]

def boundsOperand : Json :=
  .array [.object [("$gte", .number (.integer 3))], .object [("$ne", .string "x")]]

theorem not_and_opposed_news :
    (∃ excluding joining,
      (compileJson ⟨.text, true⟩ (some (.object [("$not", .object newsEntries)]))).result =
        .ok (some excluding) ∧
      (compileJson ⟨.text, true⟩ (some (.object [("$and", .object newsEntries)]))).result =
        .ok (some joining) ∧
      ∀ atom, ¬ (truth? .or atom excluding = some true ∧ truth? .or atom joining = some true)) ∧
    ∃ excluding joining,
      (compileJson ⟨.text, true⟩
        (some (.object [("n", .object [("$not", boundsOperand)])]))).result = .ok (some excluding) ∧
      (compileJson ⟨.text, true⟩
        (some (.object [("n", .object [("$and", boundsOperand)])]))).result = .ok (some joining) ∧
      ∀ atom, ¬ (truth? .or atom excluding = some true ∧ truth? .or atom joining = some true) := by
  have hl : Connective.or ≠ .not := by decide
  obtain ⟨hfilter, hfield⟩ := not_and_opposed ⟨.text, true⟩
  constructor
  · have hs : (compileJson ⟨.text, true⟩ (some (.object newsEntries))).result.toOption =
        some (some "(__metadata_genre:(news) OR __metadata_genre:(sports)) AND id:(null)") := by
      decide +kernel
    obtain ⟨members, excluding, joining, _, hexcluding, hjoining, h⟩ :=
      hfilter newsEntries _ (eq_ok_of_toOption hs)
    have hne : (compileJson ⟨.text, true⟩
        (some (.object [("$not", .object newsEntries)]))).result.toOption ≠
          (compileJson ⟨.text, true⟩
            (some (.object [("$and", .object newsEntries)]))).result.toOption := by
      decide +kernel
    refine ⟨excluding, joining, hexcluding, hjoining, h.not_both ⟨rfl, by decide⟩ ?_ hl⟩
    rintro rfl
    exact hne (by rw [hexcluding, hjoining])
  · have hs : (compileJson ⟨.text, true⟩
        (some (.object [("n", .object [("$and", boundsOperand)])]))).result.toOption =
          some (some "(__metadata_n:[3 TO *] AND NOT __metadata_n:(x))") := by
      decide +kernel
    have hand : (compileJson ⟨.text, true⟩
        (some (.object [("n", .object [(Connective.and.key, boundsOperand)])]))).result =
          .ok (some "(__metadata_n:[3 TO *] AND NOT __metadata_n:(x))") := eq_ok_of_toOption hs
    obtain ⟨members, excluding, joining, hexcluding, hjoining, h⟩ :=
      hfield "n" boundsOperand .and _ rfl hand
    have hne : (compileJson ⟨.text, true⟩
        (some (.object [("n", .object [("$not", boundsOperand)])]))).result.toOption ≠
          (compileJson ⟨.text, true⟩
            (some (.object [("n", .object [("$and", boundsOperand)])]))).result.toOption := by
      decide +kernel
    refine ⟨excluding, joining, hexcluding, hjoining, h.not_both ⟨rfl, by decide⟩ ?_ hl⟩
    rintro rfl
    exact hne (by rw [hexcluding, hjoining])

/-- The strings of two filters hold for the same truth of the tests. -/
def HoldTogether (options : Options) (a b : List (String × Json)) : Prop :=
  ∃ s t, (compileJson options (some (.object a))).result = .ok (some s) ∧
    (compileJson options (some (.object b))).result = .ok (some t) ∧
    ∃ looser atom, looser ≠ Connective.not ∧ truth? looser atom s = some true ∧
      truth? looser atom t = some true

def strangeEntries : List (String × Json) :=
  [("x:(1) OR y", .number (.integer 1)), ("b", .number (.integer 2))]

def openEntries : List (String × Json) :=
  [("x", .string "1) OR y:(1"), ("b", .number (.integer 2))]

/-- It is not so that `$not` and `$and` never hold together: over one statement they are the same,
and a name or an unescaped value with a keyword in it makes two tests of one. -/
theorem not_and_holdTogether :
    HoldTogether ⟨.content, true⟩ [("$not", .object [("x", .number (.integer 1))])]
        [("$and", .object [("x", .number (.integer 1))])] ∧
      HoldTogether ⟨.content, true⟩ [("x", .object [("$not", .number (.integer 1))])]
        [("x", .object [("$and", .number (.integer 1))])] ∧
      HoldTogether ⟨.content, true⟩ [("$not", .object strangeEntries)]
        [("$and", .object strangeEntries)] ∧
      HoldTogether ⟨.content, false⟩ [("$not", .object openEntries)]
        [("$and", .object openEntries)] := by
  let isX : Test → Bool := fun t => decide (t = .equals "__metadata_x" "1")
  have hl : Connective.or ≠ .not := by decide
  refine ⟨⟨"(__metadata_x:(1))", "(__metadata_x:(1))", ?_, ?_, .or, isX, hl, ?_, ?_⟩,
    ⟨"(__metadata_x:(1))", "(__metadata_x:(1))", ?_, ?_, .or, isX, hl, ?_, ?_⟩,
    ⟨"(__metadata_x:(1) OR y:(1) NOT __metadata_b:(2))",
      "(__metadata_x:(1) OR y:(1) AND __metadata_b:(2))", ?_, ?_, .or, isX, hl, ?_, ?_⟩,
    ⟨"(__metadata_x:(1) OR y:(1) NOT __metadata_b:(2))",
      "(__metadata_x:(1) OR y:(1) AND __metadata_b:(2))", ?_, ?_, .or, isX, hl, ?_, ?_⟩⟩
  all_goals first
    | exact eq_ok_of_toOption (by decide +kernel)
    | decide +kernel

end Filter

end DocStore
