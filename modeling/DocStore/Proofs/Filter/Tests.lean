import DocStore.Proofs.Filter.Leaf
import DocStore.Proofs.Filter.Marks

/-!
# Tests of leaves

Each leaf of a filter is compiled to tests of one attribute: one for each of its values, or one for
its range (`Leaf.tests`). The tests in the statements of a filter are those of its leaves, from left
to right, and nothing else (`tests_statements`). So all statements are marked if the attributes make
no mark (`marked_statements`), and the tests among their marks are told by the leaves
(`filter_marks_statements`).
-/

namespace DocStore

def Relation.isNegative : Relation → Bool
  | .notEqual | .noneOf => true
  | _ => false

def Filter.rangeTest (attr : String) (relation : Relation) (n : Number) : Filter.Statement :=
  if Filter.isLower relation then .atLeast attr (Filter.boundText relation n)
  else .atMost attr (Filter.boundText relation n)

/-- The tests that a leaf is compiled to. -/
def Leaf.tests (options : Filter.Options) (attr : String) : Leaf → List Filter.Statement
  | .value v => [Filter.equals options false attr v]
  | .oneOf values => values.map (Filter.equals options false attr)
  | .compare relation (.number n) => [Filter.rangeTest attr relation n]
  | .compare relation operand =>
    operand.values.map (Filter.equals options relation.isNegative attr)

def Leaf.marks : Leaf → List Filter.Mark
  | .value _ => [.value]
  | .oneOf values => values.map fun _ => .value
  | .compare _ (.number _) => [.range]
  | .compare _ operand => operand.values.map fun _ => .value

namespace Filter

open Statement

section

variable {options : Options} {attr : String}

theorem testsOf_append (a b : List Statement) : testsOf (a ++ b) = testsOf a ++ testsOf b := by
  induction a with
  | nil => rfl
  | cons s a ih => rw [List.cons_append, testsOf, testsOf, ih, List.append_assoc]

theorem testsOf_grouped (connective : Connective) (members : List Statement) :
    testsOf (grouped connective members) = testsOf members := by
  cases members with
  | nil => rfl
  | cons s rest =>
    rw [grouped_of_ne_nil _ (by simp), testsOf, tests, testsOf, List.append_nil]

theorem testsOf_equals (negated : Bool) (values : List Scalar) :
    testsOf (values.map (equals options negated attr)) =
      values.map (equals options negated attr) := by
  induction values with
  | nil => rfl
  | cons v rest ih =>
    rw [List.map_cons, testsOf, ih]
    rfl

theorem Compares.tests {relation : Relation} {operand : Operand} {s : Statement}
    (h : Compares options attr relation operand s) :
    s.tests = (Leaf.compare relation operand).tests options attr := by
  cases h with
  | equal v => rfl
  | notEqual v => rfl
  | oneOf hl _ =>
    rw [Statement.tests, testsOf_equals, ← hl.eq_values]
    cases hl <;> rfl
  | noneOf hl _ =>
    rw [Statement.tests, testsOf_equals, ← hl.eq_values]
    cases hl <;> rfl
  | lower _ hl hb =>
    rw [Leaf.tests, rangeTest, ← eq_boundText_of_bound? hb, if_pos hl]; rfl
  | upper _ hl hb =>
    rw [Leaf.tests, rangeTest, ← eq_boundText_of_bound? hb, if_neg (by simp [hl])]; rfl

mutual

theorem tests_condition : (c : Condition) → {sts : List Statement} →
    conditionStatements options attr c = .ok sts →
    testsOf sts = c.leaves.flatMap (Leaf.tests options attr)
  | .scalar v, _, h => by
    cases h
    rfl
  | .oneOf vs, _, h => by
    obtain ⟨_, rfl⟩ := conditionStatements_oneOf h
    rw [testsOf, Statement.tests, testsOf_equals, testsOf, List.append_nil]
    simp [Condition.leaves, Leaf.tests]
  | .comparisons items, _, h => tests_comparisons items h

theorem tests_comparisons : (items : List Comparison) → {sts : List Statement} →
    comparisonStatements options attr items = .ok sts →
    testsOf sts = (Comparison.leavesOf items).flatMap (Leaf.tests options attr)
  | [], _, h => by cases h; rfl
  | .compare relation operand :: rest, _, h => by
    obtain ⟨first, others, hf, ho, rfl⟩ := comparisonStatements_compare h
    rw [testsOf, hf.tests, tests_comparisons rest ho, Comparison.leavesOf, List.flatMap_cons]
  | .group connective inner :: rest, _, h => by
    obtain ⟨members, others, hm, ho, rfl⟩ := comparisonStatements_group h
    rw [testsOf_append, testsOf_grouped, tests_condition inner hm, tests_comparisons rest ho,
      Comparison.leavesOf, List.flatMap_append]

end

/-- The tests of a leaf of a filter. -/
def leafTests (options : Options) (leaf : String × Leaf) : List Statement :=
  leaf.2.tests options (options.schema.attributeOf leaf.1)

mutual

/-- The tests in the statements of a filter are those of its leaves. -/
theorem tests_statements : (f : Filter) → {sts : List Statement} →
    statements options f = .ok sts → testsOf sts = f.leaves.flatMap (leafTests options)
  | .clauses items, _, h => tests_clauses items h
  | .sequence items, _, h => tests_sequence items h

theorem tests_sequence : (items : List Filter) → {sts : List Statement} →
    sequenceStatements options items = .ok sts →
    testsOf sts = (Filter.leavesOf items).flatMap (leafTests options)
  | [], _, h => by cases h; rfl
  | item :: rest, _, h => by
    obtain ⟨first, others, hf, ho, rfl⟩ := sequenceStatements_cons h
    rw [testsOf_append, tests_statements item hf, tests_sequence rest ho, Filter.leavesOf,
      List.flatMap_append]

theorem tests_clauses : (items : List Clause) → {sts : List Statement} →
    clauseStatements options items = .ok sts →
    testsOf sts = (Clause.leavesOf items).flatMap (leafTests options)
  | [], _, h => by cases h; rfl
  | .group connective operand :: rest, _, h => by
    obtain ⟨members, others, hm, ho, rfl⟩ := clauseStatements_group h
    rw [testsOf_append, testsOf_grouped, tests_statements operand hm, tests_clauses rest ho,
      Clause.leavesOf, List.flatMap_append]
  | .field name condition :: rest, _, h => by
    obtain ⟨first, others, hf, ho, rfl⟩ := clauseStatements_field h
    rw [testsOf_append, tests_condition condition hf, tests_clauses rest ho, Clause.leavesOf,
      List.flatMap_append, List.flatMap_map]
    rfl

end

end

/-! ## Names of leaves -/

mutual

theorem name_of_leaf : (f : Filter) → ∀ l ∈ f.leaves, l.1 ∈ f.fieldNames
  | .clauses items => name_of_leaf_clauses items
  | .sequence items => name_of_leaf_sequence items

theorem name_of_leaf_sequence : (items : List Filter) → ∀ l ∈ Filter.leavesOf items,
    l.1 ∈ sequenceNames items
  | [] => fun _ h => nomatch h
  | item :: rest => by
    rw [Filter.leavesOf, sequenceNames, List.forall_mem_append]
    exact ⟨fun l hl => List.mem_append_left _ (name_of_leaf item l hl),
      fun l hl => List.mem_append_right _ (name_of_leaf_sequence rest l hl)⟩

theorem name_of_leaf_clauses : (items : List Clause) → ∀ l ∈ Clause.leavesOf items,
    l.1 ∈ clauseNames items
  | [] => fun _ h => nomatch h
  | .group connective operand :: rest => by
    rw [Clause.leavesOf, clauseNames, List.forall_mem_append]
    exact ⟨fun l hl => List.mem_append_left _ (name_of_leaf operand l hl),
      fun l hl => List.mem_append_right _ (name_of_leaf_clauses rest l hl)⟩
  | .field name condition :: rest => by
    rw [Clause.leavesOf, clauseNames, List.forall_mem_append]
    refine ⟨fun l hl => ?_, fun l hl => List.mem_cons_of_mem _ (name_of_leaf_clauses rest l hl)⟩
    obtain ⟨_, _, rfl⟩ := List.mem_map.mp hl
    exact List.mem_cons_self

end

/-! ## Marks of statements -/

theorem isFreeOf_literal (schema : Schema) (v : Scalar) :
    isFreeOf isParen (literal ⟨schema, true⟩ v).toList = true := by
  have hreserved : ∀ c, isParen c = true → isReservedChar c = true := by
    intro c hc
    simp only [isParen, Bool.or_eq_true, beq_iff_eq] at hc
    rcases hc with rfl | rfl <;> decide
  have hnumber : ∀ c, isNumberChar c = true → isParen c = false := by
    intro c hc
    rw [isParen, Bool.or_eq_false_iff, beq_eq_false_iff_ne, beq_eq_false_iff_ne]
    constructor <;> rintro rfl <;> exact absurd hc (by decide)
  cases v with
  | null => exact (by decide : isFreeOf isParen "null".toList = true)
  | bool b =>
    cases b with
    | false => exact (by decide : isFreeOf isParen "false".toList = true)
    | true => exact (by decide : isFreeOf isParen "true".toList = true)
  | number n => exact (numeric_numberText n).isFreeOf hnumber
  | string s => exact isFreeOf_escape hreserved s

theorem numeric_boundText (relation : Relation) (n : Number) :
    Numeric (boundText relation n).toList := by
  unfold boundText
  split
  · exact numeric_doubleText _
  · exact numeric_doubleText _
  · exact numeric_numberText _

/-- The tests of a leaf are marked if the attribute makes no mark. -/
theorem marked_leaf {schema : Schema} {attr : String} (h : IsInert attr) (l : Leaf) :
    ∀ t ∈ l.tests ⟨schema, true⟩ attr, t.Marked := by
  have hequals : ∀ negated (values : List Scalar),
      ∀ t ∈ values.map (equals ⟨schema, true⟩ negated attr), t.Marked := by
    intro negated values t ht
    obtain ⟨v, _, rfl⟩ := List.mem_map.mp ht
    exact marked_holds h negated (isFreeOf_literal schema v)
  cases l with
  | value v => exact hequals false [v]
  | oneOf values => exact hequals false values
  | compare relation operand =>
    cases operand with
    | scalar v => exact hequals _ [v]
    | list values => exact hequals _ values
    | number n =>
      rw [Leaf.tests, List.forall_mem_singleton, rangeTest]
      split
      · exact marked_atLeast h (numeric_boundText relation n)
      · exact marked_atMost h (numeric_boundText relation n)

/-- Each value of a leaf makes one test, and so does its range. -/
theorem filter_marks_leaf (options : Options) (attr : String) (l : Leaf) :
    (l.tests options attr).flatMap (fun t => t.reading.marks.filter Mark.isTest) = l.marks := by
  have hequals : ∀ negated (values : List Scalar),
      (values.map (equals options negated attr)).flatMap
        (fun t => t.reading.marks.filter Mark.isTest) = values.map fun _ => .value := by
    intro negated values
    rw [List.flatMap_map, List.map_eq_flatMap]
    cases negated <;> rfl
  cases l with
  | value v => rfl
  | oneOf values => exact hequals false values
  | compare relation operand =>
    cases operand with
    | scalar v => exact hequals _ [v]
    | list values => exact hequals _ values
    | number n =>
      rw [Leaf.tests, rangeTest]
      split <;> rfl

section

variable {schema : Schema} {f : Filter} {sts : List Statement}

/-- What a filter says is marked if no attribute in it makes a mark. -/
theorem marked_statements (h : statements ⟨schema, true⟩ f = .ok sts)
    (hinert : ∀ name ∈ f.fieldNames, IsInert (schema.attributeOf name)) : ∀ s ∈ sts, s.Marked := by
  refine marked_of_testsOf sts ?_
  rw [tests_statements f h, List.forall_mem_flatMap]
  exact fun l hl => marked_leaf (hinert l.1 (name_of_leaf f l hl)) l.2

theorem filter_marks_statements {options : Options} (h : statements options f = .ok sts)
    (connective : Connective) :
    (Mark.joined connective (sts.map fun s => s.reading.marks)).filter Mark.isTest =
      f.leaves.flatMap fun l => l.2.marks := by
  rw [filter_marksOf, tests_statements f h, List.flatMap_assoc]
  exact congrArg (f.leaves.flatMap ·) (funext fun l => filter_marks_leaf options _ l.2)

end

end Filter

end DocStore
