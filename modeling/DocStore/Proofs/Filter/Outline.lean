import DocStore.Proofs.Filter.Names
import DocStore.Proofs.Filter.Reading

/-!
# What a filter string tells about its filter

`Filter.outline` lists what a filter says: sequences flattened, empty parts left out, lists of values
as groups. How scalars are worded is left open. A filter string is read as the outline with its
literals as the string holds them (`ofText?_compile`) and, with the quoting of the literals undone,
as the outline with the values as they were given. So filters with the same string have the same
outline (`outline_of_text`).
-/

namespace DocStore

/-- The text that a scalar stands for in a literal. -/
def Scalar.plainText : Scalar → String
  | .null => "null"
  | .bool true => "true"
  | .bool false => "false"
  | .number n => Filter.numberText n
  | .string s => s

def Operand.values : Operand → List Scalar
  | .scalar v => [v]
  | .list vs => vs
  | .number _ => []

namespace Filter

def Test.unescaped : Test → Test
  | .equals attr literal => .equals attr (String.ofList (unescape literal.toList))
  | .atLeast attr bound => .atLeast attr bound
  | .atMost attr bound => .atMost attr bound

mutual

/-- The reading with the literals as they were before quoting. -/
def Reading.unescaped : Reading → Reading
  | .test t => .test t.unescaped
  | .not r => .not r.unescaped
  | .group keywords parts => .group keywords (Reading.allUnescaped parts)

def Reading.allUnescaped : List Reading → List Reading
  | [] => []
  | r :: rest => r.unescaped :: Reading.allUnescaped rest

end

/-! ## Outlines -/

def boundText (relation : Relation) (n : Number) : String :=
  match relation with
  | .greater => doubleText (exclusiveLowerBound n)
  | .less => doubleText (exclusiveUpperBound n)
  | _ => numberText n

theorem eq_boundText_of_bound? {relation : Relation} {n : Number} {bound : String}
    (h : bound? relation n = some bound) : bound = boundText relation n := by
  unfold bound? at h
  split at h <;> simp only [Option.ite_none_right_eq_some, Option.some.injEq] at h
  · exact h.2.symm
  · exact h.2.symm
  · unfold boundText
    split
    · contradiction
    · contradiction
    · exact h.2.symm

namespace Outline

section

variable (text : Scalar → String)

def equality (negated : Bool) (attr : String) (v : Scalar) : Reading :=
  let t := Reading.test (.equals attr (text v))
  if negated then .not t else t

/-- The parts under a connective are one part of what is around them. -/
def grouped (connective : Connective) : List Reading → List Reading
  | [] => []
  | parts => [.joined connective parts]

/-- One of the values, or none of them. -/
def choice (negated : Bool) (attr : String) (values : List Scalar) : List Reading :=
  grouped (if negated then .and else .or) (values.map (equality text negated attr))

def range (attr : String) (relation : Relation) (n : Number) : Reading :=
  let bound := boundText relation n
  .test (if isLower relation then .atLeast attr bound else .atMost attr bound)

/-- What a comparison says; nothing if its operand has the wrong form. -/
def comparison (attr : String) : Relation → Operand → List Reading
  | .equal, .scalar v => [equality text false attr v]
  | .notEqual, .scalar v => [equality text true attr v]
  | .oneOf, operand => choice text false attr operand.values
  | .noneOf, operand => choice text true attr operand.values
  | relation, .number n => [range attr relation n]
  | _, _ => []

mutual

def condition (attr : String) : Condition → List Reading
  | .scalar v => [equality text false attr v]
  | .oneOf vs => choice text false attr vs
  | .comparisons items => comparisons attr items

def comparisons (attr : String) : List Comparison → List Reading
  | [] => []
  | .compare relation operand :: rest =>
    comparison text attr relation operand ++ comparisons attr rest
  | .group connective inner :: rest =>
    grouped connective (condition attr inner) ++ comparisons attr rest

end

end

end Outline

section

variable (text : Scalar → String)

mutual

/-- What a filter says, in order, with its scalars worded by `text`. -/
def outline (schema : Schema) : Filter → List Reading
  | .clauses items => clausesOutline schema items
  | .sequence items => sequenceOutline schema items

def sequenceOutline (schema : Schema) : List Filter → List Reading
  | [] => []
  | item :: rest => outline schema item ++ sequenceOutline schema rest

def clausesOutline (schema : Schema) : List Clause → List Reading
  | [] => []
  | .group connective operand :: rest =>
    Outline.grouped connective (outline schema operand) ++ clausesOutline schema rest
  | .field name condition :: rest =>
    Outline.condition text (schema.attributeOf name) condition ++ clausesOutline schema rest

end

mutual

theorem condition_of_isEmpty (attr : String) : (c : Condition) → c.isEmpty = true →
    Outline.condition text attr c = []
  | .scalar v, h => by cases h
  | .oneOf vs, h => by
    rw [Condition.isEmpty, List.isEmpty_iff] at h
    rw [h]; rfl
  | .comparisons items, h => comparisons_of_allEmpty attr items h

theorem comparisons_of_allEmpty (attr : String) : (items : List Comparison) →
    Comparison.allEmpty items = true → Outline.comparisons text attr items = []
  | [], _ => rfl
  | .compare _ _ :: _, h => by cases h
  | .group connective inner :: rest, h => by
    simp only [Comparison.allEmpty, Bool.and_eq_true] at h
    rw [Outline.comparisons, condition_of_isEmpty attr inner h.1,
      comparisons_of_allEmpty attr rest h.2]
    rfl

end

mutual

/-- A filter that says nothing has an empty outline. -/
theorem outline_of_isEmpty (schema : Schema) : (f : Filter) → f.isEmpty = true →
    f.outline text schema = []
  | .clauses items, h => clausesOutline_of_allEmpty schema items h
  | .sequence items, h => sequenceOutline_of_allEmpty schema items h

theorem sequenceOutline_of_allEmpty (schema : Schema) : (items : List Filter) →
    Filter.allEmpty items = true → sequenceOutline text schema items = []
  | [], _ => rfl
  | item :: rest, h => by
    simp only [Filter.allEmpty, Bool.and_eq_true] at h
    rw [sequenceOutline, outline_of_isEmpty schema item h.1,
      sequenceOutline_of_allEmpty schema rest h.2]
    rfl

theorem clausesOutline_of_allEmpty (schema : Schema) : (items : List Clause) →
    Clause.allEmpty items = true → clausesOutline text schema items = []
  | [], _ => rfl
  | .group connective operand :: rest, h => by
    simp only [Clause.allEmpty, Bool.and_eq_true] at h
    rw [clausesOutline, outline_of_isEmpty schema operand h.1,
      clausesOutline_of_allEmpty schema rest h.2]
    rfl
  | .field name condition :: rest, h => by
    simp only [Clause.allEmpty, Bool.and_eq_true] at h
    rw [clausesOutline, condition_of_isEmpty text (schema.attributeOf name) condition h.1,
      clausesOutline_of_allEmpty schema rest h.2]
    rfl

end

end

/-! ## Statements and outlines -/

section

variable {options : Options} {attr : String}

theorem map_reading_grouped (connective : Connective) (members : List Statement) :
    (grouped connective members).map Statement.reading =
      Outline.grouped connective (members.map Statement.reading) := by
  cases members with
  | nil => rfl
  | cons s rest =>
    rw [grouped_of_ne_nil _ (by simp), List.map_singleton, Statement.reading,
      Statement.readings_eq_map]
    rfl

theorem reading_equals (negated : Bool) (v : Scalar) :
    (equals options negated attr v).reading =
      Outline.equality (literal options) negated attr v := by
  cases negated <;> rfl

theorem reading_membership (negated : Bool) {values : List Scalar} (hne : values ≠ []) :
    [(Statement.group (if negated then .and else .or)
        (values.map (equals options negated attr))).reading] =
      Outline.choice (literal options) negated attr values := by
  have h := map_reading_grouped (if negated then .and else .or)
    (values.map (equals options negated attr))
  rw [grouped_of_ne_nil _ (by simpa using hne), List.map_singleton] at h
  simp only [h, List.map_map, Function.comp_def, reading_equals, Outline.choice]

theorem Lists.eq_values {operand : Operand} {values : List Scalar} (h : Lists operand values) :
    operand.values = values := by
  cases h <;> rfl

theorem comparison_range {text : Scalar → String} {relation : Relation}
    (h : relation.isRange = true) (n : Number) :
    Outline.comparison text attr relation (.number n) = [Outline.range attr relation n] := by
  cases relation <;> first | rfl | cases h

theorem Compares.reading {relation : Relation} {operand : Operand} {s : Statement}
    (h : Compares options attr relation operand s) :
    [s.reading] = Outline.comparison (literal options) attr relation operand := by
  cases h with
  | equal v => rw [reading_equals]; rfl
  | notEqual v => rw [reading_equals]; rfl
  | oneOf hl hne => rw [Outline.comparison, hl.eq_values, ← reading_membership false hne]; rfl
  | noneOf hl hne => rw [Outline.comparison, hl.eq_values, ← reading_membership true hne]; rfl
  | lower hr hl hb =>
    rw [comparison_range hr, Outline.range, ← eq_boundText_of_bound? hb, if_pos hl]; rfl
  | upper hr hl hb =>
    rw [comparison_range hr, Outline.range, ← eq_boundText_of_bound? hb, if_neg (by simp [hl])]; rfl

mutual

theorem readings_condition : (c : Condition) → {sts : List Statement} →
    conditionStatements options attr c = .ok sts →
    sts.map Statement.reading = Outline.condition (literal options) attr c
  | .scalar v, _, h => by
    cases h
    rw [List.map_singleton, reading_equals, Outline.condition]
  | .oneOf vs, _, h => by
    obtain ⟨hne, rfl⟩ := conditionStatements_oneOf h
    rw [List.map_singleton, Outline.condition, ← reading_membership false hne]; rfl
  | .comparisons items, _, h => readings_comparisons items h

theorem readings_comparisons : (items : List Comparison) → {sts : List Statement} →
    comparisonStatements options attr items = .ok sts →
    sts.map Statement.reading = Outline.comparisons (literal options) attr items
  | [], _, h => by cases h; rfl
  | .compare relation operand :: rest, _, h => by
    obtain ⟨first, others, hf, ho, rfl⟩ := comparisonStatements_compare h
    rw [Outline.comparisons, ← hf.reading, ← readings_comparisons rest ho]; rfl
  | .group connective inner :: rest, _, h => by
    obtain ⟨members, others, hm, ho, rfl⟩ := comparisonStatements_group h
    rw [Outline.comparisons, ← readings_condition inner hm, ← readings_comparisons rest ho,
      List.map_append, map_reading_grouped]

end

mutual

/-- The statements of a filter are read as its outline. -/
theorem readings_statements : (f : Filter) → {sts : List Statement} →
    statements options f = .ok sts →
    sts.map Statement.reading = f.outline (literal options) options.schema
  | .clauses items, _, h => readings_clauses items h
  | .sequence items, _, h => readings_sequence items h

theorem readings_sequence : (items : List Filter) → {sts : List Statement} →
    sequenceStatements options items = .ok sts →
    sts.map Statement.reading = sequenceOutline (literal options) options.schema items
  | [], _, h => by cases h; rfl
  | item :: rest, _, h => by
    obtain ⟨first, others, hf, ho, rfl⟩ := sequenceStatements_cons h
    rw [sequenceOutline, ← readings_statements item hf, ← readings_sequence rest ho,
      List.map_append]

theorem readings_clauses : (items : List Clause) → {sts : List Statement} →
    clauseStatements options items = .ok sts →
    sts.map Statement.reading = clausesOutline (literal options) options.schema items
  | [], _, h => by cases h; rfl
  | .group connective operand :: rest, _, h => by
    obtain ⟨members, others, hm, ho, rfl⟩ := clauseStatements_group h
    rw [clausesOutline, ← readings_statements operand hm, ← readings_clauses rest ho,
      List.map_append, map_reading_grouped]
  | .field name condition :: rest, _, h => by
    obtain ⟨first, others, hf, ho, rfl⟩ := clauseStatements_field h
    rw [clausesOutline, ← readings_condition condition hf, ← readings_clauses rest ho,
      List.map_append]

end

end

/-- The string of a filter with plain names is read as the outline of the filter; a filter that says
nothing has no string. -/
theorem ofText?_compile {schema : Schema} {connective : Connective} {filter : Filter}
    {r : Option String} (hn : ∀ name ∈ filter.fieldNames, isPlainName name = true)
    (h : compile ⟨schema, true⟩ connective filter = .ok r) :
    (r = none ∧ filter.outline (literal ⟨schema, true⟩) schema = []) ∨
      ∃ s, r = some s ∧ filter.outline (literal ⟨schema, true⟩) schema ≠ [] ∧ Reading.ofText? s =
        some (.joined connective (filter.outline (literal ⟨schema, true⟩) schema)) := by
  obtain ⟨sts, hs, hj⟩ := compile_ok h
  have hr := readings_statements filter hs
  have hl := legible_statements filter hn hs
  cases sts with
  | nil => exact .inl ⟨hj.symm, hr.symm⟩
  | cons st rest =>
    refine .inr ⟨_, hj.symm, ?_, ?_⟩
    · rw [← hr]; simp
    · rw [← hr]; exact Reading.ofText?_joined? rfl hl

/-! ## Quoting undone -/

section

variable {schema : Schema} {attr : String}

theorem allUnescaped_eq_map (rs : List Reading) :
    Reading.allUnescaped rs = rs.map Reading.unescaped := by
  induction rs with
  | nil => rfl
  | cons r rs ih => simp only [Reading.allUnescaped, List.map_cons, ih]

theorem unescaped_joined (connective : Connective) (rs : List Reading) :
    (Reading.joined connective rs).unescaped =
      .joined connective (rs.map Reading.unescaped) := by
  simp only [Reading.joined, Reading.unescaped, allUnescaped_eq_map, List.length_map]

theorem map_unescaped_grouped (connective : Connective) (parts : List Reading) :
    (Outline.grouped connective parts).map Reading.unescaped =
      Outline.grouped connective (parts.map Reading.unescaped) := by
  cases parts with
  | nil => rfl
  | cons r rest => simp only [Outline.grouped, List.map_cons, List.map_nil, unescaped_joined]

theorem unescape_literal (v : Scalar) :
    String.ofList (unescape (literal ⟨schema, true⟩ v).toList) = v.plainText := by
  cases v with
  | null => exact (by decide : String.ofList (unescape "null".toList) = "null")
  | bool b =>
    cases b with
    | false => exact (by decide : String.ofList (unescape "false".toList) = "false")
    | true => exact (by decide : String.ofList (unescape "true".toList) = "true")
  | number n =>
    show String.ofList (unescape (numberText n).toList) = numberText n
    rw [(numeric_numberText n).unescape, String.ofList_toList]
  | string s =>
    show String.ofList (unescape (escape s).toList) = s
    rw [unescape_escape, String.ofList_toList]

theorem unescaped_equality (negated : Bool) (v : Scalar) :
    (Outline.equality (literal ⟨schema, true⟩) negated attr v).unescaped =
      Outline.equality Scalar.plainText negated attr v := by
  cases negated <;>
    simp only [Outline.equality, Bool.false_eq_true, ↓reduceIte, Reading.unescaped, Test.unescaped,
      unescape_literal]

theorem map_unescaped_choice (negated : Bool) (values : List Scalar) :
    (Outline.choice (literal ⟨schema, true⟩) negated attr values).map Reading.unescaped =
      Outline.choice Scalar.plainText negated attr values := by
  simp only [Outline.choice, map_unescaped_grouped, List.map_map, Function.comp_def,
    unescaped_equality]

theorem unescaped_range (relation : Relation) (n : Number) :
    (Outline.range attr relation n).unescaped = Outline.range attr relation n := by
  unfold Outline.range
  cases isLower relation <;> rfl

theorem map_unescaped_comparison (relation : Relation) (operand : Operand) :
    (Outline.comparison (literal ⟨schema, true⟩) attr relation operand).map Reading.unescaped =
      Outline.comparison Scalar.plainText attr relation operand := by
  cases relation <;> cases operand <;>
    simp only [Outline.comparison, List.map_cons, List.map_nil, unescaped_equality,
      map_unescaped_choice, unescaped_range]

mutual

theorem map_unescaped_condition : (c : Condition) →
    (Outline.condition (literal ⟨schema, true⟩) attr c).map Reading.unescaped =
      Outline.condition Scalar.plainText attr c
  | .scalar v => by simp only [Outline.condition, List.map_singleton, unescaped_equality]
  | .oneOf vs => by simp only [Outline.condition, map_unescaped_choice]
  | .comparisons items => map_unescaped_comparisons items

theorem map_unescaped_comparisons : (items : List Comparison) →
    (Outline.comparisons (literal ⟨schema, true⟩) attr items).map Reading.unescaped =
      Outline.comparisons Scalar.plainText attr items
  | [] => rfl
  | .compare relation operand :: rest => by
    simp only [Outline.comparisons, List.map_append, map_unescaped_comparison,
      map_unescaped_comparisons rest]
  | .group connective inner :: rest => by
    simp only [Outline.comparisons, List.map_append, map_unescaped_grouped,
      map_unescaped_condition inner, map_unescaped_comparisons rest]

end

mutual

/-- Undoing the quoting of the literals gives the values as they were. -/
theorem map_unescaped_outline : (f : Filter) →
    (f.outline (literal ⟨schema, true⟩) schema).map Reading.unescaped =
      f.outline Scalar.plainText schema
  | .clauses items => map_unescaped_clauses items
  | .sequence items => map_unescaped_sequence items

theorem map_unescaped_sequence : (items : List Filter) →
    (sequenceOutline (literal ⟨schema, true⟩) schema items).map Reading.unescaped =
      sequenceOutline Scalar.plainText schema items
  | [] => rfl
  | item :: rest => by
    simp only [sequenceOutline, List.map_append, map_unescaped_outline item,
      map_unescaped_sequence rest]

theorem map_unescaped_clauses : (items : List Clause) →
    (clausesOutline (literal ⟨schema, true⟩) schema items).map Reading.unescaped =
      clausesOutline Scalar.plainText schema items
  | [] => rfl
  | .group connective operand :: rest => by
    simp only [clausesOutline, List.map_append, map_unescaped_grouped,
      map_unescaped_outline operand, map_unescaped_clauses rest]
  | .field name condition :: rest => by
    simp only [clausesOutline, List.map_append, map_unescaped_condition condition,
      map_unescaped_clauses rest]

end

end

/-- The string of a filter with plain names, read and freed of quoting, is the filter's outline. -/
theorem read_of_compile {schema : Schema} {connective : Connective} {filter : Filter} {s : String}
    (hn : ∀ name ∈ filter.fieldNames, isPlainName name = true)
    (h : compile ⟨schema, true⟩ connective filter = .ok (some s)) :
    (Reading.ofText? s).map Reading.unescaped =
      some (.joined connective (filter.outline Scalar.plainText schema)) := by
  rcases ofText?_compile hn h with ⟨hs, _⟩ | ⟨t, hs, _, hread⟩
  · cases hs
  · cases hs
    rw [hread, Option.map_some, unescaped_joined, map_unescaped_outline]

/-- A group is told by its parts and, if it has two, by the keyword between them. -/
theorem joined_inj {connective connective' : Connective} {parts parts' : List Reading}
    (h : Reading.joined connective parts = .joined connective' parts') :
    parts = parts' ∧ (2 ≤ parts.length → connective = connective') := by
  simp only [Reading.joined, Reading.group.injEq] at h
  obtain ⟨hk, rfl⟩ := h
  refine ⟨rfl, fun hlen => ?_⟩
  rcases List.replicate_inj.mp hk with ⟨_, h0 | hc⟩
  · omega
  · exact hc

/-- A filter string tells the outline of its filter: it is read as the outline once the quoting of
the literals is undone, and a filter with the same string has the same outline. -/
theorem outline_of_text {schema : Schema} {connective : Connective} {filter : Filter} {s : String}
    (hn : ∀ name ∈ filter.fieldNames, isPlainName name = true)
    (h : compile ⟨schema, true⟩ connective filter = .ok (some s)) :
    (Reading.ofText? s).map Reading.unescaped =
        some (.joined connective (filter.outline Scalar.plainText schema)) ∧
      ∀ (schema' : Schema) (connective' : Connective) (filter' : Filter),
        (∀ name ∈ filter'.fieldNames, isPlainName name = true) →
        compile ⟨schema', true⟩ connective' filter' = .ok (some s) →
        filter.outline Scalar.plainText schema = filter'.outline Scalar.plainText schema' ∧
          (2 ≤ (filter.outline Scalar.plainText schema).length → connective = connective') := by
  refine ⟨read_of_compile hn h, fun schema' connective' filter' hn' h' => ?_⟩
  have hread := read_of_compile hn h
  rw [read_of_compile hn' h', Option.some.injEq] at hread
  exact joined_inj hread.symm

/-- A value that closes its parenthesis and ends in a backslash, beside nested groups. -/
def hostileFilter : Filter :=
  .clauses [
    .field "title" (.scalar (.string ") OR x:(\\")),
    .group .not (.sequence [
      .clauses [.field "n" (.comparisons [
        .compare .notEqual (.scalar (.number (.integer (-3)))),
        .compare .greaterOrEqual (.number (.integer 2))])],
      .clauses [],
      .clauses [.field "id" (.comparisons [
        .group .or (.comparisons [.compare .noneOf (.list [.string "a&&b", .null])])])]])]

theorem outline_of_text_hostile :
    ∃ s, (∀ name ∈ hostileFilter.fieldNames, isPlainName name = true) ∧
      compile ⟨.content, true⟩ .or hostileFilter = .ok (some s) ∧
      (Reading.ofText? s).map Reading.unescaped =
        some (.joined .or (hostileFilter.outline Scalar.plainText .content)) := by
  have hn : ∀ name ∈ hostileFilter.fieldNames, isPlainName name = true := by decide
  have hs : (compile ⟨.content, true⟩ .or hostileFilter).toOption =
      some (some ("__metadata_title:(\\) OR x\\:\\(\\\\) OR (NOT __metadata_n:(-3) NOT " ++
        "__metadata_n:[2 TO *] NOT ((NOT id:(a\\&&b) AND NOT id:(null))))")) := by
    decide +kernel
  have h := eq_ok_of_toOption hs
  exact ⟨_, hn, h, (outline_of_text hn h).1⟩

end Filter

end DocStore
