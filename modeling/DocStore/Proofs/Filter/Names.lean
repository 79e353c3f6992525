import DocStore.Proofs.Filter.Lexeme
import DocStore.Proofs.Filter.Statements

/-!
# Names of fields

A plain name holds neither white space nor a reserved character. A filter whose names are plain
says nothing but legible statements when its literals are escaped (`legible_statements`).
-/

namespace DocStore

def isPlainChar (c : Char) : Bool := !Text.isWhiteSpace c && !Filter.isReservedChar c

/-- The name holds neither white space nor a reserved character. -/
def isPlainName (name : String) : Bool := name.toList.all isPlainChar

namespace Filter

mutual

/-- The names of fields in a filter. -/
def fieldNames : Filter → List String
  | .clauses items => clauseNames items
  | .sequence items => sequenceNames items

def sequenceNames : List Filter → List String
  | [] => []
  | item :: rest => fieldNames item ++ sequenceNames rest

def clauseNames : List Clause → List String
  | [] => []
  | .group _ operand :: rest => fieldNames operand ++ clauseNames rest
  | .field name _ :: rest => name :: clauseNames rest

end

/-! ## Attributes -/

theorem isPlainChar_ne {c : Char} (h : isPlainChar c = true) :
    c ≠ '(' ∧ c ≠ ')' ∧ c ≠ ':' ∧ c ≠ ' ' := by
  refine ⟨?_, ?_, ?_, ?_⟩ <;> rintro rfl <;> exact absurd h (by decide)

theorem isAttribute_of_plain {attr : String} (h : isPlainName attr = true)
    (hne : attr.toList ≠ []) : Statement.IsAttribute attr := by
  rw [isPlainName, List.all_eq_true] at h
  cases hs : attr.toList with
  | nil => exact absurd hs hne
  | cons c rest =>
    rw [hs] at h
    have hc := isPlainChar_ne (h c (by simp))
    refine ⟨c, rest, hs, hc.1, hc.2.1, fun d hd => ?_⟩
    have := isPlainChar_ne (h d hd)
    exact ⟨this.2.2.1, this.2.2.2⟩

theorem isPlainName_marker : isPlainName Metadata.marker = true := by decide

theorem ne_nil_of_isReserved {schema : Schema} {name : String}
    (h : schema.isReserved name = true) : name.toList ≠ [] := by
  have hall : ∀ n ∈ schema.reservedFields, n.toList ≠ [] := by cases schema <;> decide
  exact hall name (List.contains_iff_mem.mp h)

theorem isAttribute_attributeOf {name : String} (h : isPlainName name = true) (schema : Schema) :
    Statement.IsAttribute (schema.attributeOf name) := by
  unfold Schema.attributeOf
  split
  · rename_i hr
    exact isAttribute_of_plain h (ne_nil_of_isReserved hr)
  · have hm := isPlainName_marker
    unfold isPlainName at h hm
    refine isAttribute_of_plain ?_ ?_
    · simp only [isPlainName, Metadata.attributeOf, String.toList_append, List.all_append, h, hm,
        Bool.and_self]
    · simp [Metadata.attributeOf, Metadata.marker]

/-! ## Legible statements -/

open Statement

theorem allLegible_iff {sts : List Statement} : AllLegible sts ↔ ∀ s ∈ sts, s.Legible := by
  induction sts with
  | nil => simp [AllLegible]
  | cons s sts ih => simp only [AllLegible, List.forall_mem_cons, ih]

theorem Statement.AllLegible.append {a b : List Statement} (ha : AllLegible a) (hb : AllLegible b) :
    AllLegible (a ++ b) := by
  rw [allLegible_iff] at *
  intro s hs
  rcases List.mem_append.mp hs with h | h
  · exact ha s h
  · exact hb s h

theorem Statement.AllLegible.grouped {members : List Statement} (h : AllLegible members)
    (connective : Connective) : AllLegible (grouped connective members) := by
  by_cases hm : members = []
  · subst hm; exact trivial
  · rw [grouped_of_ne_nil _ hm]; exact ⟨⟨hm, h⟩, trivial⟩

theorem isClosed_literal (schema : Schema) (v : Scalar) :
    isClosed (literal ⟨schema, true⟩ v).toList = true := by
  cases v with
  | null => exact (by decide : isClosed "null".toList = true)
  | bool b =>
    cases b with
    | false => exact (by decide : isClosed "false".toList = true)
    | true => exact (by decide : isClosed "true".toList = true)
  | number n => exact (numeric_numberText n).isClosed
  | string s => exact isClosed_escape s

section

variable {schema : Schema} {attr : String}

theorem legible_equals (ha : IsAttribute attr) (negated : Bool) (v : Scalar) :
    (equals ⟨schema, true⟩ negated attr v).Legible := ⟨ha, isClosed_literal schema v⟩

theorem legible_membership (ha : IsAttribute attr) (negated : Bool) (connective : Connective)
    {values : List Scalar} (hne : values ≠ []) :
    (Statement.group connective (values.map (equals ⟨schema, true⟩ negated attr))).Legible := by
  refine ⟨by simpa using hne, allLegible_iff.mpr fun s hs => ?_⟩
  obtain ⟨v, _, rfl⟩ := List.mem_map.mp hs
  exact legible_equals ha negated v

theorem numeric_of_bound? {relation : Relation} {n : Number} {bound : String}
    (h : bound? relation n = some bound) : Numeric bound.toList := by
  unfold bound? at h
  split at h <;> simp only [Option.ite_none_right_eq_some, Option.some.injEq] at h <;>
    rw [← h.2]
  · exact numeric_doubleText _
  · exact numeric_doubleText _
  · exact numeric_numberText _

theorem Compares.legible (ha : IsAttribute attr) {relation : Relation} {operand : Operand}
    {s : Statement} (h : Compares ⟨schema, true⟩ attr relation operand s) : s.Legible := by
  cases h with
  | equal v => exact legible_equals ha _ v
  | notEqual v => exact legible_equals ha _ v
  | oneOf _ hne => exact legible_membership ha _ _ hne
  | noneOf _ hne => exact legible_membership ha _ _ hne
  | lower _ _ hb => exact ⟨ha, numeric_of_bound? hb⟩
  | upper _ _ hb => exact ⟨ha, numeric_of_bound? hb⟩

mutual

theorem legible_condition (ha : IsAttribute attr) : (c : Condition) → {sts : List Statement} →
    conditionStatements ⟨schema, true⟩ attr c = .ok sts → AllLegible sts
  | .scalar v, _, h => by
    cases h
    exact ⟨legible_equals ha _ v, trivial⟩
  | .oneOf vs, _, h => by
    obtain ⟨hne, rfl⟩ := conditionStatements_oneOf h
    exact ⟨legible_membership ha _ _ hne, trivial⟩
  | .comparisons items, _, h => legible_comparisons ha items h

theorem legible_comparisons (ha : IsAttribute attr) : (items : List Comparison) →
    {sts : List Statement} → comparisonStatements ⟨schema, true⟩ attr items = .ok sts →
    AllLegible sts
  | [], _, h => by cases h; exact trivial
  | .compare relation operand :: rest, _, h => by
    obtain ⟨first, others, hf, ho, rfl⟩ := comparisonStatements_compare h
    exact ⟨hf.legible ha, legible_comparisons ha rest ho⟩
  | .group connective condition :: rest, _, h => by
    obtain ⟨members, others, hm, ho, rfl⟩ := comparisonStatements_group h
    exact ((legible_condition ha condition hm).grouped _).append (legible_comparisons ha rest ho)

end

mutual

/-- What a filter with plain names says is legible. -/
theorem legible_statements : (f : Filter) → (∀ name ∈ f.fieldNames, isPlainName name = true) →
    {sts : List Statement} → statements ⟨schema, true⟩ f = .ok sts → AllLegible sts
  | .clauses items, hn, _, h => legible_clauses items hn h
  | .sequence items, hn, _, h => legible_sequence items hn h

theorem legible_sequence : (items : List Filter) →
    (∀ name ∈ sequenceNames items, isPlainName name = true) → {sts : List Statement} →
    sequenceStatements ⟨schema, true⟩ items = .ok sts → AllLegible sts
  | [], _, _, h => by cases h; exact trivial
  | item :: rest, hn, _, h => by
    obtain ⟨first, others, hf, ho, rfl⟩ := sequenceStatements_cons h
    rw [sequenceNames, List.forall_mem_append] at hn
    exact (legible_statements item hn.1 hf).append (legible_sequence rest hn.2 ho)

theorem legible_clauses : (items : List Clause) →
    (∀ name ∈ clauseNames items, isPlainName name = true) → {sts : List Statement} →
    clauseStatements ⟨schema, true⟩ items = .ok sts → AllLegible sts
  | [], _, _, h => by cases h; exact trivial
  | .group connective operand :: rest, hn, _, h => by
    obtain ⟨members, others, hm, ho, rfl⟩ := clauseStatements_group h
    rw [clauseNames, List.forall_mem_append] at hn
    exact ((legible_statements operand hn.1 hm).grouped _).append (legible_clauses rest hn.2 ho)
  | .field name condition :: rest, hn, _, h => by
    obtain ⟨first, others, hf, ho, rfl⟩ := clauseStatements_field h
    rw [clauseNames, List.forall_mem_cons] at hn
    exact (legible_condition (isAttribute_attributeOf hn.1 schema) condition hf).append
      (legible_clauses rest hn.2 ho)

end

end

end Filter

end DocStore
