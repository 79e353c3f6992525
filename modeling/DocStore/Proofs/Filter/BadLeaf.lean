import DocStore.Proofs.Filter.Grammar
import DocStore.Proofs.Json.Numbers

/-!
# Bad leaves

`Leaf.Bad` says for which tests there is no filter string. Compiling a filter fails exactly if it
has a bad leaf, and the error is that of the first one from left to right
(`decides_first_bad_leaf`). The connectives of the filter, the one that joins it and the options
have no part in that.
-/

namespace DocStore

theorem Relation.takesList_of_isRange {relation : Relation} (h : relation.isRange = true) :
    relation.takesList = false := by
  cases relation with
  | greater | greaterOrEqual | less | lessOrEqual => rfl
  | _ => cases h

namespace Leaf

/-- The tests without a filter string: lists without a value, operands that do not have the form
that the relation takes, and exclusive bounds beyond which there is no finite double. -/
inductive Bad : Leaf → Prop where
  | emptyList : Bad (.oneOf [])
  | emptyOperand {relation : Relation} (hl : relation.takesList = true) :
    Bad (.compare relation (.list []))
  | numberForList {relation : Relation} (hl : relation.takesList = true) (n : Number) :
    Bad (.compare relation (.number n))
  | noScalar {relation : Relation} {operand : Operand}
    (hr : relation = .equal ∨ relation = .notEqual) (ho : ∀ v, operand ≠ .scalar v) :
    Bad (.compare relation operand)
  | noNumber {relation : Relation} {operand : Operand} (hr : relation.isRange = true)
    (ho : ∀ n, operand ≠ .number n) : Bad (.compare relation operand)
  | unboundedAbove {n : Number} (hn : (Filter.exclusiveLowerBound n).isFinite = false) :
    Bad (.compare .greater (.number n))
  | unboundedBelow {n : Number} (hn : (Filter.exclusiveUpperBound n).isFinite = false) :
    Bad (.compare .less (.number n))

/-- The kind of error that a leaf has if it is bad. -/
def errorKind : Leaf → FilterError.Kind
  | .compare relation _ => if relation.isRange then .rangeOperand else .malformed
  | _ => .malformed

/-- The number that a test compares with, if any, is one that JSON values have. -/
def InRange (l : Leaf) : Prop := ∀ relation n, l = .compare relation (.number n) → n.inRange = true

section

variable {relation : Relation}

theorem bad_number_iff {n : Number} (hn : n.inRange = true) :
    (compare relation (.number n)).Bad ↔
      relation.isRange = false ∨ (relation.limit n).isFinite = false := by
  constructor
  · intro h
    cases h with
    | numberForList hl => exact .inl (Relation.isRange_of_takesList hl)
    | noScalar hr => rcases hr with rfl | rfl <;> exact .inl rfl
    | noNumber _ ho => exact absurd rfl (ho n)
    | unboundedAbove hn => exact .inr hn
    | unboundedBelow hn => exact .inr hn
  · intro h
    have hfinite : n.toBinary64.isFinite ≠ false := by
      rw [Number.isFinite_toBinary64 hn]
      simp
    cases relation with
    | equal => exact .noScalar (.inl rfl) (by simp)
    | notEqual => exact .noScalar (.inr rfl) (by simp)
    | oneOf | noneOf => exact .numberForList rfl n
    | greater => exact .unboundedAbove (h.resolve_left (by decide))
    | less => exact .unboundedBelow (h.resolve_left (by decide))
    | greaterOrEqual | lessOrEqual => exact absurd (h.resolve_left (by decide)) hfinite

theorem bad_list_iff {values : List Scalar} :
    (compare relation (.list values)).Bad ↔ relation.takesList = false ∨ values = [] := by
  constructor
  · intro h
    cases h with
    | emptyOperand => exact .inr rfl
    | noScalar hr => rcases hr with rfl | rfl <;> exact .inl rfl
    | noNumber hr => exact .inl (Relation.takesList_of_isRange hr)
  · intro h
    cases relation with
    | equal => exact .noScalar (.inl rfl) (by simp)
    | notEqual => exact .noScalar (.inr rfl) (by simp)
    | oneOf | noneOf =>
      rw [h.resolve_left (by decide)]
      exact .emptyOperand rfl
    | greater | greaterOrEqual | less | lessOrEqual => exact .noNumber rfl (by simp)

theorem bad_scalar_iff {v : Scalar} :
    (compare relation (.scalar v)).Bad ↔ relation.isRange = true := by
  constructor
  · intro h
    cases h with
    | noScalar _ ho => exact absurd rfl (ho v)
    | noNumber hr => exact hr
  · exact fun hr => .noNumber hr (by simp)

end

/-- Exactly the bad leaves have an error. -/
theorem error?_eq_none_iff {l : Leaf} (hl : l.InRange) (attr : String) :
    l.error? attr = none ↔ ¬ l.Bad := by
  cases l with
  | value v => exact iff_of_true rfl (nofun)
  | oneOf values =>
    have hbad : (oneOf values).Bad ↔ values = [] :=
      ⟨fun h => by cases h; rfl, fun h => h ▸ .emptyList⟩
    rw [hbad, error?]
    split <;> simp_all
  | compare relation operand =>
    cases operand with
    | scalar v =>
      rw [bad_scalar_iff, error?, Operand.error?]
      split <;> simp_all
    | list values =>
      rw [bad_list_iff, error?, Operand.error?]
      split
      · rename_i hr
        simp [Relation.takesList_of_isRange hr]
      · split
        · simp_all
        · split <;> simp_all
    | number n =>
      rw [bad_number_iff (hl relation n rfl), error?, Operand.error?]
      split
      · simp_all
      · split <;> simp_all

theorem kind_of_error? {l : Leaf} {attr : String} {e : FilterError} (h : l.error? attr = some e) :
    e.kind = l.errorKind := by
  cases l with
  | value v => cases h
  | oneOf values =>
    rw [error?, Option.ite_none_right_eq_some] at h
    cases h.2
    rfl
  | compare relation operand =>
    simp only [errorKind]
    cases operand <;> simp only [error?, Operand.error?] at h <;> grind [FilterError.kind]

end Leaf

/-! ## Connectives -/

section

variable (connective : Connective)

mutual

/-- The condition with one connective in the place of all of its own. -/
def Condition.withConnective : Condition → Condition
  | .scalar v => .scalar v
  | .oneOf values => .oneOf values
  | .comparisons items => .comparisons (Comparison.allWithConnective items)

def Comparison.allWithConnective : List Comparison → List Comparison
  | [] => []
  | .compare relation operand :: rest =>
    .compare relation operand :: Comparison.allWithConnective rest
  | .group _ condition :: rest =>
    .group connective condition.withConnective :: Comparison.allWithConnective rest

end

mutual

def Filter.withConnective : Filter → Filter
  | .clauses items => .clauses (Clause.allWithConnective items)
  | .sequence items => .sequence (Filter.allWithConnective items)

def Filter.allWithConnective : List Filter → List Filter
  | [] => []
  | item :: rest => item.withConnective :: Filter.allWithConnective rest

def Clause.allWithConnective : List Clause → List Clause
  | [] => []
  | .group _ operand :: rest =>
    .group connective operand.withConnective :: Clause.allWithConnective rest
  | .field name condition :: rest =>
    .field name (condition.withConnective connective) :: Clause.allWithConnective rest

end

mutual

theorem Condition.leaves_withConnective : (c : Condition) →
    (c.withConnective connective).leaves = c.leaves
  | .scalar _ => rfl
  | .oneOf _ => rfl
  | .comparisons items => Comparison.leavesOf_allWithConnective items

theorem Comparison.leavesOf_allWithConnective : (items : List Comparison) →
    Comparison.leavesOf (Comparison.allWithConnective connective items) = Comparison.leavesOf items
  | [] => rfl
  | .compare relation operand :: rest => by
    rw [Comparison.allWithConnective, Comparison.leavesOf, Comparison.leavesOf,
      Comparison.leavesOf_allWithConnective rest]
  | .group _ condition :: rest => by
    rw [Comparison.allWithConnective, Comparison.leavesOf, Comparison.leavesOf,
      condition.leaves_withConnective, Comparison.leavesOf_allWithConnective rest]

end

mutual

theorem Filter.leaves_withConnective : (f : Filter) →
    (f.withConnective connective).leaves = f.leaves
  | .clauses items => Clause.leavesOf_allWithConnective items
  | .sequence items => Filter.leavesOf_allWithConnective items

theorem Filter.leavesOf_allWithConnective : (items : List Filter) →
    Filter.leavesOf (Filter.allWithConnective connective items) = Filter.leavesOf items
  | [] => rfl
  | item :: rest => by
    rw [Filter.allWithConnective, Filter.leavesOf, Filter.leavesOf, item.leaves_withConnective,
      Filter.leavesOf_allWithConnective rest]

theorem Clause.leavesOf_allWithConnective : (items : List Clause) →
    Clause.leavesOf (Clause.allWithConnective connective items) = Clause.leavesOf items
  | [] => rfl
  | .group _ operand :: rest => by
    rw [Clause.allWithConnective, Clause.leavesOf, Clause.leavesOf, operand.leaves_withConnective,
      Clause.leavesOf_allWithConnective rest]
  | .field name condition :: rest => by
    rw [Clause.allWithConnective, Clause.leavesOf, Clause.leavesOf,
      condition.leaves_withConnective, Clause.leavesOf_allWithConnective rest]

end

end

/-- The filters differ in nothing but connectives. -/
def Filter.SameButConnectives (f g : Filter) : Prop :=
  f.withConnective .and = g.withConnective .and

theorem Filter.SameButConnectives.leaves_eq {f g : Filter} (h : f.SameButConnectives g) :
    f.leaves = g.leaves := by
  rw [← f.leaves_withConnective .and, h, g.leaves_withConnective]

/-! ## Compiling -/

/-- A result whose error is that of the first item with one is decided by the items. -/
theorem Decides.of_findSome? {α β : Type} {x : Except FilterError β} {items : List α}
    {error? : α → Option FilterError} {accepted : α → Prop} {fault : α → FilterError → Prop}
    (hx : errorOf? x = items.findSome? error?)
    (haccepted : ∀ a ∈ items, error? a = none ↔ accepted a)
    (hfault : ∀ a ∈ items, ∀ e, error? a = some e ↔ fault a e) :
    Decides x (∀ a ∈ items, accepted a) (FirstFault accepted fault items) := by
  refine ⟨?_, fun e => ?_⟩
  · rw [← errorOf?_eq_none, hx, List.findSome?_eq_none_iff]
    exact forall₂_congr haccepted
  · rw [← errorOf?_eq_some, hx, List.findSome?_eq_some_iff]
    constructor
    · rintro ⟨pre, a, post, rfl, ha, hpre⟩
      exact ⟨pre, a, post, rfl,
        fun b hb => (haccepted b (List.mem_append_left _ hb)).mp (hpre b hb),
        (hfault a (by simp) e).mp ha⟩
    · rintro ⟨pre, a, post, rfl, hpre, ha⟩
      exact ⟨pre, a, post, rfl, (hfault a (by simp) e).mpr ha,
        fun b hb => (haccepted b (List.mem_append_left _ hb)).mpr (hpre b hb)⟩

namespace Filter

/-- What a bad leaf is rejected with: the error says what is wrong with the leaf, and its kind is
that of the leaf. -/
def LeafFault (schema : Schema) (leaf : String × Leaf) (e : FilterError) : Prop :=
  leaf.2.Bad ∧ leafError? schema leaf = some e ∧ e.kind = leaf.2.errorKind

/-- Compiling fails exactly if there is a bad leaf, and with the error of the first one. Which one
that is does not change with the connectives in the filter, the one that joins its clauses, or the
options. -/
theorem decides_first_bad_leaf {f g : Filter} (hf : ∀ leaf ∈ f.leaves, leaf.2.InRange)
    (hg : g.SameButConnectives f) (options : Options) (connective : Connective) :
    Decides (compile options connective g) (∀ leaf ∈ f.leaves, ¬ leaf.2.Bad)
      (FirstFault (fun leaf => ¬ leaf.2.Bad) (LeafFault options.schema) f.leaves) := by
  have hnone : ∀ leaf ∈ f.leaves, leafError? options.schema leaf = none ↔ ¬ leaf.2.Bad :=
    fun leaf hleaf => Leaf.error?_eq_none_iff (hf leaf hleaf) _
  refine .of_findSome? (hg.leaves_eq ▸ errorOf?_compile options connective g) hnone ?_
  intro leaf hleaf e
  constructor
  · intro he
    have hbad : leaf.2.Bad := Classical.not_not.mp fun h => by
      rw [(hnone leaf hleaf).mpr h] at he
      cases he
    exact ⟨hbad, he, Leaf.kind_of_error? he⟩
  · exact fun h => h.2.1

/-- A filter with three bad leaves below one connective. -/
def spoiled (connective : Connective) : Filter :=
  .clauses [.group connective (.sequence [.clauses [],
    .clauses [.field "year" (.comparisons [.compare .greaterOrEqual (.number (.integer 1999)),
      .group connective (.scalar .null)]),
    .field "genre" (.comparisons [.group connective (.comparisons [.compare .noneOf (.list [])])]),
    .field "score" (.comparisons [.compare .less (.scalar (.string "x"))])]]),
    .field "genre" (.oneOf [])]

theorem decides_first_bad_leaf_spoiled :
    (∀ leaf ∈ (spoiled .or).leaves, leaf.2.InRange) ∧
      (spoiled .not).SameButConnectives (spoiled .or) ∧
      ∀ (options : Options) (connective : Connective),
        compile options connective (spoiled .not) = .error (.emptyList "__metadata_genre") := by
  have hleaves : (spoiled .or).leaves =
      [("year", .compare .greaterOrEqual (.number (.integer 1999))), ("year", .value .null)] ++
        ("genre", .compare .noneOf (.list [])) ::
          [("score", .compare .less (.scalar (.string "x"))), ("genre", .oneOf [])] := rfl
  have hrange : ∀ leaf ∈ (spoiled .or).leaves, leaf.2.InRange := by
    rw [hleaves]
    intro leaf hleaf relation n hn
    simp only [List.cons_append, List.nil_append, List.mem_cons, List.not_mem_nil,
      or_false] at hleaf
    rcases hleaf with rfl | rfl | rfl | rfl | rfl <;> cases hn
    decide
  have hsame : (spoiled .not).SameButConnectives (spoiled .or) := rfl
  refine ⟨hrange, hsame, fun options connective => ?_⟩
  refine ((decides_first_bad_leaf hrange hsame options connective).rejects _).mpr
    ⟨_, _, _, hleaves, ?_, .emptyOperand rfl, ?_, rfl⟩
  · intro leaf hleaf
    have hmem : leaf ∈ (spoiled .or).leaves := hleaves ▸ List.mem_append_left _ hleaf
    refine (Leaf.error?_eq_none_iff (hrange leaf hmem) "").mp ?_
    clear hmem
    revert leaf
    decide +kernel
  · cases options.schema <;> rfl

end Filter

end DocStore
