import DocStore.Proofs.Filter.WellFormed

/-!
# Filters that say nothing

`isEmpty` tells without compiling whether a filter says anything: it holds if all leaves are empty
lists. Those do not compile, so for filters that do it says that there is no leaf, which is when
there is no statement either and no filter string (`isEmpty_predicts_compile`).
-/

namespace DocStore

/-! ## Leaves of empty filters -/

mutual

theorem Condition.isEmpty_iff : (c : Condition) →
    (c.isEmpty = true ↔ ∀ l ∈ c.leaves, l = .oneOf [])
  | .scalar v => by simp [Condition.isEmpty, Condition.leaves]
  | .oneOf values => by simp [Condition.isEmpty, Condition.leaves]
  | .comparisons items => Comparison.allEmpty_iff items

theorem Comparison.allEmpty_iff : (items : List Comparison) →
    (Comparison.allEmpty items = true ↔ ∀ l ∈ Comparison.leavesOf items, l = .oneOf [])
  | [] => by simp [Comparison.allEmpty, Comparison.leavesOf]
  | .compare relation operand :: rest => by simp [Comparison.allEmpty, Comparison.leavesOf]
  | .group _ condition :: rest => by
    rw [Comparison.allEmpty, Comparison.leavesOf, Bool.and_eq_true, List.forall_mem_append,
      condition.isEmpty_iff, Comparison.allEmpty_iff rest]

end

mutual

/-- A filter is empty if it has no leaves but empty lists. -/
theorem Filter.isEmpty_iff : (f : Filter) →
    (f.isEmpty = true ↔ ∀ leaf ∈ f.leaves, leaf.2 = .oneOf [])
  | .clauses items => Clause.allEmpty_iff items
  | .sequence items => Filter.allEmpty_iff items

theorem Filter.allEmpty_iff : (items : List Filter) →
    (Filter.allEmpty items = true ↔ ∀ leaf ∈ Filter.leavesOf items, leaf.2 = .oneOf [])
  | [] => by simp [Filter.allEmpty, Filter.leavesOf]
  | item :: rest => by
    rw [Filter.allEmpty, Filter.leavesOf, Bool.and_eq_true, List.forall_mem_append,
      item.isEmpty_iff, Filter.allEmpty_iff rest]

theorem Clause.allEmpty_iff : (items : List Clause) →
    (Clause.allEmpty items = true ↔ ∀ leaf ∈ Clause.leavesOf items, leaf.2 = .oneOf [])
  | [] => by simp [Clause.allEmpty, Clause.leavesOf]
  | .group _ operand :: rest => by
    rw [Clause.allEmpty, Clause.leavesOf, Bool.and_eq_true, List.forall_mem_append,
      operand.isEmpty_iff, Clause.allEmpty_iff rest]
  | .field name condition :: rest => by
    rw [Clause.allEmpty, Clause.leavesOf, Bool.and_eq_true, List.forall_mem_append,
      List.forall_mem_map, condition.isEmpty_iff, Clause.allEmpty_iff rest]

end

namespace Filter

/-! ## Statements of leaves -/

section

variable {options : Options} {attr : String}

theorem grouped_eq_nil_iff {connective : Connective} {members : List Statement} :
    grouped connective members = [] ↔ members = [] := by
  simp [grouped]

mutual

theorem conditionStatements_eq_nil_iff : (c : Condition) → {sts : List Statement} →
    conditionStatements options attr c = .ok sts → (sts = [] ↔ c.leaves = [])
  | .scalar v, _, h => by
    cases h
    simp [Condition.leaves]
  | .oneOf values, _, h => by
    obtain ⟨_, rfl⟩ := conditionStatements_oneOf h
    simp [Condition.leaves]
  | .comparisons items, _, h => comparisonStatements_eq_nil_iff items h

theorem comparisonStatements_eq_nil_iff : (items : List Comparison) → {sts : List Statement} →
    comparisonStatements options attr items = .ok sts →
    (sts = [] ↔ Comparison.leavesOf items = [])
  | [], _, h => by
    cases h
    simp [Comparison.leavesOf]
  | .compare relation operand :: rest, _, h => by
    obtain ⟨first, others, _, _, rfl⟩ := comparisonStatements_compare h
    simp [Comparison.leavesOf]
  | .group connective condition :: rest, _, h => by
    obtain ⟨members, others, hm, ho, rfl⟩ := comparisonStatements_group h
    rw [Comparison.leavesOf, List.append_eq_nil_iff, List.append_eq_nil_iff, grouped_eq_nil_iff,
      conditionStatements_eq_nil_iff condition hm, comparisonStatements_eq_nil_iff rest ho]

end

mutual

/-- A filter that compiles has no statement exactly if it has no leaf. -/
theorem statements_eq_nil_iff : (f : Filter) → {sts : List Statement} →
    statements options f = .ok sts → (sts = [] ↔ f.leaves = [])
  | .clauses items, _, h => clauseStatements_eq_nil_iff items h
  | .sequence items, _, h => sequenceStatements_eq_nil_iff items h

theorem sequenceStatements_eq_nil_iff : (items : List Filter) → {sts : List Statement} →
    sequenceStatements options items = .ok sts → (sts = [] ↔ leavesOf items = [])
  | [], _, h => by
    cases h
    simp [leavesOf]
  | item :: rest, _, h => by
    obtain ⟨first, others, hf, ho, rfl⟩ := sequenceStatements_cons h
    rw [leavesOf, List.append_eq_nil_iff, List.append_eq_nil_iff,
      statements_eq_nil_iff item hf, sequenceStatements_eq_nil_iff rest ho]

theorem clauseStatements_eq_nil_iff : (items : List Clause) → {sts : List Statement} →
    clauseStatements options items = .ok sts → (sts = [] ↔ Clause.leavesOf items = [])
  | [], _, h => by
    cases h
    simp [Clause.leavesOf]
  | .group connective operand :: rest, _, h => by
    obtain ⟨members, others, hm, ho, rfl⟩ := clauseStatements_group h
    rw [Clause.leavesOf, List.append_eq_nil_iff, List.append_eq_nil_iff, grouped_eq_nil_iff,
      statements_eq_nil_iff operand hm, clauseStatements_eq_nil_iff rest ho]
  | .field name condition :: rest, _, h => by
    obtain ⟨first, others, hf, ho, rfl⟩ := clauseStatements_field h
    rw [Clause.leavesOf, List.append_eq_nil_iff, List.append_eq_nil_iff, List.map_eq_nil_iff,
      conditionStatements_eq_nil_iff condition hf, clauseStatements_eq_nil_iff rest ho]

end

end

/-! ## Filter strings -/

namespace Statement

theorem write_ne_nil (s : Statement) : s.write ≠ [] := by
  cases s <;> simp [write]

theorem writeJoined_ne_nil (connective : Connective) {sts : List Statement} (h : sts ≠ []) :
    writeJoined connective sts ≠ [] := by
  match sts with
  | [] => exact absurd rfl h
  | [s] => exact s.write_ne_nil
  | s :: t :: rest => simp [writeJoined, s.write_ne_nil]

theorem joined?_eq_none_iff {connective : Connective} {sts : List Statement} :
    joined? connective sts = none ↔ sts = [] := by
  simp [joined?]

theorem joined?_ne_empty (connective : Connective) (sts : List Statement) :
    joined? connective sts ≠ some "" := by
  rw [joined?]
  split
  · exact nofun
  · rename_i h
    intro htext
    refine writeJoined_ne_nil connective (by simpa using h) ?_
    rw [← String.toList_ofList (l := writeJoined connective sts), Option.some.inj htext]
    rfl

end Statement

section

variable {options : Options} {connective : Connective} {f : Filter}

theorem emptyList_not_mem_of_ok {r : Option String} (h : compile options connective f = .ok r)
    (name : String) : (name, Leaf.oneOf []) ∉ f.leaves := by
  intro hmem
  have hnone : f.leaves.findSome? (leafError? options.schema) = none := by
    rw [← errorOf?_compile options connective, h]
    rfl
  exact nomatch List.findSome?_eq_none_iff.mp hnone _ hmem

/-- Where there are no empty lists, the empty filters are those without leaves. -/
theorem isEmpty_iff_leaves (h : ∀ name, (name, Leaf.oneOf []) ∉ f.leaves) :
    f.isEmpty = true ↔ f.leaves = [] := by
  rw [isEmpty_iff, List.eq_nil_iff_forall_not_mem]
  constructor
  · rintro hall ⟨name, leaf⟩ hmem
    have hleaf : leaf = .oneOf [] := hall _ hmem
    exact h name (hleaf ▸ hmem)
  · exact fun hnone leaf hmem => absurd hmem (hnone leaf)

theorem eq_none_iff_isEmpty {r : Option String} (h : compile options connective f = .ok r) :
    r = none ↔ f.isEmpty = true := by
  obtain ⟨sts, hsts, rfl⟩ := compile_ok h
  rw [Statement.joined?_eq_none_iff, statements_eq_nil_iff f hsts,
    isEmpty_iff_leaves (emptyList_not_mem_of_ok h)]

/-- An empty filter that does not compile has an empty list. -/
theorem exists_emptyList_of_error {e : FilterError} (h : compile options connective f = .error e)
    (hempty : f.isEmpty = true) : ∃ name, (name, Leaf.oneOf []) ∈ f.leaves := by
  have hsome : f.leaves.findSome? (leafError? options.schema) = some e := by
    rw [← errorOf?_compile options connective, h]
    rfl
  obtain ⟨⟨name, leaf⟩, hmem, -⟩ := List.exists_of_findSome?_eq_some hsome
  have hleaf : leaf = .oneOf [] := f.isEmpty_iff.mp hempty _ hmem
  exact ⟨name, hleaf ▸ hmem⟩

end

/-- What a filter that was read compiles to is told by whether it is empty. -/
theorem compile_eq_none_iff_of_read {v : Json} (hv : ∀ n ∈ v.numbers, n.inRange = true) {f : Filter}
    (h : (ofJson v).result = .ok f) (options : Options) (connective : Connective) :
    compile options connective f = .ok none ↔ f.isEmpty = true := by
  have hlist : ∀ name, (name, Leaf.oneOf []) ∉ f.leaves := fun name hmem =>
    (wellFormed_of_ofJson hv h).leaves _ hmem rfl
  refine ⟨fun hnone => (eq_none_iff_isEmpty hnone).mp rfl, fun hempty => ?_⟩
  cases hc : compile options connective f with
  | ok r => rw [(eq_none_iff_isEmpty hc).mpr hempty]
  | error e =>
    obtain ⟨name, hmem⟩ := exists_emptyList_of_error hc hempty
    exact absurd hmem (hlist name)

/-- `isEmpty` predicts the compiler. A filter that compiles gives no string exactly if it is empty,
and no string that it gives is empty; an empty filter fails to compile only over an empty list. The
filters of requests have none of these. A request has no filter exactly if what is read from it
compiles to no string, whatever the connective and the options. -/
theorem isEmpty_predicts_compile :
    (∀ (f : Filter) (options : Options) (connective : Connective),
      (∀ r, compile options connective f = .ok r → (r = none ↔ f.isEmpty = true) ∧ r ≠ some "") ∧
      ∀ e, compile options connective f = .error e → f.isEmpty = true →
        ∃ name, (name, Leaf.oneOf []) ∈ f.leaves) ∧
    ∀ (v : Json) (root : Option Filter), (∀ n ∈ v.numbers, n.inRange = true) →
      (ofRoot (some v)).result = .ok root → ∃ f, (ofJson v).result = .ok f ∧
        ∀ (options : Options) (connective : Connective),
          root = none ↔ compile options connective f = .ok none := by
  refine ⟨fun f options connective => ⟨fun r h => ⟨eq_none_iff_isEmpty h, ?_⟩, fun e h hempty =>
    exists_emptyList_of_error h hempty⟩, fun v root hv hroot => ?_⟩
  · obtain ⟨sts, -, rfl⟩ := compile_ok h
    exact Statement.joined?_ne_empty connective sts
  · obtain ⟨f, hf, rfl⟩ := ofRoot_eq hroot
    refine ⟨f, hf, fun options connective => ?_⟩
    rw [compile_eq_none_iff_of_read hv hf]
    split <;> simp_all

/-- Connectives and a field without anything to say. -/
def hollowEntries : List (String × Json) :=
  [("$not", .array [.null, .object [("$or", .array [])]]),
   ("genre", .object [("$and", .array [.object [], .object [("$or", .object [])]])])]

theorem isEmpty_predicts_compile_hollow :
    ((∀ n ∈ (Json.object hollowEntries).numbers, n.inRange = true) ∧
      (ofRoot (some (.object hollowEntries))).result = .ok none ∧
      ∃ f, (ofJson (.object hollowEntries)).result = .ok f ∧
        ∀ (options : Options) (connective : Connective),
          compile options connective f = .ok none) ∧
    ∃ name, (name, Leaf.oneOf []) ∈ leaves (.clauses [.field "genre" (.oneOf [])]) := by
  have hv : ∀ n ∈ (Json.object hollowEntries).numbers, n.inRange = true := by decide +kernel
  have hnone : (ofRoot (some (.object hollowEntries))).result.toOption.map Option.isSome =
      some false := by decide +kernel
  obtain ⟨root, hroot, hsome⟩ := Option.map_eq_some_iff.mp hnone
  obtain rfl : root = none := by simpa using hsome
  have hread := eq_ok_of_toOption hroot
  obtain ⟨f, hf, hcompile⟩ := isEmpty_predicts_compile.2 _ _ hv hread
  exact ⟨⟨hv, hread, f, hf, fun options connective => (hcompile options connective).mp rfl⟩,
    (isEmpty_predicts_compile.1 _ {} .and).2 _ rfl rfl⟩

end Filter

end DocStore
