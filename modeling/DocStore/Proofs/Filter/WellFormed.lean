import DocStore.Proofs.Filter.Leaf
import DocStore.Proofs.Filter.Names
import DocStore.Proofs.Filter.Parsed
import DocStore.Proofs.Json.Numbers

/-!
# Filters that were read are well formed

A filter is `WellFormed` if each relation in it has an operand of its form, lists have values and no
field is named like an operator. Filters that were read from JSON values are
(`wellFormed_of_ofJson`). What is left to go wrong with them are exclusive bounds beyond which there
is no finite double: `compile_parsed` says that such filters compile but for these.
-/

namespace DocStore

/-- The operand has the form that the relation takes. -/
def Operand.Fits : Relation → Operand → Prop
  | .equal, .scalar _ | .notEqual, .scalar _ => True
  | .oneOf, .list values | .noneOf, .list values => values ≠ []
  | .greater, .number _ | .greaterOrEqual, .number _ => True
  | .less, .number _ | .lessOrEqual, .number _ => True
  | _, _ => False

def Leaf.WellFormed : Leaf → Prop
  | .value _ => True
  | .oneOf values => values ≠ []
  | .compare relation operand => operand.Fits relation

structure Filter.WellFormed (f : Filter) : Prop where
  leaves : ∀ l ∈ f.leaves, l.2.WellFormed
  names : ∀ name ∈ f.fieldNames, isOperatorKey name = false

/-- The relation and the number of a comparison with `$gt` or `$lt` that has no finite bound. -/
def Leaf.unbounded? : Leaf → Option (Relation × Number)
  | .compare .greater (.number n) =>
    if (Filter.exclusiveLowerBound n).isFinite then none else some (.greater, n)
  | .compare .less (.number n) =>
    if (Filter.exclusiveUpperBound n).isFinite then none else some (.less, n)
  | _ => none

/-- The error of a comparison without a finite bound: it names the relation and the number. -/
def unboundedError (e : Relation × Number) : FilterError :=
  .rangeOperand e.1 (String.ofList e.2.write)

/-- A leaf as readers give it: well formed, with a number that a JSON value can have. -/
structure Leaf.Sound (l : Leaf) : Prop where
  wellFormed : l.WellFormed
  inRange : ∀ relation n, l = .compare relation (.number n) → n.inRange = true

namespace Leaf

theorem Sound.value (v : Scalar) : Sound (.value v) :=
  ⟨trivial, fun _ _ h => by cases h⟩

theorem Sound.oneOf {values : List Scalar} (h : values ≠ []) : Sound (.oneOf values) :=
  ⟨h, fun _ _ h => by cases h⟩

theorem Sound.compare {field : String} {relation : Relation} {v : Json} {operand : Operand}
    (h : OperandRead field relation v operand) (hv : ∀ n ∈ v.numbers, n.inRange = true) :
    Sound (.compare relation operand) := by
  cases h with
  | range hr n =>
    refine ⟨?_, fun _ _ h => ?_⟩
    · cases relation <;> trivial
    · cases h
      exact hv n (List.mem_singleton_self n)
  | list hr hne _ =>
    refine ⟨?_, fun _ _ h => by cases h⟩
    rcases hr with rfl | rfl <;> exact hne
  | single hr _ =>
    refine ⟨?_, fun _ _ h => by cases h⟩
    rcases hr with rfl | rfl <;> exact List.cons_ne_nil _ _
  | scalar hr _ =>
    refine ⟨?_, fun _ _ h => by cases h⟩
    rcases hr with rfl | rfl <;> trivial

theorem Sound.error?_eq {l : Leaf} (h : l.Sound) (attr : String) :
    l.error? attr = l.unbounded?.map unboundedError := by
  obtain ⟨hform, hrange⟩ := h
  cases l with
  | value v => rfl
  | oneOf values => rw [Leaf.error?, if_neg hform]; rfl
  | compare relation operand =>
    cases operand with
    | scalar v => cases relation <;> first | rfl | exact absurd hform id
    | list values =>
      cases relation with
      | oneOf | noneOf => exact if_neg hform
      | _ => exact absurd hform id
    | number n =>
      have hfinite : n.toBinary64.isFinite = true :=
        Number.isFinite_toBinary64 (hrange relation n rfl)
      cases relation with
      | greater | less =>
        rw [Leaf.unbounded?, apply_ite (Option.map unboundedError)]
        rfl
      | greaterOrEqual | lessOrEqual => exact if_pos hfinite
      | _ => exact absurd hform id

end Leaf

/-! ## Leaves that were read -/

section

variable {field : String}

theorem forall_leavesOf_cons {p : Leaf → Prop} {c : Comparison} {rest : List Comparison}
    (hc : ∀ l ∈ Comparison.leavesOf [c], p l) (hr : ∀ l ∈ Comparison.leavesOf rest, p l) :
    ∀ l ∈ Comparison.leavesOf (c :: rest), p l := by
  intro l hl
  cases c with
  | compare relation operand =>
    rcases List.mem_cons.mp hl with rfl | hl
    · exact hc _ (List.mem_singleton_self _)
    · exact hr l hl
  | group connective condition =>
    rcases List.mem_append.mp hl with hl | hl
    · exact hc l (List.mem_append_left _ hl)
    · exact hr l hl

mutual

theorem sound_condition (v : Json) (hv : ∀ n ∈ v.numbers, n.inRange = true) {c : Condition}
    (h : (Condition.ofJson field v).result = .ok c) : ∀ l ∈ c.leaves, l.Sound := by
  match v with
  | .object entries =>
    obtain ⟨items, hi, rfl⟩ := condition_object_ok h
    exact sound_comparisons entries hv hi
  | .array items =>
    obtain ⟨values, hvalues, rfl⟩ := condition_array_ok h
    exact List.forall_mem_singleton.mpr (.oneOf (listOfJson_ok hvalues).1)
  | .null | .bool _ | .number _ | .string _ =>
    obtain ⟨s, _, rfl⟩ := condition_scalar_ok (by simp) (by simp) h
    exact List.forall_mem_singleton.mpr (.value s)
termination_by 3 * v.size
decreasing_by simp only [Json.size]; omega

theorem sound_comparisons (entries : List (String × Json))
    (hv : ∀ n ∈ Json.fieldsNumbers entries, n.inRange = true) {items : List Comparison}
    (h : (Comparison.listOfJson field entries).result = .ok items) :
    ∀ l ∈ Comparison.leavesOf items, l.Sound := by
  match entries with
  | [] =>
    rw [Comparison.listOfJson] at h
    cases h
    exact fun _ hl => nomatch hl
  | (key, v) :: rest =>
    obtain ⟨first, others, hf, ho, rfl⟩ := comparisons_cons_ok h
    rw [Json.fieldsNumbers, List.forall_mem_append] at hv
    exact forall_leavesOf_cons (sound_entry v hv.1 (comparison_ok_read hf))
      (sound_comparisons rest hv.2 ho)
termination_by 3 * Json.fieldsSize entries + 2
decreasing_by
  · simp only [Json.fieldsSize]; omega
  · have : 0 < v.size := by cases v <;> simp only [Json.size] <;> omega
    simp only [Json.fieldsSize]; omega

theorem sound_entry {key : String} (v : Json) (hv : ∀ n ∈ v.numbers, n.inRange = true)
    {c : Comparison} (h : ComparisonRead field key v c) :
    ∀ l ∈ Comparison.leavesOf [c], l.Sound := by
  match v, c, h with
  | .array items, .group connective c, .merged fields _ hm hc =>
    have hfields : ∀ n ∈ (Json.object fields).numbers, n.inRange = true := by
      intro n hn
      obtain ⟨e, he, hn⟩ := Json.mem_fieldsNumbers.mp hn
      obtain ⟨entries, hentries, he⟩ := mem_of_merge_ok hm he
      exact hv n (Json.mem_itemsNumbers.mpr ⟨_, hentries, Json.mem_fieldsNumbers.mpr ⟨e, he, hn⟩⟩)
    rw [Comparison.leavesOf, Comparison.leavesOf, List.append_nil]
    exact sound_condition (.object fields) hfields hc
  | v, .group connective c, .group _ _ hc =>
    rw [Comparison.leavesOf, Comparison.leavesOf, List.append_nil]
    exact sound_condition v hv hc
  | v, .compare relation operand, .compare _ _ ho =>
    exact List.forall_mem_singleton.mpr (.compare ho hv)
termination_by 3 * v.size + 1
decreasing_by
  · have := fieldsSize_merge hm
    simp only [Json.size]; omega
  · omega

end

end

mutual

theorem sound_filter : (v : Json) → (∀ n ∈ v.numbers, n.inRange = true) → {f : Filter} →
    (Filter.ofJson v).result = .ok f → ∀ l ∈ f.leaves, l.2.Sound
  | .object entries, hv, _, h => by
    obtain ⟨items, hi, rfl⟩ := filter_object_ok h
    exact sound_clauses entries hv hi
  | .array values, hv, _, h => by
    obtain ⟨items, hi, rfl⟩ := filter_array_ok h
    exact sound_filters values hv hi
  | .null, _, _, h => by
    rw [Filter.ofJson] at h
    cases h
    exact fun _ hl => nomatch hl
  | .bool _, _, _, h => by simp [Filter.ofJson, Noted.fail] at h
  | .number _, _, _, h => by simp [Filter.ofJson, Noted.fail] at h
  | .string _, _, _, h => by simp [Filter.ofJson, Noted.fail] at h

theorem sound_filters : (values : List Json) →
    (∀ n ∈ Json.itemsNumbers values, n.inRange = true) → {items : List Filter} →
    (Filter.listOfJson values).result = .ok items → ∀ l ∈ Filter.leavesOf items, l.2.Sound
  | [], _, _, h => by
    rw [Filter.listOfJson] at h
    cases h
    exact fun _ hl => nomatch hl
  | v :: rest, hv, _, h => by
    obtain ⟨first, others, hf, ho, rfl⟩ := filters_cons_ok h
    rw [Json.itemsNumbers, List.forall_mem_append] at hv
    rw [Filter.leavesOf, List.forall_mem_append]
    exact ⟨sound_filter v hv.1 hf, sound_filters rest hv.2 ho⟩

theorem sound_clauses : (entries : List (String × Json)) →
    (∀ n ∈ Json.fieldsNumbers entries, n.inRange = true) → {items : List Clause} →
    (Clause.listOfJson entries).result = .ok items → ∀ l ∈ Clause.leavesOf items, l.2.Sound
  | [], _, _, h => by
    rw [Clause.listOfJson] at h
    cases h
    exact fun _ hl => nomatch hl
  | (key, v) :: rest, hv, _, h => by
    obtain ⟨first, others, hf, ho, rfl⟩ := clauses_cons_ok h
    rw [Json.fieldsNumbers, List.forall_mem_append] at hv
    have hrest := sound_clauses rest hv.2 ho
    cases hf with
    | group _ hop =>
      rw [Clause.leavesOf, List.forall_mem_append]
      exact ⟨sound_filter v hv.1 hop, hrest⟩
    | field _ hc =>
      rw [Clause.leavesOf, List.forall_mem_append, List.forall_mem_map]
      exact ⟨sound_condition v hv.1 hc, hrest⟩

end

/-! ## Names that were read -/

mutual

theorem names_filter : (v : Json) → {f : Filter} → (Filter.ofJson v).result = .ok f →
    ∀ name ∈ f.fieldNames, isOperatorKey name = false
  | .object entries, _, h => by
    obtain ⟨items, hi, rfl⟩ := filter_object_ok h
    exact names_clauses entries hi
  | .array values, _, h => by
    obtain ⟨items, hi, rfl⟩ := filter_array_ok h
    exact names_filters values hi
  | .null, _, h => by
    rw [Filter.ofJson] at h
    cases h
    exact fun _ hl => nomatch hl
  | .bool _, _, h => by simp [Filter.ofJson, Noted.fail] at h
  | .number _, _, h => by simp [Filter.ofJson, Noted.fail] at h
  | .string _, _, h => by simp [Filter.ofJson, Noted.fail] at h

theorem names_filters : (values : List Json) → {items : List Filter} →
    (Filter.listOfJson values).result = .ok items →
    ∀ name ∈ Filter.sequenceNames items, isOperatorKey name = false
  | [], _, h => by
    rw [Filter.listOfJson] at h
    cases h
    exact fun _ hl => nomatch hl
  | v :: rest, _, h => by
    obtain ⟨first, others, hf, ho, rfl⟩ := filters_cons_ok h
    rw [Filter.sequenceNames, List.forall_mem_append]
    exact ⟨names_filter v hf, names_filters rest ho⟩

theorem names_clauses : (entries : List (String × Json)) → {items : List Clause} →
    (Clause.listOfJson entries).result = .ok items →
    ∀ name ∈ Filter.clauseNames items, isOperatorKey name = false
  | [], _, h => by
    rw [Clause.listOfJson] at h
    cases h
    exact fun _ hl => nomatch hl
  | (key, v) :: rest, _, h => by
    obtain ⟨first, others, hf, ho, rfl⟩ := clauses_cons_ok h
    have hrest := names_clauses rest ho
    cases hf with
    | group _ hop =>
      rw [Filter.clauseNames, List.forall_mem_append]
      exact ⟨names_filter v hop, hrest⟩
    | field hk _ =>
      rw [Filter.clauseNames, List.forall_mem_cons]
      exact ⟨isOperatorKey_of_ok h hk, hrest⟩

end

/-! ## Compiling what was read -/

theorem findSome?_congr {α β : Type} {f g : α → Option β} {items : List α}
    (h : ∀ a ∈ items, f a = g a) : items.findSome? f = items.findSome? g := by
  induction items with
  | nil => rfl
  | cons a rest ih =>
    obtain ⟨ha, hrest⟩ := List.forall_mem_cons.mp h
    rw [List.findSome?_cons, List.findSome?_cons, ha, ih hrest]

namespace Filter

theorem wellFormed_of_ofJson {v : Json} (hv : ∀ n ∈ v.numbers, n.inRange = true) {f : Filter}
    (h : (ofJson v).result = .ok f) : f.WellFormed :=
  ⟨fun l hl => (sound_filter v hv h l hl).wellFormed, names_filter v h⟩

/-- The filter of a request is read like a nested one, and is none if it is empty. -/
theorem ofRoot_eq {v : Json} {root : Option Filter} (h : (ofRoot (some v)).result = .ok root) :
    ∃ f, (ofJson v).result = .ok f ∧ root = if f.isEmpty then none else some f := by
  cases v with
  | null =>
    cases h
    exact ⟨.clauses [], rfl, rfl⟩
  | object entries =>
    obtain ⟨items, hi, h⟩ := Noted.bind_eq_ok h
    cases h
    refine ⟨.clauses items, ?_, rfl⟩
    rw [ofJson]
    exact Noted.map_of_ok hi clauses
  | _ => cases h

theorem ofJson_of_ofRoot {v : Json} {f : Filter} (h : (ofRoot (some v)).result = .ok (some f)) :
    (ofJson v).result = .ok f := by
  obtain ⟨g, hg, hf⟩ := ofRoot_eq h
  split at hf <;> cases hf
  exact hg

/-- Whatever was read compiles, under whichever connective and options, unless it has a comparison
without a finite bound. The first of these, from left to right, is the error then. -/
theorem compile_parsed {v : Json} (hv : ∀ n ∈ v.numbers, n.inRange = true) {f : Filter}
    (h : (ofJson v).result = .ok f ∨ (ofRoot (some v)).result = .ok (some f)) :
    f.WellFormed ∧ ∀ (options : Options) (connective : Connective),
      match f.leaves.findSome? (·.2.unbounded?) with
      | none => ∃ r, compile options connective f = .ok r
      | some (relation, n) => compile options connective f =
          .error (.rangeOperand relation (String.ofList n.write)) := by
  have hread : (ofJson v).result = .ok f := h.elim id ofJson_of_ofRoot
  refine ⟨wellFormed_of_ofJson hv hread, fun options connective => ?_⟩
  have herror : errorOf? (compile options connective f) =
      (f.leaves.findSome? (·.2.unbounded?)).map unboundedError := by
    rw [errorOf?_compile, List.map_findSome?]
    refine findSome?_congr fun l hl => ?_
    exact (sound_filter v hv hread l hl).error?_eq _
  cases hfirst : f.leaves.findSome? (·.2.unbounded?) with
  | none => exact errorOf?_eq_none.mp (by rw [herror, hfirst]; rfl)
  | some e => exact errorOf?_eq_some.mp (by rw [herror, hfirst]; rfl)

def greatest : Number := .double ⟨0x7FEFFFFFFFFFFFFF⟩

/-- The greatest double as the bound of three relations, two of which reach past it. -/
def limitEntries : List (String × Json) :=
  [("genre", .array [.string "news"]),
   ("$not", .array [.object [("n", .object [
     ("$gte", .number greatest),
     ("$or", .array [.object [("$lt", .number (.integer 3))],
       .object [("$gt", .number greatest), ("$lt", .number greatest)]])])]])]

theorem compile_parsed_limit :
    (∀ n ∈ (Json.object limitEntries).numbers, n.inRange = true) ∧
      ∃ f, (ofRoot (some (.object limitEntries))).result = .ok (some f) ∧ f.WellFormed ∧
        ∀ (options : Options) (connective : Connective), compile options connective f =
          .error (.rangeOperand .greater "1.7976931348623157e+308") := by
  have hv : ∀ n ∈ (Json.object limitEntries).numbers, n.inRange = true := by decide +kernel
  have hfirst : ((ofRoot (some (.object limitEntries))).result.toOption.bind fun root =>
      root.bind fun f => f.leaves.findSome? (·.2.unbounded?)) = some (.greater, greatest) := by
    decide +kernel
  have htext : String.ofList greatest.write = "1.7976931348623157e+308" := by decide +kernel
  obtain ⟨root, hroot, hsome⟩ := Option.bind_eq_some_iff.mp hfirst
  obtain ⟨f, rfl, hleaf⟩ := Option.bind_eq_some_iff.mp hsome
  have hread := eq_ok_of_toOption hroot
  obtain ⟨hform, hcompile⟩ := compile_parsed hv (.inr hread)
  refine ⟨hv, f, hread, hform, fun options connective => ?_⟩
  have h := hcompile options connective
  rw [hleaf] at h
  rw [← htext]
  exact h

end Filter

end DocStore
