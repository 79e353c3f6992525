import DocStore.Proofs.Filter.Calls
import DocStore.Proofs.Filter.WellFormed
import DocStore.Proofs.Json.Height

/-!
# The depth of filters

`Filter.depth` counts the mappings and sequences of a filter that stand inside one another. It is at
most one more than the height of the value that the filter was read from
(`Filter.depth_le_height`), merged sequences included. The recursions of `isEmpty` and `compile` go
no deeper than that: with room for so many calls inside one another they give what they give without
a limit (`isEmptyWithin_of_depth`, `compileWithin_of_depth`). With what is known of the calls of the
readers, `reading_descends` bounds reading and what comes after it by the value that is read.
-/

namespace DocStore

/-! ## Depth -/

mutual

/-- The number of comparison mappings inside one another. -/
def Condition.depth : Condition → Nat
  | .scalar _ => 0
  | .oneOf _ => 0
  | .comparisons items => Comparison.depths items + 1

def Comparison.depth : Comparison → Nat
  | .compare _ _ => 0
  | .group _ condition => condition.depth

def Comparison.depths : List Comparison → Nat
  | [] => 0
  | c :: rest => max c.depth (Comparison.depths rest)

end

mutual

/-- The number of mappings and sequences inside one another, those of conditions among them. -/
def Filter.depth : Filter → Nat
  | .clauses items => Clause.depths items + 1
  | .sequence items => Filter.depths items + 1

def Filter.depths : List Filter → Nat
  | [] => 0
  | f :: rest => max f.depth (Filter.depths rest)

def Clause.depth : Clause → Nat
  | .group _ operand => operand.depth
  | .field _ condition => condition.depth

def Clause.depths : List Clause → Nat
  | [] => 0
  | c :: rest => max c.depth (Clause.depths rest)

end

namespace Json

theorem itemsHeight_le_iff {items : List Json} {n : Nat} :
    itemsHeight items ≤ n ↔ ∀ v ∈ items, v.height ≤ n := by
  induction items with
  | nil => simp [itemsHeight]
  | cons v rest ih => rw [itemsHeight, Nat.max_le, ih, List.forall_mem_cons]

theorem fieldsHeight_le_iff {fields : Fields} {n : Nat} :
    fieldsHeight fields ≤ n ↔ ∀ e ∈ fields, e.2.height ≤ n := by
  induction fields with
  | nil => simp [fieldsHeight]
  | cons e rest ih =>
    obtain ⟨key, v⟩ := e
    rw [fieldsHeight, Nat.max_le, ih, List.forall_mem_cons]

/-- Merging makes nothing deeper. -/
theorem fieldsHeight_merge {field : String} {connective : Connective} {items : List Json}
    {fields : Fields} (h : (merge field connective items).result = .ok fields) :
    fieldsHeight fields ≤ itemsHeight items := by
  refine fieldsHeight_le_iff.mpr fun e he => ?_
  obtain ⟨entries, hentries, hmem⟩ := mem_of_merge_ok h he
  have hvalue := fieldsHeight_le_iff.mp (Nat.le_refl (fieldsHeight entries)) e hmem
  have hmapping := itemsHeight_le_iff.mp (Nat.le_refl (itemsHeight items)) _ hentries
  rw [height] at hmapping
  omega

end Json

section

variable {field : String}

mutual

theorem Condition.depth_le_height (v : Json) {c : Condition}
    (h : (Condition.ofJson field v).result = .ok c) : c.depth ≤ v.height := by
  match v with
  | .object entries =>
    obtain ⟨items, hi, rfl⟩ := condition_object_ok h
    exact Nat.succ_le_succ (Comparison.depths_le_height entries hi)
  | .array items =>
    obtain ⟨values, _, rfl⟩ := condition_array_ok h
    exact Nat.zero_le _
  | .null | .bool _ | .number _ | .string _ =>
    obtain ⟨s, _, rfl⟩ := condition_scalar_ok (by simp) (by simp) h
    exact Nat.zero_le _
termination_by 3 * v.size
decreasing_by simp only [Json.size]; omega

theorem Comparison.depths_le_height (entries : Fields) {items : List Comparison}
    (h : (Comparison.listOfJson field entries).result = .ok items) :
    Comparison.depths items ≤ Json.fieldsHeight entries := by
  match entries with
  | [] =>
    rw [Comparison.listOfJson] at h
    cases h
    exact Nat.zero_le _
  | (key, v) :: rest =>
    obtain ⟨first, others, hf, ho, rfl⟩ := comparisons_cons_ok h
    rw [Comparison.depths, Json.fieldsHeight]
    exact max_le_max (Comparison.depth_le_height v (comparison_ok_read hf))
      (Comparison.depths_le_height rest ho)
termination_by 3 * Json.fieldsSize entries + 2
decreasing_by
  · simp only [Json.fieldsSize]; omega
  · have : 0 < v.size := by cases v <;> simp only [Json.size] <;> omega
    simp only [Json.fieldsSize]; omega

theorem Comparison.depth_le_height {key : String} (v : Json) {c : Comparison}
    (h : ComparisonRead field key v c) : c.depth ≤ v.height := by
  match v, c, h with
  | .array items, .group connective c, .merged fields _ hm hc =>
    have hmapping := Condition.depth_le_height (.object fields) hc
    have hmerged := Json.fieldsHeight_merge hm
    simp only [Json.height] at hmapping ⊢
    exact Nat.le_trans hmapping (Nat.succ_le_succ hmerged)
  | v, .group connective c, .group _ _ hc => exact Condition.depth_le_height v hc
  | v, .compare relation operand, .compare _ _ _ => exact Nat.zero_le _
termination_by 3 * v.size + 1
decreasing_by
  · have := fieldsSize_merge hm
    simp only [Json.size]; omega
  · omega

end

end

mutual

/-- A filter is at most one level deeper than what it was read from: `null` is read as a mapping
without clauses. -/
theorem Filter.depth_le_height : (v : Json) → {f : Filter} →
    (Filter.ofJson v).result = .ok f → f.depth ≤ v.height + 1
  | .object entries, _, h => by
    obtain ⟨items, hi, rfl⟩ := filter_object_ok h
    exact Nat.succ_le_succ (Clause.depths_le_height entries hi)
  | .array values, _, h => by
    obtain ⟨items, hi, rfl⟩ := filter_array_ok h
    exact Nat.succ_le_succ (Filter.depths_le_height values hi)
  | .null, _, h => by
    rw [Filter.ofJson] at h
    cases h
    exact Nat.le_refl _
  | .bool _, _, h => by simp [Filter.ofJson, Noted.fail] at h
  | .number _, _, h => by simp [Filter.ofJson, Noted.fail] at h
  | .string _, _, h => by simp [Filter.ofJson, Noted.fail] at h

theorem Filter.depths_le_height : (values : List Json) → {items : List Filter} →
    (Filter.listOfJson values).result = .ok items →
    Filter.depths items ≤ Json.itemsHeight values + 1
  | [], _, h => by
    rw [Filter.listOfJson] at h
    cases h
    exact Nat.zero_le _
  | v :: rest, _, h => by
    obtain ⟨first, others, hf, ho, rfl⟩ := filters_cons_ok h
    have hfirst := Filter.depth_le_height v hf
    have hothers := Filter.depths_le_height rest ho
    rw [Filter.depths, Json.itemsHeight]
    omega

theorem Clause.depths_le_height : (entries : Fields) → {items : List Clause} →
    (Clause.listOfJson entries).result = .ok items →
    Clause.depths items ≤ Json.fieldsHeight entries + 1
  | [], _, h => by
    rw [Clause.listOfJson] at h
    cases h
    exact Nat.zero_le _
  | (key, v) :: rest, _, h => by
    obtain ⟨first, others, hf, ho, rfl⟩ := clauses_cons_ok h
    have hothers := Clause.depths_le_height rest ho
    have hfirst : first.depth ≤ v.height + 1 := by
      cases hf with
      | group _ hop => exact Filter.depth_le_height v hop
      | field _ hc => exact Nat.le_succ_of_le (Condition.depth_le_height v hc)
    rw [Clause.depths, Json.fieldsHeight]
    omega

end

example : ∃ f, (Filter.ofJson (.object [("$and", .array [.null])])).result = .ok f ∧
    f.depth = (Json.object [("$and", .array [.null])]).height + 1 := ⟨_, rfl, rfl⟩

/-! ## Room for the recursions -/

mutual

/-- `isEmpty` with room for so many calls inside one another; none where that is too little. -/
def Condition.isEmptyWithin : Nat → Condition → Option Bool
  | 0, _ => none
  | _ + 1, .scalar _ => some false
  | _ + 1, .oneOf values => some values.isEmpty
  | room + 1, .comparisons items => Comparison.allEmptyWithin room items

def Comparison.allEmptyWithin (room : Nat) : List Comparison → Option Bool
  | [] => some true
  | .compare _ _ :: _ => some false
  | .group _ condition :: rest => do
    return (← condition.isEmptyWithin room) && (← Comparison.allEmptyWithin room rest)

end

mutual

def Filter.isEmptyWithin : Nat → Filter → Option Bool
  | 0, _ => none
  | room + 1, .clauses items => Clause.allEmptyWithin room items
  | room + 1, .sequence items => Filter.allEmptyWithin room items

def Filter.allEmptyWithin (room : Nat) : List Filter → Option Bool
  | [] => some true
  | item :: rest => do return (← item.isEmptyWithin room) && (← Filter.allEmptyWithin room rest)

def Clause.allEmptyWithin (room : Nat) : List Clause → Option Bool
  | [] => some true
  | .group _ operand :: rest => do
    return (← operand.isEmptyWithin room) && (← Clause.allEmptyWithin room rest)
  | .field _ condition :: rest => do
    return (← condition.isEmptyWithin room) && (← Clause.allEmptyWithin room rest)

end

mutual

theorem Condition.isEmptyWithin_of_depth : (c : Condition) → {room : Nat} → c.depth < room →
    c.isEmptyWithin room = some c.isEmpty
  | .scalar _, _ + 1, _ => rfl
  | .oneOf _, _ + 1, _ => rfl
  | .comparisons items, _ + 1, h =>
    Comparison.allEmptyWithin_of_depth items (Nat.lt_of_succ_lt_succ h)

theorem Comparison.allEmptyWithin_of_depth : (items : List Comparison) → {room : Nat} →
    Comparison.depths items < room →
    Comparison.allEmptyWithin room items = some (Comparison.allEmpty items)
  | [], _, _ => rfl
  | .compare _ _ :: _, _, _ => rfl
  | .group _ condition :: rest, _, h => by
    obtain ⟨hc, hr⟩ := Nat.max_lt.mp h
    rw [Comparison.allEmptyWithin, condition.isEmptyWithin_of_depth hc,
      Comparison.allEmptyWithin_of_depth rest hr]
    rfl

end

mutual

theorem Filter.isEmptyWithin_of_depth : (f : Filter) → {room : Nat} → f.depth < room →
    f.isEmptyWithin room = some f.isEmpty
  | .clauses items, _ + 1, h => Clause.allEmptyWithin_of_depth items (Nat.lt_of_succ_lt_succ h)
  | .sequence items, _ + 1, h => Filter.allEmptyWithin_of_depth items (Nat.lt_of_succ_lt_succ h)

theorem Filter.allEmptyWithin_of_depth : (items : List Filter) → {room : Nat} →
    Filter.depths items < room → Filter.allEmptyWithin room items = some (Filter.allEmpty items)
  | [], _, _ => rfl
  | item :: rest, _, h => by
    obtain ⟨hi, hr⟩ := Nat.max_lt.mp h
    rw [Filter.allEmptyWithin, item.isEmptyWithin_of_depth hi,
      Filter.allEmptyWithin_of_depth rest hr]
    rfl

theorem Clause.allEmptyWithin_of_depth : (items : List Clause) → {room : Nat} →
    Clause.depths items < room → Clause.allEmptyWithin room items = some (Clause.allEmpty items)
  | [], _, _ => rfl
  | .group _ operand :: rest, _, h => by
    obtain ⟨ho, hr⟩ := Nat.max_lt.mp h
    rw [Clause.allEmptyWithin, operand.isEmptyWithin_of_depth ho,
      Clause.allEmptyWithin_of_depth rest hr]
    rfl
  | .field _ condition :: rest, _, h => by
    obtain ⟨hc, hr⟩ := Nat.max_lt.mp h
    rw [Clause.allEmptyWithin, condition.isEmptyWithin_of_depth hc,
      Clause.allEmptyWithin_of_depth rest hr]
    rfl

end

namespace Filter

variable (options : Options)

mutual

def conditionStatementsWithin (attr : String) :
    Nat → Condition → Option (Except FilterError (List Statement))
  | 0, _ => none
  | room + 1, .comparisons items => comparisonStatementsWithin attr room items
  | _ + 1, leaf => some (conditionStatements options attr leaf)

def comparisonStatementsWithin (attr : String) (room : Nat) :
    List Comparison → Option (Except FilterError (List Statement))
  | [] => some (.ok [])
  | .compare relation operand :: rest => do
    let others ← comparisonStatementsWithin attr room rest
    return do return (← comparison options attr relation operand) :: (← others)
  | .group connective condition :: rest => do
    let members ← conditionStatementsWithin attr room condition
    let others ← comparisonStatementsWithin attr room rest
    return do return grouped connective (← members) ++ (← others)

end

mutual

/-- `statements` with room for so many calls inside one another; none where that is too little. -/
def statementsWithin : Nat → Filter → Option (Except FilterError (List Statement))
  | 0, _ => none
  | room + 1, .clauses items => clauseStatementsWithin room items
  | room + 1, .sequence items => sequenceStatementsWithin room items

def sequenceStatementsWithin (room : Nat) :
    List Filter → Option (Except FilterError (List Statement))
  | [] => some (.ok [])
  | item :: rest => do
    let first ← statementsWithin room item
    let others ← sequenceStatementsWithin room rest
    return do return (← first) ++ (← others)

def clauseStatementsWithin (room : Nat) :
    List Clause → Option (Except FilterError (List Statement))
  | [] => some (.ok [])
  | .group connective operand :: rest => do
    let members ← statementsWithin room operand
    let others ← clauseStatementsWithin room rest
    return do return grouped connective (← members) ++ (← others)
  | .field name condition :: rest => do
    let first ← conditionStatementsWithin options (options.schema.attributeOf name) room condition
    let others ← clauseStatementsWithin room rest
    return do return (← first) ++ (← others)

end

def compileWithin (room : Nat) (connective : Connective) (f : Filter) :
    Option (Except FilterError (Option String)) := do
  let found ← statementsWithin options room f
  return do return Statement.joined? connective (← found)

section

variable {options : Options}

mutual

theorem conditionStatementsWithin_of_depth {attr : String} : (c : Condition) → {room : Nat} →
    c.depth < room →
    conditionStatementsWithin options attr room c = some (conditionStatements options attr c)
  | .scalar _, _ + 1, _ => rfl
  | .oneOf _, _ + 1, _ => rfl
  | .comparisons items, _ + 1, h =>
    comparisonStatementsWithin_of_depth items (Nat.lt_of_succ_lt_succ h)

theorem comparisonStatementsWithin_of_depth {attr : String} : (items : List Comparison) →
    {room : Nat} → Comparison.depths items < room →
    comparisonStatementsWithin options attr room items =
      some (comparisonStatements options attr items)
  | [], _, _ => rfl
  | .compare _ _ :: rest, _, h => by
    rw [comparisonStatementsWithin, comparisonStatementsWithin_of_depth rest (Nat.max_lt.mp h).2]
    rfl
  | .group _ condition :: rest, _, h => by
    obtain ⟨hc, hr⟩ := Nat.max_lt.mp h
    rw [comparisonStatementsWithin, conditionStatementsWithin_of_depth condition hc,
      comparisonStatementsWithin_of_depth rest hr]
    rfl

end

mutual

theorem statementsWithin_of_depth : (f : Filter) → {room : Nat} → f.depth < room →
    statementsWithin options room f = some (statements options f)
  | .clauses items, _ + 1, h => clauseStatementsWithin_of_depth items (Nat.lt_of_succ_lt_succ h)
  | .sequence items, _ + 1, h =>
    sequenceStatementsWithin_of_depth items (Nat.lt_of_succ_lt_succ h)

theorem sequenceStatementsWithin_of_depth : (items : List Filter) → {room : Nat} →
    depths items < room →
    sequenceStatementsWithin options room items = some (sequenceStatements options items)
  | [], _, _ => rfl
  | item :: rest, _, h => by
    obtain ⟨hi, hr⟩ := Nat.max_lt.mp h
    rw [sequenceStatementsWithin, statementsWithin_of_depth item hi,
      sequenceStatementsWithin_of_depth rest hr]
    rfl

theorem clauseStatementsWithin_of_depth : (items : List Clause) → {room : Nat} →
    Clause.depths items < room →
    clauseStatementsWithin options room items = some (clauseStatements options items)
  | [], _, _ => rfl
  | .group _ operand :: rest, _, h => by
    obtain ⟨ho, hr⟩ := Nat.max_lt.mp h
    rw [clauseStatementsWithin, statementsWithin_of_depth operand ho,
      clauseStatementsWithin_of_depth rest hr]
    rfl
  | .field _ condition :: rest, _, h => by
    obtain ⟨hc, hr⟩ := Nat.max_lt.mp h
    rw [clauseStatementsWithin, conditionStatementsWithin_of_depth condition hc,
      clauseStatementsWithin_of_depth rest hr]
    rfl

end

theorem compileWithin_of_depth {f : Filter} {room : Nat} (h : f.depth < room)
    (connective : Connective) :
    compileWithin options room connective f = some (compile options connective f) := by
  rw [compileWithin, statementsWithin_of_depth f h]
  rfl

end

/-! ## Reading and what comes after it -/

/-- Reading comes to an end: a step of it asks for nothing but its calls, which lead to no endless
chain, and the readers are what the steps make of them. A condition that is read inside another, or
inside a filter, has fewer values than that one, also where it was merged. What is read is at most
one level deeper than the value, and `isEmpty` and `compile` go no deeper into it. -/
theorem reading_descends :
    (∀ (readers others : Readers) (r : ReaderCall), (∀ r', r.Calls r' → readers.AgreeAt others r') →
      readers.step.AgreeAt others.step r) ∧
    (∀ readers : Readers, readers.step = readers ↔ readers = .actual) ∧
    (WellFounded fun callee caller : ReaderCall => caller.Calls callee) ∧
    (∀ (field : String) (v w : Json),
      (∀ outer, Relation.TransGen ReaderCall.Calls (.condition outer v) (.condition field w) →
        w.size < v.size) ∧
      (Relation.TransGen ReaderCall.Calls (.filter v) (.condition field w) → w.size < v.size) ∧
      (Relation.TransGen ReaderCall.Calls (.filter v) (.filter w) → w.size < v.size)) ∧
    ∀ (v : Json) (f : Filter),
      (ofJson v).result = .ok f ∨ (ofRoot (some v)).result = .ok (some f) →
      f.depth ≤ v.height + 1 ∧
      ∀ room, v.height + 2 ≤ room → f.isEmptyWithin room = some f.isEmpty ∧
        ∀ (options : Options) (connective : Connective),
          compileWithin options room connective f = some (compile options connective f) := by
  refine ⟨fun readers others r => Readers.step_congr, fun readers => ?_,
    ReaderCall.calls_wellFounded, fun field v w => ?_, fun v f h => ?_⟩
  · refine ⟨Readers.eq_actual_of_step, ?_⟩
    rintro rfl
    exact Readers.step_actual
  · refine ⟨fun outer h => ?_, fun h => ?_, fun h => ?_⟩ <;>
      exact Nat.lt_of_mul_lt_mul_left (ReaderCall.weight_lt_of_nested h)
  · have hdepth := depth_le_height v (h.elim id ofJson_of_ofRoot)
    refine ⟨hdepth, fun room hroom => ?_⟩
    have hlt : f.depth < room := by omega
    exact ⟨f.isEmptyWithin_of_depth hlt, fun _ => compileWithin_of_depth hlt⟩

/-- Two mappings that are merged, with a condition inside the second. -/
def mergedEntries : Fields :=
  [("$not", .null),
   ("n", .object [("$or", .array
     [.object [("$gte", .number (.integer 1))],
      .object [("$gte", .number (.integer 2)),
        ("$not", .object [("$lte", .number (.integer 5))])]])])]

/-- Their filter string. -/
def mergedText : String := "(__metadata_n:[2 TO *] OR (__metadata_n:[* TO 5]))"

theorem reading_descends_merged :
    ∃ f, (ofRoot (some (.object mergedEntries))).result = .ok (some f) ∧
      f.depth = 4 ∧ (Json.object mergedEntries).height = 5 ∧ f.depth ≤ 5 + 1 ∧
      f.isEmptyWithin 7 = some false ∧
      compileWithin {} 7 .and f = some (.ok (some mergedText)) := by
  have hfacts : ((ofRoot (some (.object mergedEntries))).result.toOption.bind fun root =>
      root.map fun f => (f.depth, f.isEmpty, (compile {} .and f).toOption)) =
        some (4, false, some (some mergedText)) := by
    decide +kernel
  obtain ⟨root, hroot, hsome⟩ := Option.bind_eq_some_iff.mp hfacts
  obtain ⟨f, rfl, hf⟩ := Option.map_eq_some_iff.mp hsome
  rw [Prod.mk.injEq, Prod.mk.injEq] at hf
  obtain ⟨hdepth, hempty, hcompile⟩ := hf
  have hread := eq_ok_of_toOption hroot
  obtain ⟨hbound, hroom⟩ := reading_descends.2.2.2.2 _ f (.inr hread)
  obtain ⟨hisEmpty, hstring⟩ := hroom 7 (by decide)
  refine ⟨f, hread, hdepth, by decide, hbound, hempty ▸ hisEmpty, ?_⟩
  rw [hstring, eq_ok_of_toOption hcompile]

end Filter

end DocStore
