import DocStore.Proofs.Filter.Leaf
import DocStore.Proofs.Filter.Parsed

/-!
# The grammar of filters

`Filter.Grammatical` says which JSON values are filters, and `Filter.Fault` what is wrong with a
value that is none: the error of the first entry in it that violates the grammar. The reader decides
between the two (`decides_filters`). A sequence of mappings under a connective of a field is checked
as a whole, by its union, so that the order of its entries is that of the union and not that of the
document (`not_document_order`).
-/

namespace DocStore

/-! ## Verdicts -/

/-- The result is a success exactly if the input is accepted, and an error exactly if that is what
is at fault. -/
structure Decides {α : Type} (result : Except FilterError α) (accepted : Prop)
    (fault : FilterError → Prop) : Prop where
  accepts : (∃ a, result = .ok a) ↔ accepted
  rejects : ∀ e, result = .error e ↔ fault e

/-- The first item that is not accepted is at fault. -/
def FirstFault {α : Type} (accepted : α → Prop) (fault : α → FilterError → Prop) (items : List α)
    (e : FilterError) : Prop :=
  ∃ pre item post, items = pre ++ item :: post ∧ (∀ x ∈ pre, accepted x) ∧ fault item e

theorem firstFault_cons {α : Type} {accepted : α → Prop} {fault : α → FilterError → Prop}
    {item : α} {rest : List α} {e : FilterError} :
    FirstFault accepted fault (item :: rest) e ↔
      fault item e ∨ accepted item ∧ FirstFault accepted fault rest e := by
  constructor
  · rintro ⟨pre, x, post, hitems, hpre, hx⟩
    cases pre with
    | nil =>
      cases hitems
      exact .inl hx
    | cons y pre =>
      cases hitems
      obtain ⟨hy, hpre⟩ := List.forall_mem_cons.mp hpre
      exact .inr ⟨hy, pre, x, post, rfl, hpre, hx⟩
  · rintro (hx | ⟨hitem, pre, x, post, rfl, hpre, hx⟩)
    · exact ⟨[], item, rest, rfl, fun _ h => (nomatch h), hx⟩
    · exact ⟨item :: pre, x, post, rfl, List.forall_mem_cons.mpr ⟨hitem, hpre⟩, hx⟩

namespace Decides

section

variable {α β γ : Type} {x : Except FilterError α} {y : Except FilterError β}
  {accepted accepted' : Prop} {fault fault' : FilterError → Prop}

theorem of_ok {a : α} (h : accepted) (hf : ∀ e, ¬ fault e) :
    Decides (.ok a : Except FilterError α) accepted fault :=
  ⟨⟨fun _ => h, fun _ => ⟨a, rfl⟩⟩, fun e => ⟨fun h => (nomatch h), fun h => absurd h (hf e)⟩⟩

theorem of_error {e : FilterError} (h : ¬ accepted) (hf : ∀ e', fault e' ↔ e' = e) :
    Decides (.error e : Except FilterError α) accepted fault := by
  refine ⟨⟨fun ⟨_, h⟩ => (nomatch h), fun ha => absurd ha h⟩, fun e' => ?_⟩
  rw [hf, Except.error.injEq, eq_comm]

theorem congr (h : Decides x accepted fault) (ha : accepted' ↔ accepted)
    (hf : ∀ e, fault' e ↔ fault e) : Decides x accepted' fault' :=
  ⟨h.accepts.trans ha.symm, fun e => (h.rejects e).trans (hf e).symm⟩

theorem map (h : Decides x accepted fault) (f : α → β) : Decides (f <$> x) accepted fault := by
  obtain ⟨haccepts, hrejects⟩ := h
  cases x with
  | ok a =>
    exact of_ok (haccepts.mp ⟨a, rfl⟩) fun e he => nomatch (hrejects e).mpr he
  | error e =>
    refine of_error (fun ha => nomatch haccepts.mpr ha) fun e' => ?_
    rw [← hrejects, Except.error.injEq, eq_comm]

theorem bind_ok (h : Decides x accepted fault) (f : α → β) :
    Decides (x >>= fun a => .ok (f a)) accepted fault := by
  cases x <;> exact h.map f

/-- Of two results in a row, the second counts if the first is a success. -/
theorem both (hx : Decides x accepted fault) (hy : Decides y accepted' fault')
    (f : α → β → γ) :
    Decides (do let a ← x; let b ← y; return f a b) (accepted ∧ accepted')
      fun e => fault e ∨ accepted ∧ fault' e := by
  obtain ⟨haccepts, hrejects⟩ := hx
  cases x with
  | ok a =>
    have ha : accepted := haccepts.mp ⟨a, rfl⟩
    refine (hy.map (f a)).congr (and_iff_right ha) fun e => ?_
    rw [and_iff_right ha, or_iff_right fun he => nomatch (hrejects e).mpr he]
  | error e =>
    have ha : ¬ accepted := fun ha => nomatch haccepts.mpr ha
    refine of_error (fun h => ha h.1) fun e' => ?_
    rw [or_iff_left fun h => ha h.1, ← hrejects, Except.error.injEq, eq_comm]

end

section

variable {α β : Type} {accepted : α → Prop} {fault : α → FilterError → Prop}

theorem nil {b : β} : Decides (.ok b) (∀ x ∈ ([] : List α), accepted x)
    (FirstFault accepted fault []) := by
  refine of_ok (fun _ h => nomatch h) ?_
  rintro e ⟨pre, x, post, h, _⟩
  cases pre <;> cases h

theorem cons {item : α} {rest : List α} {γ δ : Type} {x : Except FilterError β}
    {y : Except FilterError γ} (hx : Decides x (accepted item) (fault item))
    (hy : Decides y (∀ v ∈ rest, accepted v) (FirstFault accepted fault rest))
    (f : β → γ → δ) :
    Decides (do let a ← x; let b ← y; return f a b) (∀ v ∈ item :: rest, accepted v)
      (FirstFault accepted fault (item :: rest)) :=
  (hx.both hy f).congr List.forall_mem_cons fun _ => firstFault_cons

theorem mapM {f : α → Except FilterError β} (h : ∀ x, Decides (f x) (accepted x) (fault x))
    (items : List α) :
    Decides (items.mapM f) (∀ x ∈ items, accepted x) (FirstFault accepted fault items) := by
  induction items with
  | nil => exact nil
  | cons item rest ih =>
    rw [List.mapM_cons]
    exact cons (h item) ih _

end

end Decides

/-! ## The grammar -/

/-- What a relation compares with: a number after a relation of order, a single value after another
one, and a list of values after a relation to a list. -/
inductive Operand.Grammatical : Relation → Json → Prop where
  | number {relation : Relation} (hr : relation.isRange = true) (n : Number) :
    Grammatical relation (.number n)
  | list {relation : Relation} {items : List Json} (hr : relation.takesList = true)
    (hne : items ≠ []) (hs : ∀ v ∈ items, v.IsScalar) : Grammatical relation (.array items)
  | single {relation : Relation} {v : Json} (hr : relation.isRange = false) (hs : v.IsScalar) :
    Grammatical relation v

mutual

/-- A single value, a list of values, or a mapping of comparisons. -/
inductive Condition.Grammatical : Json → Prop where
  | scalar {v : Json} (hs : v.IsScalar) : Condition.Grammatical v
  | list {items : List Json} (hne : items ≠ []) (hs : ∀ v ∈ items, v.IsScalar) :
    Condition.Grammatical (.array items)
  | mapping {entries : List (String × Json)}
    (h : ∀ entry ∈ entries, Comparison.Grammatical entry) :
    Condition.Grammatical (.object entries)

/-- An entry of a mapping of comparisons. A sequence of mappings stands for their union, in which
the last entry of a key counts. -/
inductive Comparison.Grammatical : String × Json → Prop where
  | compare {key : String} {relation : Relation} {v : Json}
    (hk : Relation.ofKey? key = some relation) (h : Operand.Grammatical relation v) :
    Comparison.Grammatical (key, v)
  | group {key : String} {connective : Connective} {v : Json}
    (hk : Connective.ofKey? key = some connective) (ha : ∀ items, v ≠ .array items)
    (h : Condition.Grammatical v) : Comparison.Grammatical (key, v)
  | merged {key : String} {connective : Connective} {maps : List Fields}
    (hk : Connective.ofKey? key = some connective)
    (h : Condition.Grammatical (.object (Fields.ofEntries maps.flatten))) :
    Comparison.Grammatical (key, .array (maps.map .object))

end

mutual

/-- A mapping of clauses, a sequence of filters, or nothing. -/
inductive Filter.Grammatical : Json → Prop where
  | null : Filter.Grammatical .null
  | sequence {items : List Json} (h : ∀ v ∈ items, Filter.Grammatical v) :
    Filter.Grammatical (.array items)
  | mapping {entries : List (String × Json)}
    (h : ∀ entry ∈ entries, Clause.Grammatical entry) :
    Filter.Grammatical (.object entries)

/-- An entry of a mapping of clauses. -/
inductive Clause.Grammatical : String × Json → Prop where
  | group {key : String} {connective : Connective} {v : Json}
    (hk : Connective.ofKey? key = some connective) (h : Filter.Grammatical v) :
    Clause.Grammatical (key, v)
  | field {name : String} {v : Json} (hn : isOperatorKey name = false)
    (h : Condition.Grammatical v) : Clause.Grammatical (name, v)

end

/-- The filter of a request is a mapping, `null` or absent. -/
inductive Filter.RootGrammatical : Option Json → Prop where
  | absent : RootGrammatical none
  | null : RootGrammatical (some .null)
  | mapping {entries : List (String × Json)} (h : Filter.Grammatical (.object entries)) :
    RootGrammatical (some (.object entries))

/-! ## The first violation -/

/-- What is wrong with a list of values: it has none, or the first that is no single value. -/
inductive Scalar.ListFault (relation : Relation) (field : String) :
    List Json → FilterError → Prop where
  | empty : ListFault relation field [] (.noValues relation field)
  | item {pre post : List Json} {v : Json} (hpre : ∀ w ∈ pre, w.IsScalar) (hv : ¬ v.IsScalar) :
    ListFault relation field (pre ++ v :: post) (.notScalar field v.kind)

inductive Operand.Fault (field : String) : Relation → Json → FilterError → Prop where
  | range {relation : Relation} {v : Json} (hr : relation.isRange = true)
    (hv : ∀ n, v ≠ .number n) : Fault field relation v (.rangeOperand relation v.text)
  | list {relation : Relation} {items : List Json} {e : FilterError}
    (hr : relation.takesList = true) (h : Scalar.ListFault relation field items e) :
    Fault field relation (.array items) e
  | single {relation : Relation} {v : Json} (hr : relation.isRange = false)
    (ha : relation.takesList = true → ∀ items, v ≠ .array items) (hv : ¬ v.IsScalar) :
    Fault field relation v (.notScalar field v.kind)

mutual

inductive Condition.Fault (field : String) : Json → FilterError → Prop where
  | list {items : List Json} {e : FilterError} (h : Scalar.ListFault .oneOf field items e) :
    Condition.Fault field (.array items) e
  | mapping {pre post : List (String × Json)} {entry : String × Json} {e : FilterError}
    (hpre : ∀ entry ∈ pre, Comparison.Grammatical entry)
    (h : Comparison.Fault field entry e) :
    Condition.Fault field (.object (pre ++ entry :: post)) e

/-- What is wrong with an entry of a mapping of comparisons. In a sequence under a connective, an
element that is no mapping comes before what is wrong with the union of the mappings. -/
inductive Comparison.Fault (field : String) : String × Json → FilterError → Prop where
  | operator {key : String} {v : Json} (hc : Connective.ofKey? key = none)
    (hr : Relation.ofKey? key = none) :
    Comparison.Fault field (key, v) (.unsupportedOperator key)
  | operand {key : String} {relation : Relation} {v : Json} {e : FilterError}
    (hk : Relation.ofKey? key = some relation) (h : Operand.Fault field relation v e) :
    Comparison.Fault field (key, v) e
  | group {key : String} {connective : Connective} {v : Json} {e : FilterError}
    (hk : Connective.ofKey? key = some connective) (ha : ∀ items, v ≠ .array items)
    (h : Condition.Fault field v e) : Comparison.Fault field (key, v) e
  | element {key : String} {connective : Connective} {maps : List Fields} {v : Json}
    {post : List Json} (hk : Connective.ofKey? key = some connective)
    (hv : ∀ fields, v ≠ .object fields) :
    Comparison.Fault field (key, .array (maps.map .object ++ v :: post))
      (.notComparisons connective field v.kind)
  | merged {key : String} {connective : Connective} {maps : List Fields} {e : FilterError}
    (hk : Connective.ofKey? key = some connective)
    (h : Condition.Fault field (.object (Fields.ofEntries maps.flatten)) e) :
    Comparison.Fault field (key, .array (maps.map .object)) e

end

mutual

inductive Filter.Fault : Json → FilterError → Prop where
  | kind {v : Json} (hs : v.IsScalar) (hn : v ≠ .null) : Filter.Fault v (.nestedKind v.kind)
  | sequence {pre post : List Json} {v : Json} {e : FilterError}
    (hpre : ∀ w ∈ pre, Filter.Grammatical w) (h : Filter.Fault v e) :
    Filter.Fault (.array (pre ++ v :: post)) e
  | mapping {pre post : List (String × Json)} {entry : String × Json} {e : FilterError}
    (hpre : ∀ entry ∈ pre, Clause.Grammatical entry)
    (h : Clause.Fault entry e) : Filter.Fault (.object (pre ++ entry :: post)) e

inductive Clause.Fault : String × Json → FilterError → Prop where
  | operator {key : String} {v : Json} (hc : Connective.ofKey? key = none)
    (hk : isOperatorKey key = true) : Clause.Fault (key, v) (.unsupportedOperator key)
  | group {key : String} {connective : Connective} {v : Json} {e : FilterError}
    (hk : Connective.ofKey? key = some connective) (h : Filter.Fault v e) :
    Clause.Fault (key, v) e
  | field {name : String} {v : Json} {e : FilterError} (hn : isOperatorKey name = false)
    (h : Condition.Fault name v e) : Clause.Fault (name, v) e

end

inductive Filter.RootFault : Option Json → FilterError → Prop where
  | kind {v : Json} (hn : v ≠ .null) (ho : ∀ entries, v ≠ .object entries) :
    RootFault (some v) (.rootKind v.kind)
  | mapping {entries : List (String × Json)} {e : FilterError}
    (h : Filter.Fault (.object entries) e) : RootFault (some (.object entries)) e

/-! ## Values -/

section

variable {field : String}

theorem decides_scalar (v : Json) :
    Decides (Scalar.ofJson field v) v.IsScalar
      fun e => ¬ v.IsScalar ∧ e = .notScalar field v.kind := by
  cases v with
  | array items => exact .of_error id fun e => and_iff_right id
  | object fields => exact .of_error id fun e => and_iff_right id
  | _ => exact .of_ok trivial fun e he => he.1 trivial

theorem listFault_iff {relation : Relation} {items : List Json} {e : FilterError}
    (hne : items ≠ []) : Scalar.ListFault relation field items e ↔
      FirstFault Json.IsScalar (fun v e => ¬ v.IsScalar ∧ e = .notScalar field v.kind) items e := by
  constructor
  · intro h
    cases h with
    | empty => exact absurd rfl hne
    | item hpre hv => exact ⟨_, _, _, rfl, hpre, hv, rfl⟩
  · rintro ⟨pre, v, post, rfl, hpre, hv, rfl⟩
    exact .item hpre hv

theorem decides_scalars (relation : Relation) (items : List Json) :
    Decides (Scalar.listOfJson relation field items) (items ≠ [] ∧ ∀ v ∈ items, v.IsScalar)
      (Scalar.ListFault relation field items) := by
  unfold Scalar.listOfJson
  by_cases hne : items = []
  · subst hne
    refine .of_error (fun h => h.1 rfl) fun e => ⟨fun h => ?_, fun h => h ▸ .empty⟩
    generalize hitems : ([] : List Json) = items at h
    cases h with
    | empty => rfl
    | item => simp at hitems
  · rw [if_neg (by simpa using hne)]
    exact (Decides.mapM decides_scalar items).congr (and_iff_right hne) fun e => listFault_iff hne

/-! ## Operands -/

theorem Relation.isRange_of_takesList {relation : Relation} (h : relation.takesList = true) :
    relation.isRange = false := by
  rcases eq_of_takesList h with rfl | rfl <;> rfl

theorem decides_range {relation : Relation} {v : Json} (hr : relation.isRange = true)
    (hv : ∀ n, v ≠ .number n) :
    Decides (.error (.rangeOperand relation v.text) : Except FilterError Operand)
      (Operand.Grammatical relation v) (Operand.Fault field relation v) := by
  refine .of_error (fun h => ?_) fun e => ⟨fun h => ?_, fun h => h ▸ .range hr hv⟩
  · cases h with
    | number _ n => exact hv n rfl
    | list hl => rw [Relation.isRange_of_takesList hl] at hr; cases hr
    | single hs => rw [hs] at hr; cases hr
  · cases h with
    | range => rfl
    | list hl => rw [Relation.isRange_of_takesList hl] at hr; cases hr
    | single hs => rw [hs] at hr; cases hr

theorem decides_list {relation : Relation} (hl : relation.takesList = true) (items : List Json) :
    Decides (Scalar.listOfJson relation field items) (Operand.Grammatical relation (.array items))
      (Operand.Fault field relation (.array items)) := by
  refine (decides_scalars relation items).congr ⟨fun h => ?_, fun h => .list hl h.1 h.2⟩
    fun e => ⟨fun h => ?_, fun h => .list hl h⟩
  · cases h with
    | list _ hne hs => exact ⟨hne, hs⟩
    | single _ hs => cases hs
  · cases h with
    | range hr => rw [Relation.isRange_of_takesList hl] at hr; cases hr
    | list _ h => exact h
    | single _ ha => exact absurd rfl (ha hl items)

theorem decides_single {relation : Relation} {v : Json} (hr : relation.isRange = false)
    (ha : relation.takesList = true → ∀ items, v ≠ .array items) :
    Decides (Scalar.ofJson field v) (Operand.Grammatical relation v)
      (Operand.Fault field relation v) := by
  refine (decides_scalar v).congr ⟨fun h => ?_, .single hr⟩
    fun e => ⟨fun h => ?_, fun ⟨hv, he⟩ => he ▸ .single hr ha hv⟩
  · cases h with
    | number hn => rw [hr] at hn; cases hn
    | list hl => exact absurd rfl (ha hl _)
    | single _ hs => exact hs
  · cases h with
    | range hn => rw [hr] at hn; cases hn
    | list hl => exact absurd rfl (ha hl _)
    | single _ _ hv => exact ⟨hv, rfl⟩

theorem decides_operand (relation : Relation) (v : Json) :
    Decides (Operand.ofJson relation field v) (Operand.Grammatical relation v)
      (Operand.Fault field relation v) := by
  unfold Operand.ofJson
  split
  · rename_i hr
    split
    · rename_i n
      refine .of_ok (.number hr n) fun e h => ?_
      cases h with
      | range _ hv => exact hv n rfl
      | single hs => rw [hr] at hs; cases hs
    · rename_i hv
      exact decides_range hr hv
  · rename_i hr
    rw [Bool.not_eq_true] at hr
    split
    · rename_i hl
      split
      · exact (decides_list hl _).map _
      · rename_i ha
        exact (decides_single hr fun _ => ha).map _
    · rename_i hl
      exact (decides_single hr fun h => absurd h hl).map _

end

/-! ## Sequences of mappings -/

theorem mappings_injective : Function.Injective (List.map Json.object) :=
  List.map_injective_iff.mpr fun _ _ => Json.object.inj

theorem mappings_ne_element {maps maps' : List Fields} {v : Json} {post : List Json}
    (hv : ∀ fields, v ≠ .object fields) : maps.map .object ≠ maps'.map .object ++ v :: post := by
  intro h
  have hmem : v ∈ maps.map .object := by
    rw [h]
    exact List.mem_append_right _ List.mem_cons_self
  obtain ⟨fields, _, rfl⟩ := List.mem_map.mp hmem
  exact hv fields rfl

/-! ## Conditions -/

section

variable {field : String}

theorem decides_list_condition (items : List Json) :
    Decides (Scalar.listOfJson .oneOf field items) (Condition.Grammatical (.array items))
      (Condition.Fault field (.array items)) := by
  refine (decides_scalars .oneOf items).congr ⟨fun h => ?_, fun h => .list h.1 h.2⟩
    fun e => ⟨fun h => ?_, .list⟩
  · cases h with
    | scalar hs => cases hs
    | list hne hs => exact ⟨hne, hs⟩
  · cases h with
    | list h => exact h

theorem decides_mapping {α : Type} {entries : List (String × Json)} {result : Except FilterError α}
    (h : Decides result (∀ entry ∈ entries, Comparison.Grammatical entry)
      (FirstFault Comparison.Grammatical (Comparison.Fault field) entries)) :
    Decides result (Condition.Grammatical (.object entries))
      (Condition.Fault field (.object entries)) := by
  refine h.congr ⟨fun h => ?_, .mapping⟩ fun e => ⟨fun h => ?_, ?_⟩
  · cases h with
    | scalar hs => cases hs
    | mapping h => exact h
  · cases h with
    | mapping hpre h => exact ⟨_, _, _, rfl, hpre, h⟩
  · rintro ⟨pre, entry, post, rfl, hpre, h⟩
    exact .mapping hpre h

theorem decides_scalar_condition {v : Json} (hs : v.IsScalar) :
    Decides (Scalar.ofJson field v) (Condition.Grammatical v) (Condition.Fault field v) := by
  refine (decides_scalar v).congr (iff_of_true (.scalar hs) hs) fun e => ?_
  refine iff_of_false (fun h => ?_) fun h => h.1 hs
  cases h <;> cases hs

theorem decides_compare {key : String} {relation : Relation} {v : Json}
    (hk : Relation.ofKey? key = some relation) :
    Decides (Operand.ofJson relation field v) (Comparison.Grammatical (key, v))
      (Comparison.Fault field (key, v)) := by
  have hc := Connective.ofKey?_of_relation hk
  refine (decides_operand relation v).congr ⟨fun h => ?_, .compare hk⟩
    fun e => ⟨fun h => ?_, .operand hk⟩
  · cases h with
    | compare hk' h => rw [hk, Option.some.injEq] at hk'; exact hk' ▸ h
    | group hk' | merged hk' => rw [hc] at hk'; cases hk'
  · cases h with
    | operator _ hr => rw [hk] at hr; cases hr
    | operand hk' h => rw [hk, Option.some.injEq] at hk'; exact hk' ▸ h
    | group hk' | element hk' | merged hk' => rw [hc] at hk'; cases hk'

theorem decides_unknown {key : String} {v : Json} (hc : Connective.ofKey? key = none)
    (hr : Relation.ofKey? key = none) :
    Decides (.error (.unsupportedOperator key) : Except FilterError Comparison)
      (Comparison.Grammatical (key, v)) (Comparison.Fault field (key, v)) := by
  refine .of_error (fun h => ?_) fun e => ⟨fun h => ?_, fun h => h ▸ .operator hc hr⟩
  · cases h with
    | compare hk => rw [hr] at hk; cases hk
    | group hk | merged hk => rw [hc] at hk; cases hk
  · cases h with
    | operator => rfl
    | operand hk => rw [hr] at hk; cases hk
    | group hk | element hk | merged hk => rw [hc] at hk; cases hk

theorem decides_group {α : Type} {key : String} {connective : Connective} {v : Json}
    {result : Except FilterError α} (hk : Connective.ofKey? key = some connective)
    (ha : ∀ items, v ≠ .array items)
    (h : Decides result (Condition.Grammatical v) (Condition.Fault field v)) :
    Decides result (Comparison.Grammatical (key, v)) (Comparison.Fault field (key, v)) := by
  have hr := Relation.ofKey?_of_connective hk
  refine h.congr ⟨fun h => ?_, .group hk ha⟩ fun e => ⟨fun h => ?_, .group hk ha⟩
  · cases h with
    | compare hk' => rw [hr] at hk'; cases hk'
    | group _ _ h => exact h
    | merged => exact absurd rfl (ha _)
  · cases h with
    | operator hc => rw [hk] at hc; cases hc
    | operand hk' => rw [hr] at hk'; cases hk'
    | group _ _ h => exact h
    | element | merged => exact absurd rfl (ha _)

theorem decides_merged {α : Type} {key : String} {connective : Connective} {maps : List Fields}
    {result : Except FilterError α} (hk : Connective.ofKey? key = some connective)
    (h : Decides result (Condition.Grammatical (.object (Fields.ofEntries maps.flatten)))
      (Condition.Fault field (.object (Fields.ofEntries maps.flatten)))) :
    Decides result (Comparison.Grammatical (key, .array (maps.map .object)))
      (Comparison.Fault field (key, .array (maps.map .object))) := by
  have hr := Relation.ofKey?_of_connective hk
  refine h.congr ⟨fun h => ?_, .merged hk⟩ fun e => ⟨fun h => ?_, .merged hk⟩
  · generalize hv : Json.array (maps.map .object) = v at h
    cases h with
    | compare hk' => rw [hr] at hk'; cases hk'
    | group _ ha => exact absurd hv.symm (ha _)
    | merged _ h => rw [mappings_injective (Json.array.inj hv)]; exact h
  · generalize hv : Json.array (maps.map .object) = v at h
    cases h with
    | operator hc => rw [hk] at hc; cases hc
    | operand hk' => rw [hr] at hk'; cases hk'
    | group _ ha => exact absurd hv.symm (ha _)
    | element _ hv' => exact absurd (Json.array.inj hv) (mappings_ne_element hv')
    | merged _ h => rw [mappings_injective (Json.array.inj hv)]; exact h

theorem decides_element {key : String} {connective : Connective} {maps : List Fields} {v : Json}
    {post : List Json} (hk : Connective.ofKey? key = some connective)
    (hv : ∀ fields, v ≠ .object fields) :
    Decides (.error (.notComparisons connective field v.kind) : Except FilterError Comparison)
      (Comparison.Grammatical (key, .array (maps.map .object ++ v :: post)))
      (Comparison.Fault field (key, .array (maps.map .object ++ v :: post))) := by
  have hr := Relation.ofKey?_of_connective hk
  refine .of_error (fun h => ?_) fun e => ⟨fun h => ?_, fun h => h ▸ .element hk hv⟩
  · generalize hw : Json.array (maps.map .object ++ v :: post) = w at h
    cases h with
    | compare hk' => rw [hr] at hk'; cases hk'
    | group _ ha => exact absurd hw.symm (ha _)
    | merged => exact absurd (Json.array.inj hw).symm (mappings_ne_element hv)
  · generalize hw : Json.array (maps.map .object ++ v :: post) = w at h
    cases h with
    | operator hc => rw [hk] at hc; cases hc
    | operand hk' => rw [hr] at hk'; cases hk'
    | group _ ha => exact absurd hw.symm (ha _)
    | element hk' hv' =>
      rw [hk, Option.some.injEq] at hk'
      have hmerge := merge_element field connective maps post hv
      rw [Json.array.inj hw, merge_element _ _ _ _ hv', Except.error.injEq] at hmerge
      rw [← hk', hmerge]
    | merged => exact absurd (Json.array.inj hw).symm (mappings_ne_element hv)

/-- A sequence is decided like its union, which is no larger. -/
theorem decides_sequence {key : String} {connective : Connective} {items : List Json}
    (hk : Connective.ofKey? key = some connective)
    (h : ∀ fields, Json.fieldsSize fields ≤ Json.itemsSize items →
      Decides (Condition.ofJson field (.object fields)).result
        (Condition.Grammatical (.object fields)) (Condition.Fault field (.object fields))) :
    Decides (Comparison.ofJson field key (.array items)).result
      (Comparison.Grammatical (key, .array items))
      (Comparison.Fault field (key, .array items)) := by
  rcases mappings_or_element items with ⟨maps, rfl⟩ | ⟨maps, v, post, rfl, hv⟩
  · rw [comparison_mappings hk]
    exact decides_merged hk ((h _ (fieldsSize_merge (merge_mappings field connective maps))).map _)
  · rw [comparison_element hk maps post hv]
    exact decides_element hk hv

mutual

theorem decides_condition (v : Json) :
    Decides (Condition.ofJson field v).result (Condition.Grammatical v)
      (Condition.Fault field v) := by
  match v with
  | .object entries =>
    rw [Condition.ofJson, Noted.result_map]
    exact (decides_mapping (decides_comparisons entries)).map _
  | .array items =>
    rw [Condition.ofJson]
    exact (decides_list_condition items).map _
  | .null | .bool _ | .number _ | .string _ =>
    rw [condition_scalar field (by trivial)]
    exact (decides_scalar_condition (by trivial)).map _
termination_by 3 * v.size
decreasing_by simp only [Json.size]; omega

theorem decides_comparisons (entries : List (String × Json)) :
    Decides (Comparison.listOfJson field entries).result
      (∀ entry ∈ entries, Comparison.Grammatical entry)
      (FirstFault Comparison.Grammatical (Comparison.Fault field) entries) := by
  match entries with
  | [] =>
    rw [Comparison.listOfJson]
    exact .nil
  | (key, v) :: rest =>
    rw [Comparison.listOfJson, Noted.result_bind]
    simp only [Noted.result_bind]
    exact .cons (decides_comparison key v) (decides_comparisons rest) _
termination_by 3 * Json.fieldsSize entries + 2
decreasing_by
  · simp only [Json.fieldsSize]; omega
  · have : 0 < v.size := by cases v <;> simp only [Json.size] <;> omega
    simp only [Json.fieldsSize]; omega

theorem decides_comparison (key : String) (v : Json) :
    Decides (Comparison.ofJson field key v).result (Comparison.Grammatical (key, v))
      (Comparison.Fault field (key, v)) := by
  cases hc : Connective.ofKey? key with
  | none =>
    cases hr : Relation.ofKey? key with
    | none =>
      rw [comparison_unknown hc hr]
      exact decides_unknown hc hr
    | some relation =>
      rw [comparison_relation hr]
      exact (decides_compare hr).map _
  | some connective =>
    match v with
    | .array items => exact decides_sequence hc fun fields _ => decides_condition (.object fields)
    | .null | .bool _ | .number _ | .string _ | .object _ =>
      rw [comparison_group hc (by simp)]
      exact decides_group hc (by simp) ((decides_condition _).map _)
termination_by 3 * v.size + 1
decreasing_by
  · simp only [Json.size]; omega
  all_goals omega

end

end

/-! ## Filters -/

theorem decides_clause_group {α : Type} {key : String} {connective : Connective} {v : Json}
    {result : Except FilterError α} (hk : Connective.ofKey? key = some connective)
    (h : Decides result (Filter.Grammatical v) (Filter.Fault v)) :
    Decides result (Clause.Grammatical (key, v)) (Clause.Fault (key, v)) := by
  refine h.congr ⟨fun h => ?_, .group hk⟩ fun e => ⟨fun h => ?_, .group hk⟩
  · cases h with
    | group _ h => exact h
    | field hn => rw [isOperatorKey_of_connective hk] at hn; cases hn
  · cases h with
    | operator hc => rw [hk] at hc; cases hc
    | group _ h => exact h
    | field hn => rw [isOperatorKey_of_connective hk] at hn; cases hn

theorem decides_clause_operator {key : String} {v : Json} (hc : Connective.ofKey? key = none)
    (hk : isOperatorKey key = true) :
    Decides (.error (.unsupportedOperator key) : Except FilterError Clause)
      (Clause.Grammatical (key, v)) (Clause.Fault (key, v)) := by
  refine .of_error (fun h => ?_) fun e => ⟨fun h => ?_, fun h => h ▸ .operator hc hk⟩
  · cases h with
    | group hk' => rw [hc] at hk'; cases hk'
    | field hn => rw [hk] at hn; cases hn
  · cases h with
    | operator => rfl
    | group hk' => rw [hc] at hk'; cases hk'
    | field hn => rw [hk] at hn; cases hn

theorem decides_clause_field {α : Type} {name : String} {v : Json} {result : Except FilterError α}
    (hc : Connective.ofKey? name = none) (hn : isOperatorKey name = false)
    (h : Decides result (Condition.Grammatical v) (Condition.Fault name v)) :
    Decides result (Clause.Grammatical (name, v)) (Clause.Fault (name, v)) := by
  refine h.congr ⟨fun h => ?_, .field hn⟩ fun e => ⟨fun h => ?_, .field hn⟩
  · cases h with
    | group hk => rw [hc] at hk; cases hk
    | field _ h => exact h
  · cases h with
    | operator _ hk => rw [hn] at hk; cases hk
    | group hk => rw [hc] at hk; cases hk
    | field _ h => exact h

theorem decides_filter_sequence {α : Type} {items : List Json} {result : Except FilterError α}
    (h : Decides result (∀ v ∈ items, Filter.Grammatical v)
      (FirstFault Filter.Grammatical Filter.Fault items)) :
    Decides result (Filter.Grammatical (.array items)) (Filter.Fault (.array items)) := by
  refine h.congr ⟨fun h => ?_, .sequence⟩ fun e => ⟨fun h => ?_, ?_⟩
  · cases h with
    | sequence h => exact h
  · cases h with
    | kind hs => cases hs
    | sequence hpre h => exact ⟨_, _, _, rfl, hpre, h⟩
  · rintro ⟨pre, v, post, rfl, hpre, h⟩
    exact .sequence hpre h

theorem decides_filter_mapping {α : Type} {entries : List (String × Json)}
    {result : Except FilterError α}
    (h : Decides result (∀ entry ∈ entries, Clause.Grammatical entry)
      (FirstFault Clause.Grammatical Clause.Fault entries)) :
    Decides result (Filter.Grammatical (.object entries)) (Filter.Fault (.object entries)) := by
  refine h.congr ⟨fun h => ?_, .mapping⟩ fun e => ⟨fun h => ?_, ?_⟩
  · cases h with
    | mapping h => exact h
  · cases h with
    | kind hs => cases hs
    | mapping hpre h => exact ⟨_, _, _, rfl, hpre, h⟩
  · rintro ⟨pre, entry, post, rfl, hpre, h⟩
    exact .mapping hpre h

/-- A value that is neither a sequence nor a mapping is no filter unless it is `null`. -/
theorem decides_filter_kind {v : Json} (hs : v.IsScalar) (hn : v ≠ .null) :
    Decides (.error (.nestedKind v.kind) : Except FilterError Filter) (Filter.Grammatical v)
      (Filter.Fault v) := by
  refine .of_error (fun h => ?_) fun e => ⟨fun h => ?_, fun h => h ▸ .kind hs hn⟩
  · cases h with
    | null => exact hn rfl
    | sequence | mapping => cases hs
  · cases h with
    | kind => rfl
    | sequence | mapping => cases hs

mutual

theorem decides_filter : (v : Json) →
    Decides (Filter.ofJson v).result (Filter.Grammatical v) (Filter.Fault v)
  | .null => by
    rw [Filter.ofJson]
    refine .of_ok .null fun e h => ?_
    cases h with
    | kind _ hn => exact hn rfl
  | .object entries => by
    rw [Filter.ofJson, Noted.result_map]
    exact (decides_filter_mapping (decides_clauses entries)).map _
  | .array items => by
    rw [Filter.ofJson, Noted.result_map]
    exact (decides_filter_sequence (decides_filter_items items)).map _
  | .bool _ => decides_filter_kind trivial (by simp)
  | .number _ => decides_filter_kind trivial (by simp)
  | .string _ => decides_filter_kind trivial (by simp)

theorem decides_filter_items : (items : List Json) →
    Decides (Filter.listOfJson items).result (∀ v ∈ items, Filter.Grammatical v)
      (FirstFault Filter.Grammatical Filter.Fault items)
  | [] => .nil
  | v :: rest => by
    rw [Filter.listOfJson]
    simp only [Noted.result_bind]
    exact .cons (decides_filter v) (decides_filter_items rest) _

theorem decides_clauses : (entries : List (String × Json)) →
    Decides (Clause.listOfJson entries).result (∀ entry ∈ entries, Clause.Grammatical entry)
      (FirstFault Clause.Grammatical Clause.Fault entries)
  | [] => .nil
  | (key, v) :: rest => by
    have hrest := decides_clauses rest
    rw [Clause.listOfJson]
    split
    · rename_i connective hk
      simp only [Noted.result_bind, Noted.result_map]
      exact .cons (decides_clause_group hk ((decides_filter v).map _)) hrest _
    · rename_i hc
      split
      · rename_i hk
        simp only [Noted.result_bind]
        exact .cons (decides_clause_operator hc hk) hrest _
      · rename_i hn
        rw [Bool.not_eq_true] at hn
        simp only [Noted.result_bind, Noted.result_map]
        exact .cons (decides_clause_field hc hn ((decides_condition v).map _)) hrest _

end

namespace Filter

theorem decides_root (root : Option Json) :
    Decides (ofRoot root).result (RootGrammatical root) (RootFault root) := by
  match root with
  | none => exact .of_ok .absent fun e h => nomatch h
  | some .null =>
    refine .of_ok .null fun e h => ?_
    cases h with
    | kind hn => exact hn rfl
  | some (.object entries) =>
    have hfilter := decides_filter_mapping (decides_clauses entries)
    rw [ofRoot, Noted.result_bind]
    refine (hfilter.congr ⟨fun h => ?_, .mapping⟩ fun e => ⟨fun h => ?_, .mapping⟩).bind_ok _
    · cases h with
      | mapping h => exact h
    · cases h with
      | kind _ ho => exact absurd rfl (ho entries)
      | mapping h => exact h
  | some (.array _) | some (.bool _) | some (.number _) | some (.string _) =>
    refine .of_error (fun h => nomatch h) fun e =>
      ⟨fun h => ?_, fun h => h ▸ .kind (by simp) (by simp)⟩
    cases h with
    | kind => rfl

/-- Reading a filter, nested or that of a request, succeeds exactly on the grammar, and otherwise
gives the error of the first violation. -/
theorem decides_filters :
    (∀ v, Decides (ofJson v).result (Grammatical v) (Fault v)) ∧
      ∀ root, Decides (ofRoot root).result (RootGrammatical root) (RootFault root) :=
  ⟨decides_filter, decides_root⟩

/-- It is not so that the first violation in the order of the document is the error: the union of a
sequence has an entry at the first place of its key. -/
theorem not_document_order :
    ¬ ∀ (name : String) (connective : Connective) (maps : List Fields)
      (pre post : List (String × Json)) (entry : String × Json) (e : FilterError),
      isOperatorKey name = false → maps.flatten = pre ++ entry :: post →
      entry ∈ Fields.ofEntries maps.flatten → (∀ x ∈ pre, Comparison.Grammatical x) →
      Comparison.Fault name entry e →
      (ofJson (.object [(name, .object [(connective.key, .array (maps.map .object))])])).result =
        .error e := by
  intro hall
  have h := hall "a" .or
    [[("$gt", .number (.integer 1))], [("$bad", .number (.integer 1))], [("$gt", .string "x")]]
    [("$gt", .number (.integer 1))] [("$gt", .string "x")] ("$bad", .number (.integer 1))
    (.unsupportedOperator "$bad") (by decide) rfl ?_ ?_ (.operator (by decide) (by decide))
  · have herror := congrArg errorOf? h
    revert herror
    decide +kernel
  · simp [Fields.ofEntries, Fields.insertAll, Fields.insert]
  · exact List.forall_mem_singleton.mpr (.compare rfl (.number rfl _))

end Filter

end DocStore
