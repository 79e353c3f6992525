import DocStore.Proofs.Filter.Compiled
import DocStore.Proofs.Filter.Tests
import DocStore.Proofs.Filter.WellFormed

/-!
# The structure of filter strings

`Filter.Alike` relates filters, given as JSON values, that have the same form and the same operators
but other texts in their strings and other names of fields. Whatever these texts are, the strings of
such filters have the same marks and balanced parentheses, as long as no name makes a mark by itself
(`marks_of_alike`). Names are written as they are, so a name with a parenthesis does make one
(`not_all_names_inert`).
-/

namespace DocStore

mutual

/-- The values differ in the text of their strings only. -/
inductive Json.Alike : Json → Json → Prop where
  | null : Json.Alike .null .null
  | bool (b : Bool) : Json.Alike (.bool b) (.bool b)
  | number (n : Number) : Json.Alike (.number n) (.number n)
  | string (s t : String) : Json.Alike (.string s) (.string t)
  | array {items items' : List Json} (h : List.Forall₂ Json.Alike items items') :
    Json.Alike (.array items) (.array items')
  | object {fields fields' : Fields} (h : List.Forall₂ Json.EntryAlike fields fields') :
    Json.Alike (.object fields) (.object fields')

inductive Json.EntryAlike : String × Json → String × Json → Prop where
  | entry {key : String} {v v' : Json} (h : Json.Alike v v') : Json.EntryAlike (key, v) (key, v')

end

namespace Filter

mutual

/-- The filters differ in the text of their strings and in the names of their fields only. -/
inductive Alike : Json → Json → Prop where
  | null : Alike .null .null
  | sequence {items items' : List Json} (h : List.Forall₂ Alike items items') :
    Alike (.array items) (.array items')
  | mapping {entries entries' : List (String × Json)}
    (h : List.Forall₂ EntryAlike entries entries') : Alike (.object entries) (.object entries')

inductive EntryAlike : String × Json → String × Json → Prop where
  | operator {key : String} {v v' : Json} (hk : isOperatorKey key = true) (h : Alike v v') :
    EntryAlike (key, v) (key, v')
  | field {name name' : String} {v v' : Json} (hn : isOperatorKey name = false)
    (hn' : isOperatorKey name' = false) (h : Json.Alike v v') : EntryAlike (name, v) (name', v')

end

/-! ## Merged sequences -/

theorem Json.EntryAlike.key_eq {e e' : String × Json} (h : Json.EntryAlike e e') : e.1 = e'.1 := by
  cases h
  rfl

theorem entriesOf_alike {items items' : List Json} (h : List.Forall₂ Json.Alike items items') :
    List.Forall₂ Json.EntryAlike (entriesOf items) (entriesOf items') := by
  induction h with
  | nil => exact .nil
  | cons hv _ ih =>
    cases hv with
    | object hfields => exact List.rel_append hfields ih
    | null | bool _ | number _ | string _ _ | array _ => exact ih

/-- The mappings that sequences stand for are alike if the sequences are. -/
theorem merge_alike {field field' : String} {connective : Connective} {items items' : List Json}
    {fields fields' : Fields} (h : List.Forall₂ Json.Alike items items')
    (hm : (merge field connective items).result = .ok fields)
    (hm' : (merge field' connective items').result = .ok fields') :
    List.Forall₂ Json.EntryAlike fields fields' := by
  rw [merge_ok hm, merge_ok hm']
  exact Fields.insertAll_rel Json.EntryAlike.key_eq .nil (entriesOf_alike h)

/-! ## Marks of outlines -/

namespace Mark

/-- The marks of a group of parts; a group of nothing has none. -/
def grouped (connective : Connective) : List (List Mark) → List (List Mark)
  | [] => []
  | parts => [.opening :: joined connective parts ++ [.closing]]

def equality (negated : Bool) : List Mark := if negated then [.keyword .not, .value] else [.value]

/-- The marks of a comparison with a number of values. -/
def comparison (relation : Relation) (count : Nat) : List (List Mark) :=
  match relation with
  | .equal | .notEqual => [equality relation.isNegative]
  | .oneOf => grouped .or (List.replicate count (equality false))
  | .noneOf => grouped .and (List.replicate count (equality true))
  | _ => [[.range]]

end Mark

/-- The number of values in an operand. -/
def valueCount : Json → Nat
  | .array items => items.length
  | _ => 1

section

variable {text text' : Scalar → String} {attr attr' field field' : String}

theorem map_marks_grouped (connective : Connective) (parts : List Reading) :
    (Outline.grouped connective parts).map Reading.marks =
      Mark.grouped connective (parts.map Reading.marks) := by
  cases parts with
  | nil => rfl
  | cons r rest =>
    show [(Reading.joined connective (r :: rest)).marks] = _
    rw [Reading.marks_joined]
    rfl

theorem map_marks_choice (negated : Bool) (values : List Scalar) :
    (Outline.choice text negated attr values).map Reading.marks =
      Mark.grouped (if negated then .and else .or)
        (List.replicate values.length (Mark.equality negated)) := by
  have hequality : Reading.marks ∘ Outline.equality text negated attr =
      fun _ => Mark.equality negated := by
    funext v
    cases negated <;> rfl
  rw [Outline.choice, map_marks_grouped, List.map_map, hequality, List.map_const']

theorem marks_comparison {relation : Relation} {v : Json} {operand : Operand}
    (h : OperandRead field relation v operand) :
    (Outline.comparison text attr relation operand).map Reading.marks =
      Mark.comparison relation (valueCount v) := by
  cases h with
  | range hr n =>
    rw [comparison_range hr, List.map_singleton, Outline.range]
    cases relation <;> first | rfl | cases hr
  | list hr _ hv =>
    rw [valueCount, hv.length_eq]
    rcases hr with rfl | rfl
    · exact map_marks_choice false _
    · exact map_marks_choice true _
  | single hr hs =>
    have hcount : valueCount v = 1 := by cases v <;> first | rfl | cases hs
    rw [hcount]
    rcases hr with rfl | rfl
    · exact map_marks_choice false [_]
    · exact map_marks_choice true [_]
  | scalar hr _ => rcases hr with rfl | rfl <;> rfl

theorem map_marks_group (connective : Connective) (c : Condition) :
    (Outline.comparisons text attr [.group connective c]).map Reading.marks =
      Mark.grouped connective ((Outline.condition text attr c).map Reading.marks) := by
  rw [Outline.comparisons, Outline.comparisons, List.append_nil, map_marks_grouped]

theorem map_marks_compare {relation : Relation} {v : Json} {operand : Operand}
    (h : OperandRead field relation v operand) :
    (Outline.comparisons text attr [.compare relation operand]).map Reading.marks =
      Mark.comparison relation (valueCount v) := by
  rw [Outline.comparisons, Outline.comparisons, List.append_nil, marks_comparison h]

theorem valueCount_alike {v v' : Json} (h : Json.Alike v v') : valueCount v = valueCount v' := by
  cases h with
  | array h => exact h.length_eq
  | null | bool _ | number _ | string _ _ | object _ => rfl

/-- The entries of comparison mappings have the same marks if the conditions in them have. -/
theorem marks_entry {key : String} {v v' : Json} (hv : Json.Alike v v')
    (hcondition : ∀ w w', w.size ≤ v.size → Json.Alike w w' → ∀ c c',
      (Condition.ofJson field w).result = .ok c → (Condition.ofJson field' w').result = .ok c' →
      (Outline.condition text attr c).map Reading.marks =
        (Outline.condition text' attr' c').map Reading.marks)
    {c c' : Comparison} (h : ComparisonRead field key v c) (h' : ComparisonRead field' key v' c') :
    (Outline.comparisons text attr [c]).map Reading.marks =
      (Outline.comparisons text' attr' [c']).map Reading.marks := by
  cases h with
  | merged fields hk hm hc =>
    cases hv with | array hitems =>
    cases h' with
    | merged fields' hk' hm' hc' =>
      rw [hk, Option.some.injEq] at hk'
      subst hk'
      have hfields : Json.Alike (.object fields) (.object fields') :=
        .object (merge_alike hitems hm hm')
      have hsize : (Json.object fields).size ≤ (Json.array _).size :=
        Nat.add_le_add_left (fieldsSize_merge hm) 1
      rw [map_marks_group, map_marks_group, hcondition _ _ hsize hfields _ _ hc hc']
    | group _ ha _ => exact absurd rfl (ha _)
    | compare hk' _ _ => rw [hk] at hk'; cases hk'
  | group hk ha hc =>
    cases h' with
    | merged _ _ _ _ =>
      cases hv
      exact absurd rfl (ha _)
    | group hk' _ hc' =>
      rw [hk, Option.some.injEq] at hk'
      subst hk'
      rw [map_marks_group, map_marks_group, hcondition _ _ (Nat.le_refl _) hv _ _ hc hc']
    | compare hk' _ _ => rw [hk] at hk'; cases hk'
  | compare hk hr ho =>
    cases h' with
    | merged _ hk' _ _ => rw [hk] at hk'; cases hk'
    | group hk' _ _ => rw [hk] at hk'; cases hk'
    | compare _ hr' ho' =>
      rw [hr, Option.some.injEq] at hr'
      subst hr'
      rw [map_marks_compare ho, map_marks_compare ho', valueCount_alike hv]

mutual

theorem marks_condition {v v' : Json} (hv : Json.Alike v v') {c c' : Condition}
    (h : (Condition.ofJson field v).result = .ok c)
    (h' : (Condition.ofJson field' v').result = .ok c') :
    (Outline.condition text attr c).map Reading.marks =
      (Outline.condition text' attr' c').map Reading.marks := by
  match v, v', hv with
  | .object fields, .object fields', .object hfields =>
    obtain ⟨items, hi, rfl⟩ := condition_object_ok h
    obtain ⟨items', hi', rfl⟩ := condition_object_ok h'
    exact marks_comparisons hfields hi hi'
  | .array _, .array _, .array hitems =>
    obtain ⟨values, hvalues, rfl⟩ := condition_array_ok h
    obtain ⟨values', hvalues', rfl⟩ := condition_array_ok h'
    have hlength : values.length = values'.length := by
      rw [← (listOfJson_ok hvalues).2.length_eq, ← (listOfJson_ok hvalues').2.length_eq,
        hitems.length_eq]
    rw [Outline.condition, Outline.condition, map_marks_choice, map_marks_choice, hlength]
  | _, _, .null | _, _, .bool _ | _, _, .number _ | _, _, .string _ _ =>
    obtain ⟨s, _, rfl⟩ := condition_scalar_ok (by simp) (by simp) h
    obtain ⟨s', _, rfl⟩ := condition_scalar_ok (by simp) (by simp) h'
    rfl
termination_by 2 * v.size
decreasing_by simp only [Json.size]; omega

theorem marks_comparisons {entries entries' : List (String × Json)}
    (he : List.Forall₂ Json.EntryAlike entries entries') {items items' : List Comparison}
    (h : (Comparison.listOfJson field entries).result = .ok items)
    (h' : (Comparison.listOfJson field' entries').result = .ok items') :
    (Outline.comparisons text attr items).map Reading.marks =
      (Outline.comparisons text' attr' items').map Reading.marks := by
  match entries, entries', he with
  | [], [], .nil =>
    rw [Comparison.listOfJson] at h h'
    cases h
    cases h'
    rfl
  | (_, v) :: rest, _ :: _, .cons (.entry hv) hrest =>
    obtain ⟨first, others, hf, ho, rfl⟩ := comparisons_cons_ok h
    obtain ⟨first', others', hf', ho', rfl⟩ := comparisons_cons_ok h'
    have hfirst : (Outline.comparisons text attr [first]).map Reading.marks =
        (Outline.comparisons text' attr' [first']).map Reading.marks :=
      marks_entry hv (fun _ _ hsize hw _ _ => marks_condition hw) (comparison_ok_read hf)
        (comparison_ok_read hf')
    rw [comparisons_cons, comparisons_cons text', List.map_append, List.map_append, hfirst,
      marks_comparisons hrest ho ho']
termination_by 2 * Json.fieldsSize entries + 1
decreasing_by
  · simp only [Json.fieldsSize]; omega
  · have : 0 < v.size := by cases v <;> simp only [Json.size] <;> omega
    simp only [Json.fieldsSize]; omega

end

end

section

variable {text text' : Scalar → String} {schema schema' : Schema}

/-- The keys that are read as connectives are those that start like that of an operator. -/
theorem isSome_ofKey?_of_ok {key : String} {v : Json} {rest : List (String × Json)}
    {items : List Clause} (h : (Clause.listOfJson ((key, v) :: rest)).result = .ok items) :
    (Connective.ofKey? key).isSome = isOperatorKey key := by
  cases hk : Connective.ofKey? key with
  | none => exact (isOperatorKey_of_ok h hk).symm
  | some connective =>
    rw [Connective.eq_key_of_ofKey? hk]
    cases connective <;> decide

mutual

theorem marks_filter {v v' : Json} (hv : Alike v v') {f f' : Filter}
    (h : (Filter.ofJson v).result = .ok f) (h' : (Filter.ofJson v').result = .ok f') :
    (f.outline text schema).map Reading.marks = (f'.outline text' schema').map Reading.marks := by
  match v, v', hv with
  | _, _, .null =>
    rw [Filter.ofJson] at h h'
    cases h
    cases h'
    rfl
  | .array _, .array _, .sequence hitems =>
    obtain ⟨items, hi, rfl⟩ := filter_array_ok h
    obtain ⟨items', hi', rfl⟩ := filter_array_ok h'
    exact marks_filters hitems hi hi'
  | .object _, .object _, .mapping hentries =>
    obtain ⟨items, hi, rfl⟩ := filter_object_ok h
    obtain ⟨items', hi', rfl⟩ := filter_object_ok h'
    exact marks_clauses hentries hi hi'
termination_by 2 * v.size
decreasing_by all_goals simp only [Json.size]; omega

theorem marks_filters {values values' : List Json} (hv : List.Forall₂ Alike values values')
    {items items' : List Filter} (h : (Filter.listOfJson values).result = .ok items)
    (h' : (Filter.listOfJson values').result = .ok items') :
    (sequenceOutline text schema items).map Reading.marks =
      (sequenceOutline text' schema' items').map Reading.marks := by
  match values, values', hv with
  | [], [], .nil =>
    rw [Filter.listOfJson] at h h'
    cases h
    cases h'
    rfl
  | v :: rest, _ :: _, .cons hv hrest =>
    obtain ⟨first, others, hf, ho, rfl⟩ := filters_cons_ok h
    obtain ⟨first', others', hf', ho', rfl⟩ := filters_cons_ok h'
    rw [sequenceOutline, sequenceOutline, List.map_append, List.map_append, marks_filter hv hf hf',
      marks_filters hrest ho ho']
termination_by 2 * Json.itemsSize values + 1
decreasing_by
  all_goals
    have : 0 < v.size := by cases v <;> simp only [Json.size] <;> omega
    simp only [Json.itemsSize]; omega

theorem marks_clauses {entries entries' : List (String × Json)}
    (he : List.Forall₂ EntryAlike entries entries') {items items' : List Clause}
    (h : (Clause.listOfJson entries).result = .ok items)
    (h' : (Clause.listOfJson entries').result = .ok items') :
    (clausesOutline text schema items).map Reading.marks =
      (clausesOutline text' schema' items').map Reading.marks := by
  match entries, entries', he with
  | [], [], .nil =>
    rw [Clause.listOfJson] at h h'
    cases h
    cases h'
    rfl
  | (key, v) :: rest, (key', v') :: _, .cons he hrest =>
    have hsome := isSome_ofKey?_of_ok h
    have hsome' := isSome_ofKey?_of_ok h'
    obtain ⟨first, others, hf, ho, rfl⟩ := clauses_cons_ok h
    obtain ⟨first', others', hf', ho', rfl⟩ := clauses_cons_ok h'
    have hothers := marks_clauses hrest ho ho'
    cases he with
    | operator hk hv =>
      cases hf with
      | field hc _ => simp [hc, hk] at hsome
      | group hc hop =>
        cases hf' with
        | field hc' _ => simp [hc', hk] at hsome'
        | group hc' hop' =>
          rw [hc, Option.some.injEq] at hc'
          subst hc'
          rw [clausesOutline, clausesOutline, List.map_append, List.map_append, map_marks_grouped,
            map_marks_grouped, marks_filter hv hop hop', hothers]
    | field hn hn' hv =>
      cases hf with
      | group hc _ => simp [hc, hn] at hsome
      | field hc hcond =>
        cases hf' with
        | group hc' _ => simp [hc', hn'] at hsome'
        | field hc' hcond' =>
          rw [clausesOutline, clausesOutline, List.map_append, List.map_append,
            marks_condition hv hcond hcond', hothers]
termination_by 2 * Json.fieldsSize entries + 1
decreasing_by
  all_goals
    have : 0 < v.size := by cases v <;> simp only [Json.size] <;> omega
    simp only [Json.fieldsSize]; omega

end

end

/-! ## Filter strings -/

theorem exists_of_compileJson {options : Options} {v : Json} {s : String}
    (h : (compileJson options (some v)).result = .ok (some s)) :
    ∃ f, (Filter.ofJson v).result = .ok f ∧ compile options .and f = .ok (some s) := by
  obtain ⟨root, hroot, h⟩ := Noted.bind_eq_ok h
  cases root with
  | none => cases h
  | some f => exact ⟨f, ofJson_of_ofRoot hroot, h⟩

theorem marks_of_compile {schema : Schema} {connective : Connective} {f : Filter} {s : String}
    (hinert : ∀ name ∈ f.fieldNames, IsInert (schema.attributeOf name))
    (h : compile ⟨schema, true⟩ connective f = .ok (some s)) :
    Balanced s ∧ ∃ marks, Mark.ofText? s = some marks ∧
      marks = Mark.joined connective
        ((f.outline (literal ⟨schema, true⟩) schema).map Reading.marks) ∧
      marks.filter Mark.isTest = f.leaves.flatMap fun l => l.2.marks := by
  obtain ⟨sts, hs, hj⟩ := compile_ok h
  obtain rfl : String.ofList (Statement.writeJoined connective sts) = s := by
    unfold Statement.joined? at hj
    split at hj
    · cases hj
    · exact Option.some.inj hj
  have hmarked := marked_statements hs hinert
  have hscan := Statement.marks_writeJoined hmarked connective []
  have hlevel := Statement.level_writeJoined hmarked connective 0 []
  rw [List.append_nil] at hscan hlevel
  refine ⟨?_, _, ?_, ?_, filter_marks_statements hs connective⟩
  · rw [Balanced, String.toList_ofList, hlevel]
    rfl
  · rw [Mark.ofText?, String.toList_ofList, hscan, Mark.scan, Option.map_some, List.append_nil]
  · rw [← readings_statements f hs, List.map_map]
    rfl

/-- The strings of filters that are alike have balanced parentheses and the same marks, whatever
the texts in them are, if no name makes a mark by itself. The marks are those of the outline of the
filter, with one test for each value and each range of a leaf, and no other. -/
theorem marks_of_alike {schema schema' : Schema} {v v' : Json} {s s' : String} (hv : Alike v v')
    (hinert : ∀ name ∈ namesIn v, IsInert (schema.attributeOf name))
    (hinert' : ∀ name ∈ namesIn v', IsInert (schema'.attributeOf name))
    (h : (compileJson ⟨schema, true⟩ (some v)).result = .ok (some s))
    (h' : (compileJson ⟨schema', true⟩ (some v')).result = .ok (some s')) :
    Balanced s ∧ Balanced s' ∧ ∃ f f' marks,
      (Filter.ofJson v).result = .ok f ∧ (Filter.ofJson v').result = .ok f' ∧
      Mark.ofText? s = some marks ∧ Mark.ofText? s' = some marks ∧
      marks = Mark.joined .and
        ((f.outline (literal ⟨schema, true⟩) schema).map Reading.marks) ∧
      marks.filter Mark.isTest = f.leaves.flatMap (fun l => l.2.marks) ∧
      marks.filter Mark.isTest = f'.leaves.flatMap (fun l => l.2.marks) := by
  obtain ⟨f, hf, hc⟩ := exists_of_compileJson h
  obtain ⟨f', hf', hc'⟩ := exists_of_compileJson h'
  rw [← fieldNames_filter v hf] at hinert
  rw [← fieldNames_filter v' hf'] at hinert'
  obtain ⟨hbalanced, marks, hmarks, houtline, htests⟩ := marks_of_compile hinert hc
  obtain ⟨hbalanced', marks', hmarks', houtline', htests'⟩ := marks_of_compile hinert' hc'
  obtain rfl : marks = marks' := by rw [houtline, houtline', marks_filter hv hf hf']
  exact ⟨hbalanced, hbalanced', f, f', marks, hf, hf', hmarks, hmarks', houtline, htests, htests'⟩

/-- Every kind of test, in nested groups. -/
def calmEntries : List (String × Json) :=
  [("title", .string "t"),
   ("$or", .array [
     .object [("n", .object [
       ("$gte", .number (.integer 3)),
       ("$and", .array [
         .object [("$in", .array [.string "p", .null])],
         .object [("$ne", .string "q")]])])],
     .object [("id", .object [("$nin", .array [.string "r"])])]])]

/-- The same with texts that look like parts of filters. -/
def hostileEntries : List (String × Json) :=
  [("a b:c", .string "x) OR y:(z"),
   ("$or", .array [
     .object [("\\(x y", .object [
       ("$gte", .number (.integer 3)),
       ("$and", .array [
         .object [("$in", .array [.string "\\", .null])],
         .object [("$ne", .string "]) AND ((")]])])],
     .object [("id", .object [("$nin", .array [.string ""])])]])]

theorem alike_hostileEntries : Alike (.object calmEntries) (.object hostileEntries) := by
  refine .mapping (.cons (.field (by decide) (by decide) (.string _ _))
    (.cons (.operator (by decide) (.sequence (.cons ?_ (.cons ?_ .nil)))) .nil))
  · refine .mapping (.cons (.field (by decide) (by decide) (.object (.cons (.entry (.number _))
      (.cons (.entry (.array (.cons ?_ (.cons ?_ .nil)))) .nil)))) .nil)
    · exact .object (.cons (.entry (.array (.cons (.string _ _) (.cons .null .nil)))) .nil)
    · exact .object (.cons (.entry (.string _ _)) .nil)
  · exact .mapping (.cons (.field (by decide) (by decide)
      (.object (.cons (.entry (.array (.cons (.string _ _) .nil))) .nil))) .nil)

theorem marks_of_alike_hostile :
    Alike (.object calmEntries) (.object hostileEntries) ∧
      (∀ name ∈ namesIn (.object calmEntries), IsInert (Schema.text.attributeOf name)) ∧
      (∀ name ∈ namesIn (.object hostileEntries), IsInert (Schema.text.attributeOf name)) ∧
      ∃ s s' marks,
        (compileJson ⟨.text, true⟩ (some (.object calmEntries))).result = .ok (some s) ∧
        (compileJson ⟨.text, true⟩ (some (.object hostileEntries))).result = .ok (some s') ∧
        Balanced s ∧ Balanced s' ∧ Mark.ofText? s = some marks ∧ Mark.ofText? s' = some marks := by
  have hinert : ∀ name ∈ namesIn (.object calmEntries),
      IsInert (Schema.text.attributeOf name) := by
    decide +kernel
  have hinert' : ∀ name ∈ namesIn (.object hostileEntries),
      IsInert (Schema.text.attributeOf name) := by
    decide +kernel
  have hs : (compileJson ⟨.text, true⟩ (some (.object calmEntries))).result.toOption =
      some (some ("__metadata_title:(t) AND (__metadata_n:[3 TO *] OR ((__metadata_n:(p) OR " ++
        "__metadata_n:(null)) AND NOT __metadata_n:(q)) OR (NOT id:(r)))")) := by
    decide +kernel
  have hs' : (compileJson ⟨.text, true⟩ (some (.object hostileEntries))).result.toOption =
      some (some ("__metadata_a b:c:(x\\) OR y\\:\\(z) AND (__metadata_\\(x y:[3 TO *] OR " ++
        "((__metadata_\\(x y:(\\\\) OR __metadata_\\(x y:(null)) AND NOT " ++
        "__metadata_\\(x y:(\\]\\) AND \\(\\()) OR (NOT id:()))")) := by
    decide +kernel
  have h := eq_ok_of_toOption hs
  have h' := eq_ok_of_toOption hs'
  obtain ⟨hbalanced, hbalanced', _, _, marks, _, _, hmarks, hmarks', _⟩ :=
    marks_of_alike alike_hostileEntries hinert hinert' h h'
  exact ⟨alike_hostileEntries, hinert, hinert', _, _, marks, h, h', hbalanced, hbalanced', hmarks,
    hmarks'⟩

/-- It is not so that names make no marks: a name that ends in a parenthesis leaves the string
unbalanced. -/
theorem not_all_names_inert :
    ¬ ∀ (schema : Schema) (v v' : Json) (rename : String → String) (s s' : String),
      Function.Injective rename → namesIn v' = (namesIn v).map rename → Alike v v' →
      (compileJson ⟨schema, true⟩ (some v)).result = .ok (some s) →
      (compileJson ⟨schema, true⟩ (some v')).result = .ok (some s') →
      Balanced s ∧ Balanced s' ∧
        ∃ marks, Mark.ofText? s = some marks ∧ Mark.ofText? s' = some marks := by
  intro hall
  have hs : (compileJson ⟨.content, true⟩ (some (.object [("a", .string "x")]))).result.toOption =
      some (some "__metadata_a:(x)") := by
    decide +kernel
  have hs' : (compileJson ⟨.content, true⟩ (some (.object [("a)", .string "x")]))).result.toOption =
      some (some "__metadata_a):(x)") := by
    decide +kernel
  have hinjective : Function.Injective fun name : String => name ++ ")" := by
    intro a b h
    exact String.append_left_inj ")" |>.mp h
  have halike : Alike (.object [("a", .string "x")]) (.object [("a)", .string "x")]) :=
    .mapping (.cons (.field (by decide) (by decide) (.string _ _)) .nil)
  have hbalanced := (hall .content _ _ _ _ _ hinjective (by decide) halike (eq_ok_of_toOption hs)
    (eq_ok_of_toOption hs')).2.1
  exact absurd hbalanced (by decide)

end Filter

end DocStore
