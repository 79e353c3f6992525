import DocStore.Proofs.Filter.Meaning

/-!
# Filter strings mean what their filters mean

The truth values of the outline of a parsed filter are those of the JSON value it was read from
(`truth_filter`), layer by layer: values, conditions, clauses. Only under a connective over a
sequence of comparison mappings do the two list them in different orders.
-/

namespace DocStore

theorem Connective.holds_perm {connective : Connective} (hc : connective ≠ .not) {a b : List Bool}
    (h : a.Perm b) : connective.holds a = connective.holds b := by
  cases connective with
  | and =>
    rw [holds, holds, Bool.eq_iff_iff, List.all_eq_true, List.all_eq_true]
    simp only [h.mem_iff]
  | or =>
    rw [holds, holds, Bool.eq_iff_iff, List.any_eq_true, List.any_eq_true]
    simp only [h.mem_iff]
  | not => exact absurd rfl hc

theorem Connective.groupValue_perm {connective : Connective} (hc : connective ≠ .not)
    {a b : List Bool} (h : a.Perm b) : connective.groupValue a = connective.groupValue b := by
  cases a with
  | nil => rw [h.nil_eq]
  | cons x a =>
    cases b with
    | nil => exact absurd h.symm.nil_eq (by simp)
    | cons y b => simp only [groupValue, holds_perm hc h]

namespace Filter

variable {schema : Schema} {looser : Connective} {atom : Test → Bool} {attr field : String}

def truthsOf (looser : Connective) (atom : Test → Bool) (rs : List Reading) : List Bool :=
  rs.map (Reading.truth looser atom)

theorem truthsOf_append (a b : List Reading) :
    truthsOf looser atom (a ++ b) = truthsOf looser atom a ++ truthsOf looser atom b :=
  List.map_append ..

theorem truthsOf_grouped (hl : looser ≠ .not) (connective : Connective) (parts : List Reading) :
    truthsOf looser atom (Outline.grouped connective parts) =
      connective.groupValue (truthsOf looser atom parts) := by
  cases parts with
  | nil => rfl
  | cons r rest =>
    have h := Reading.truth_joined hl atom connective (List.cons_ne_nil r rest)
    show [Reading.truth looser atom (.joined connective (r :: rest))] = _
    rw [h]
    rfl

/-! ## Values -/

theorem literal_of_read {v : Json} {s : Scalar} (h : Scalar.ofJson field v = .ok s) :
    literal ⟨schema, true⟩ s = literalOf v := by
  cases v with
  | null => cases h; rfl
  | bool b => cases h; cases b <;> rfl
  | number n => cases h; rfl
  | string s => cases h; rfl
  | array items => cases h
  | object fields => cases h

theorem truth_equality (negated : Bool) {v : Json} {s : Scalar}
    (h : Scalar.ofJson field v = .ok s) :
    (Outline.equality (literal ⟨schema, true⟩) negated attr s).truth looser atom =
      (negated ^^ has atom attr v) := by
  have hliteral : literal ⟨schema, true⟩ s = literalOf v := literal_of_read h
  cases negated <;> simp [Outline.equality, Reading.truth, has, hliteral]

theorem truths_equality (negated : Bool) {items : List Json} {values : List Scalar}
    (h : List.Forall₂ (fun v s => Scalar.ofJson field v = .ok s) items values) :
    truthsOf looser atom (values.map (Outline.equality (literal ⟨schema, true⟩) negated attr)) =
      items.map fun v => negated ^^ has atom attr v := by
  induction h with
  | nil => rfl
  | cons hv _ ih =>
    simp only [truthsOf, List.map_cons, List.map_map, truth_equality negated hv] at ih ⊢
    rw [ih]

theorem truths_choice (hl : looser ≠ .not) (negated : Bool) {items : List Json}
    {values : List Scalar} (hne : values ≠ [])
    (h : List.Forall₂ (fun v s => Scalar.ofJson field v = .ok s) items values) :
    truthsOf looser atom (Outline.choice (literal ⟨schema, true⟩) negated attr values) =
      [negated ^^ items.any (has atom attr)] := by
  rw [Outline.choice, truthsOf_grouped hl, truths_equality negated h]
  cases h with
  | nil => exact absurd rfl hne
  | cons _ _ =>
    cases negated with
    | false => simp [Connective.groupValue, Connective.holds]
    | true =>
      simp [Connective.groupValue, Connective.holds, List.not_any_eq_all_not]

theorem relationValues_range {relation : Relation} (h : relation.isRange = true) (n : Number) :
    relationValues atom attr relation (.number n) =
      [(Outline.range attr relation n).truth looser atom] := by
  cases relation <;> first | rfl | cases h

theorem truths_comparison (hl : looser ≠ .not) {relation : Relation} {v : Json} {operand : Operand}
    (h : OperandRead field relation v operand) :
    truthsOf looser atom (Outline.comparison (literal ⟨schema, true⟩) attr relation operand) =
      relationValues atom attr relation v := by
  cases h with
  | range hr n =>
    have hvalues : relationValues atom attr relation (.number n) =
        [(Outline.range attr relation n).truth looser atom] := relationValues_range hr n
    rw [comparison_range hr, hvalues]
    rfl
  | list hr hne hv =>
    rcases hr with rfl | rfl
    · rw [Outline.comparison, Operand.values, truths_choice hl _ hne hv, Bool.false_xor]; rfl
    · rw [Outline.comparison, Operand.values, truths_choice hl _ hne hv, Bool.true_xor]; rfl
  | single hr hs =>
    rename_i s
    have h (negated : Bool) :
        truthsOf looser atom (Outline.choice (literal ⟨schema, true⟩) negated attr [s]) =
          [negated ^^ [v].any (has atom attr)] :=
      truths_choice hl negated (List.cons_ne_nil _ []) (.cons hs .nil)
    have ha : ∀ items, v ≠ .array items := by rintro items rfl; cases hs
    simp only [List.any_cons, List.any_nil, Bool.or_false] at h
    rcases hr with rfl | rfl
    · rw [Outline.comparison, Operand.values, h, Bool.false_xor, relationValues]
      exact ha
    · rw [Outline.comparison, Operand.values, h, Bool.true_xor, relationValues]
      exact ha
  | scalar hr hs =>
    rcases hr with rfl | rfl
    · rw [Outline.comparison, truthsOf, List.map_singleton, truth_equality _ hs, Bool.false_xor]
      rfl
    · rw [Outline.comparison, truthsOf, List.map_singleton, truth_equality _ hs, Bool.true_xor]
      rfl

/-! ## Conditions -/

/-- The truth values of an entry of a comparison mapping. -/
def comparisonValues (repeats : Repeats) (atom : Test → Bool) (attr key : String) (v : Json) :
    List Bool :=
  match Connective.ofKey? key with
  | some connective => connective.groupValue (groupedValues repeats atom attr v)
  | none =>
    match Relation.ofKey? key with
    | some relation => relationValues atom attr relation v
    | none => []

theorem keyedValues_eq_map (repeats : Repeats) (entries : List (String × Json)) :
    keyedValues repeats atom attr entries =
      entries.map fun e => (e.1, comparisonValues repeats atom attr e.1 e.2) := by
  induction entries with
  | nil => rfl
  | cons e rest ih =>
    obtain ⟨key, v⟩ := e
    rw [keyedValues, ih]; rfl

theorem sequenceValues_eq (repeats : Repeats) (items : List Json) :
    sequenceValues repeats atom attr items = keyedValues repeats atom attr (entriesOf items) := by
  induction items with
  | nil => rfl
  | cons v rest ih =>
    cases v with
    | object fields =>
      simp only [sequenceValues, entriesOf, keyedValues_eq_map, List.map_append, ih]
    | _ => exact ih

/-- Merging a sequence of mappings keeps the last entry with each key. -/
theorem mergedValues_perm (items : List Json) :
    ((keyedValues .last atom attr (Fields.ofEntries (entriesOf items))).flatMap (·.2)).Perm
      (groupedValues .last atom attr (.array items)) := by
  rw [groupedValues, sequenceValues_eq, keyedValues_eq_map, keyedValues_eq_map, Repeats.kept,
    lastOfEach_map fun key v => comparisonValues .last atom attr key v]
  exact ((Fields.ofEntries_perm _).map _).flatMap_right _

theorem entryKeys_eq (entries : List (String × Json)) :
    entryKeys entries = entries.flatMap fun e => e.1 :: keysIn e.2 := by
  induction entries with
  | nil => rfl
  | cons e rest ih => rw [entryKeys, ih]; rfl

theorem entryKeys_entriesOf {key : String} {items : List Json}
    (h : key ∈ entryKeys (entriesOf items)) : key ∈ itemKeys items := by
  induction items with
  | nil => exact h
  | cons v rest ih =>
    cases v with
    | object fields =>
      rw [entriesOf, entryKeys_eq, List.flatMap_append, List.mem_append, ← entryKeys_eq,
        ← entryKeys_eq] at h
      rw [itemKeys, keysIn, List.mem_append]
      exact h.imp_right ih
    | _ => exact List.mem_append_right _ (ih h)

theorem entryKeys_ofEntries {key : String} {entries : List (String × Json)}
    (h : key ∈ entryKeys (Fields.ofEntries entries)) : key ∈ entryKeys entries := by
  rw [entryKeys_eq, List.mem_flatMap] at h ⊢
  obtain ⟨e, he, hk⟩ := h
  exact ⟨e, (lastOfEach_sublist _).subset ((Fields.ofEntries_perm _).mem_iff.mp he), hk⟩

theorem comparisons_cons (text : Scalar → String) (c : Comparison) (rest : List Comparison) :
    Outline.comparisons text attr (c :: rest) =
      Outline.comparisons text attr [c] ++ Outline.comparisons text attr rest := by
  cases c <;> simp only [Outline.comparisons, List.append_nil]

mutual

/-- A condition says what the value says that it was read from. -/
theorem truths_condition (hl : looser ≠ .not) (v : Json) (hn : "$not" ∉ keysIn v) {c : Condition}
    (h : (Condition.ofJson field v).result = .ok c) :
    truthsOf looser atom (Outline.condition (literal ⟨schema, true⟩) attr c) =
      fieldValues .last atom attr v := by
  match v with
  | .object entries =>
    obtain ⟨items, hi, rfl⟩ := condition_object_ok h
    exact truths_comparisons hl entries hn hi
  | .array items =>
    obtain ⟨values, hv, rfl⟩ := condition_array_ok h
    obtain ⟨hne, hall⟩ := listOfJson_ok hv
    rw [Outline.condition, truths_choice hl _ hne hall, Bool.false_xor]; rfl
  | .null | .bool _ | .number _ | .string _ =>
    obtain ⟨s, hs, rfl⟩ := condition_scalar_ok (by simp) (by simp) h
    rw [Outline.condition, truthsOf, List.map_singleton, truth_equality _ hs, Bool.false_xor]; rfl
termination_by 3 * v.size
decreasing_by simp only [Json.size]; omega

theorem truths_comparisons (hl : looser ≠ .not) (entries : List (String × Json))
    (hn : "$not" ∉ entryKeys entries) {items : List Comparison}
    (h : (Comparison.listOfJson field entries).result = .ok items) :
    truthsOf looser atom (Outline.comparisons (literal ⟨schema, true⟩) attr items) =
      (keyedValues .last atom attr entries).flatMap (·.2) := by
  match entries with
  | [] =>
    rw [Comparison.listOfJson] at h
    cases h
    rfl
  | (key, v) :: rest =>
    obtain ⟨first, others, hf, ho, rfl⟩ := comparisons_cons_ok h
    simp only [entryKeys, List.cons_append, List.mem_cons, List.mem_append, not_or] at hn
    rw [comparisons_cons, truthsOf_append, truths_comparisons hl rest hn.2.2 ho,
      truths_entry hl key v hn.1 hn.2.1 (comparison_ok_read hf)]
    rfl
termination_by 3 * Json.fieldsSize entries + 2
decreasing_by
  · have : 0 < v.size := by cases v <;> simp only [Json.size] <;> omega
    simp only [Json.fieldsSize]; omega
  · simp only [Json.fieldsSize]; omega

theorem truths_entry (hl : looser ≠ .not) (key : String) (v : Json) (hk : "$not" ≠ key)
    (hn : "$not" ∉ keysIn v) {c : Comparison} (h : ComparisonRead field key v c) :
    truthsOf looser atom (Outline.comparisons (literal ⟨schema, true⟩) attr [c]) =
      comparisonValues .last atom attr key v := by
  match v, c, h with
  | .array items, .group connective c, .merged fields hk' hm hc =>
    have hnot : connective ≠ .not := fun h => hk (by rw [Connective.eq_key_of_ofKey? hk', h]; rfl)
    have hfields : fields = Fields.ofEntries (entriesOf items) := merge_ok hm
    have hm' : "$not" ∉ keysIn (.object fields) := fun h =>
      hn (entryKeys_entriesOf (entryKeys_ofEntries (hfields ▸ h)))
    rw [Outline.comparisons, Outline.comparisons, List.append_nil, truthsOf_grouped hl,
      truths_condition hl (.object fields) hm' hc, comparisonValues, hk', hfields]
    exact Connective.groupValue_perm hnot (mergedValues_perm items)
  | v, .group connective c, .group hk' ha hc =>
    rw [Outline.comparisons, Outline.comparisons, List.append_nil, truthsOf_grouped hl,
      truths_condition hl v hn hc, comparisonValues, hk', fieldValues]
    exact ha
  | v, .compare relation operand, .compare hk' hr ho =>
    rw [Outline.comparisons, Outline.comparisons, List.append_nil, truths_comparison hl ho,
      comparisonValues, hk', hr]
termination_by 3 * v.size + 1
decreasing_by
  · have := fieldsSize_merge hm
    simp only [Json.size]; omega
  · omega

end

/-! ## Clauses -/

mutual

theorem truths_filter (hl : looser ≠ .not) : (v : Json) → "$not" ∉ keysIn v → {f : Filter} →
    (Filter.ofJson v).result = .ok f →
    truthsOf looser atom (f.outline (literal ⟨schema, true⟩) schema) =
      filterValues .last schema atom v
  | .object entries, hn, _, h => by
    obtain ⟨items, hi, rfl⟩ := filter_object_ok h
    exact truths_clauses hl entries hn hi
  | .array values, hn, _, h => by
    obtain ⟨items, hi, rfl⟩ := filter_array_ok h
    exact truths_filters hl values hn hi
  | .null, _, _, h => by rw [Filter.ofJson] at h; cases h; rfl
  | .bool _, _, _, h => by simp [Filter.ofJson, Noted.fail] at h
  | .number _, _, _, h => by simp [Filter.ofJson, Noted.fail] at h
  | .string _, _, _, h => by simp [Filter.ofJson, Noted.fail] at h

theorem truths_filters (hl : looser ≠ .not) : (values : List Json) → "$not" ∉ itemKeys values →
    {items : List Filter} → (Filter.listOfJson values).result = .ok items →
    truthsOf looser atom (sequenceOutline (literal ⟨schema, true⟩) schema items) =
      itemValues .last schema atom values
  | [], _, _, h => by rw [Filter.listOfJson] at h; cases h; rfl
  | v :: rest, hn, _, h => by
    obtain ⟨first, others, hf, ho, rfl⟩ := filters_cons_ok h
    simp only [itemKeys, List.mem_append, not_or] at hn
    rw [sequenceOutline, truthsOf_append, truths_filter hl v hn.1 hf,
      truths_filters hl rest hn.2 ho, itemValues]

theorem truths_clauses (hl : looser ≠ .not) : (entries : List (String × Json)) →
    "$not" ∉ entryKeys entries → {items : List Clause} →
    (Clause.listOfJson entries).result = .ok items →
    truthsOf looser atom (clausesOutline (literal ⟨schema, true⟩) schema items) =
      entryValues .last schema atom entries
  | [], _, _, h => by rw [Clause.listOfJson] at h; cases h; rfl
  | (key, v) :: rest, hn, _, h => by
    obtain ⟨first, others, hf, ho, rfl⟩ := clauses_cons_ok h
    simp only [entryKeys, List.cons_append, List.mem_cons, List.mem_append, not_or] at hn
    have hrest := truths_clauses hl rest hn.2.2 ho
    cases hf with
    | group hk hop =>
      rw [clausesOutline, truthsOf_append, truthsOf_grouped hl, truths_filter hl v hn.2.1 hop,
        hrest, entryValues, hk]
    | field hk hc =>
      rw [clausesOutline, truthsOf_append, truths_condition hl v hn.2.1 hc, hrest, entryValues, hk]

end

mutual

theorem fieldNames_filter : (v : Json) → {f : Filter} → (Filter.ofJson v).result = .ok f →
    f.fieldNames = namesIn v
  | .object entries, _, h => by
    obtain ⟨items, hi, rfl⟩ := filter_object_ok h
    exact fieldNames_clauses entries hi
  | .array values, _, h => by
    obtain ⟨items, hi, rfl⟩ := filter_array_ok h
    exact fieldNames_filters values hi
  | .null, _, h => by rw [Filter.ofJson] at h; cases h; rfl
  | .bool _, _, h => by simp [Filter.ofJson, Noted.fail] at h
  | .number _, _, h => by simp [Filter.ofJson, Noted.fail] at h
  | .string _, _, h => by simp [Filter.ofJson, Noted.fail] at h

theorem fieldNames_filters : (values : List Json) → {items : List Filter} →
    (Filter.listOfJson values).result = .ok items → sequenceNames items = itemNames values
  | [], _, h => by rw [Filter.listOfJson] at h; cases h; rfl
  | v :: rest, _, h => by
    obtain ⟨first, others, hf, ho, rfl⟩ := filters_cons_ok h
    rw [sequenceNames, fieldNames_filter v hf, fieldNames_filters rest ho, itemNames]

theorem fieldNames_clauses : (entries : List (String × Json)) → {items : List Clause} →
    (Clause.listOfJson entries).result = .ok items → clauseNames items = entryNames entries
  | [], _, h => by rw [Clause.listOfJson] at h; cases h; rfl
  | (key, v) :: rest, _, h => by
    obtain ⟨first, others, hf, ho, rfl⟩ := clauses_cons_ok h
    cases hf with
    | group hk hop =>
      rw [clauseNames, fieldNames_filter v hop, fieldNames_clauses rest ho, entryNames, hk]
    | field hk hc => rw [clauseNames, fieldNames_clauses rest ho, entryNames, hk]; rfl

end

/-! ## Filters of requests -/

/-- What compiling the filter of a request gives: nothing for a filter that says nothing, else the
string of its clauses under `AND`. -/
theorem compileJson_ok {options : Options} {entries : List (String × Json)} {r : Option String}
    (h : (compileJson options (some (.object entries))).result = .ok r) :
    ∃ items, (Clause.listOfJson entries).result = .ok items ∧
      ((r = none ∧ (Filter.clauses items).isEmpty = true) ∨
        compile options .and (.clauses items) = .ok r) := by
  obtain ⟨root, hroot, h⟩ := Noted.bind_eq_ok h
  obtain ⟨items, hi, hempty⟩ := Noted.bind_eq_ok hroot
  refine ⟨items, hi, ?_⟩
  simp only [pure, Except.ok.injEq] at hempty
  split at hempty
  · rename_i he
    subst hempty
    cases h
    exact .inl ⟨rfl, he⟩
  · subst hempty
    exact .inr h

/-- A mapping whose clauses say something is compiled to the string of their statements. -/
theorem compileJson_of_statements {options : Options} {entries : List (String × Json)}
    {items : List Clause} {sts : List Statement}
    (hi : (Clause.listOfJson entries).result = .ok items)
    (hs : clauseStatements options items = .ok sts) (hne : sts ≠ []) :
    (compileJson options (some (.object entries))).result = .ok (Statement.joined? .and sts) := by
  have hempty : (Filter.clauses items).isEmpty = false := by
    rw [← Bool.not_eq_true]
    intro he
    have hreadings := readings_statements (.clauses items) hs
    rw [outline_of_isEmpty _ _ _ he, List.map_eq_nil_iff] at hreadings
    exact hne hreadings
  have hroot : (ofRoot (some (.object entries))).result = .ok (some (.clauses items)) := by
    rw [ofRoot, Noted.bind_of_ok hi]
    show Except.ok (if (Filter.clauses items).isEmpty then none else some _) = _
    rw [hempty]
    rfl
  rw [compileJson, Noted.bind_of_ok hroot]
  show compile options .and (.clauses items) = _
  rw [compile, statements, hs]
  rfl

theorem statements_of_compileJson {options : Options} {entries : List (String × Json)} {r : String}
    (h : (compileJson options (some (.object entries))).result = .ok (some r)) :
    ∃ items sts, (Clause.listOfJson entries).result = .ok items ∧
      clauseStatements options items = .ok sts ∧ sts ≠ [] ∧ Statement.joined? .and sts = some r := by
  obtain ⟨items, hi, ⟨hr, _⟩ | hc⟩ := compileJson_ok h
  · cases hr
  · obtain ⟨sts, hs, hj⟩ := compile_ok hc
    refine ⟨items, sts, hi, hs, ?_, hj⟩
    rintro rfl
    cases hj

/-- Under `AND` and `OR`, of whichever precedence, the string of a filter holds when the filter
does. A sequence of comparison mappings on one field means what its last entries for each key
mean. -/
theorem truth_of_compileJson {schema : Schema} {entries : List (String × Json)} {r : Option String}
    {looser : Connective} (hl : looser ≠ .not)
    (hnames : ∀ name ∈ entryNames entries, isPlainName name = true)
    (hnot : "$not" ∉ entryKeys entries)
    (h : (compileJson ⟨schema, true⟩ (some (.object entries))).result = .ok r)
    (atom : Test → Bool) :
    (r = none ∧ meaning .last schema atom entries = none) ∨
      ∃ s holds, r = some s ∧ meaning .last schema atom entries = some holds ∧
        truth? looser atom s = some holds := by
  obtain ⟨items, hi, hr⟩ := compileJson_ok h
  have htruth : truthsOf looser atom (clausesOutline (literal ⟨schema, true⟩) schema items) =
      entryValues .last schema atom entries := truths_clauses hl entries hnot hi
  have hempty : clausesOutline (literal ⟨schema, true⟩) schema items = [] →
      meaning .last schema atom entries = none := by
    intro ho
    rw [meaning, ← htruth, ho]; rfl
  rcases hr with ⟨hr, he⟩ | hc
  · exact .inl ⟨hr, hempty (outline_of_isEmpty _ schema (.clauses items) he)⟩
  · have hplain : ∀ name ∈ (Filter.clauses items).fieldNames, isPlainName name = true := by
      rw [fieldNames, fieldNames_clauses entries hi]; exact hnames
    rcases ofText?_compile hplain hc with ⟨hr, ho⟩ | ⟨s, hr, hne, hread⟩
    · exact .inl ⟨hr, hempty ho⟩
    · refine .inr ⟨s, Connective.and.holds (entryValues .last schema atom entries), hr, ?_, ?_⟩
      · rw [meaning, ← htruth]
        split
        · rename_i hnil
          exact absurd (List.map_eq_nil_iff.mp hnil) hne
        · rfl
      · rw [truth?, hread, Option.map_some, Reading.truth_joined hl atom .and hne, ← htruth]
        rfl

/-- A field under two connectives, one of them over a sequence that repeats a key. -/
def nestedEntries : List (String × Json) :=
  [("title", .string "a) OR b:(c"),
   ("$or", .array [
     .object [("n", .object [
       ("$gte", .number (.integer 3)),
       ("$or", .array [
         .object [("$in", .array [.null, .bool true]), ("$ne", .string "x")],
         .object [("$ne", .string "y")]])])],
     .object [("id", .object [("$nin", .array [.string "p", .string "q"])])]])]

theorem truth_of_compileJson_nested :
    (∀ name ∈ entryNames nestedEntries, isPlainName name = true) ∧
      "$not" ∉ entryKeys nestedEntries ∧
      ∃ s, (compileJson ⟨.text, true⟩ (some (.object nestedEntries))).result = .ok (some s) ∧
        ∀ atom : Test → Bool, ∃ holds, meaning .last .text atom nestedEntries = some holds ∧
          truth? .or atom s = some holds := by
  have hnames : ∀ name ∈ entryNames nestedEntries, isPlainName name = true := by decide
  have hnot : "$not" ∉ entryKeys nestedEntries := by decide
  have hs : (compileJson ⟨.text, true⟩ (some (.object nestedEntries))).result.toOption =
      some (some ("__metadata_title:(a\\) OR b\\:\\(c) AND (__metadata_n:[3 TO *] OR " ++
        "((__metadata_n:(null) OR __metadata_n:(true)) OR NOT __metadata_n:(y)) OR " ++
        "(NOT id:(p) AND NOT id:(q)))")) := by
    decide +kernel
  have h := eq_ok_of_toOption hs
  refine ⟨hnames, hnot, _, h, fun atom => ?_⟩
  rcases truth_of_compileJson (show Connective.or ≠ .not by decide) hnames hnot h atom with
    ⟨hr, _⟩ | ⟨s, holds, hr, hm, ht⟩
  · cases hr
  · cases hr
    exact ⟨holds, hm, ht⟩

/-- Two values for one attribute, in a sequence under `$or`. -/
def repeatedEntries : List (String × Json) :=
  [("a", .object [("$or", .array [.object [("$eq", .number (.integer 1))],
    .object [("$eq", .number (.integer 2))]])])]

/-- It is not so that all the entries of a sequence of comparison mappings count: of the two values
the string asks for the last one only. -/
theorem not_all_repeats_count :
    ¬ ∀ (schema : Schema) (entries : List (String × Json)) (r : Option String)
      (looser : Connective), looser ≠ .not →
      (∀ name ∈ entryNames entries, isPlainName name = true) → "$not" ∉ entryKeys entries →
      (compileJson ⟨schema, true⟩ (some (.object entries))).result = .ok r →
      ∀ atom : Test → Bool, (r = none ∧ meaning .all schema atom entries = none) ∨
        ∃ s holds, r = some s ∧ meaning .all schema atom entries = some holds ∧
          truth? looser atom s = some holds := by
  intro hall
  have hs : (compileJson ⟨.content, true⟩ (some (.object repeatedEntries))).result.toOption =
      some (some "(__metadata_a:(2))") := by
    decide +kernel
  let isOne : Test → Bool := fun t => decide (t = .equals "__metadata_a" "1")
  have hm : meaning .all .content isOne repeatedEntries = some true := by decide +kernel
  have ht : truth? .or isOne "(__metadata_a:(2))" = some false := by decide +kernel
  rcases hall .content repeatedEntries _ .or (by decide) (by decide) (by decide)
    (eq_ok_of_toOption hs) isOne with ⟨hr, _⟩ | ⟨s, holds, hr, hm', ht'⟩
  · cases hr
  · cases hr
    rw [hm, Option.some.injEq] at hm'
    rw [ht, Option.some.injEq, ← hm'] at ht'
    cases ht'

end Filter

end DocStore
