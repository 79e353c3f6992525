import DocStore.Proofs.Document.Stored
import DocStore.Proofs.Filter.Compiled
import DocStore.Proofs.Filter.Tests

/-!
# Attributes that filters test

A filter tests nothing but the attributes that its fields mean, and different fields mean different
attributes (`Filter.addresses`). The attribute that a metadata key means holds what is stored under
the key, as long as the schema does not reserve the name for a built-in attribute
(`Document.find?_toStored`).
-/

namespace DocStore

/-! ## Fields and attributes -/

namespace Schema

variable {schema : Schema}

/-- Reserved names are not marked. -/
theorem keyOf?_of_isReserved {field : String} (h : schema.isReserved field = true) :
    Metadata.keyOf? field = none := by
  have hall : ∀ name ∈ schema.reservedFields, Metadata.keyOf? name = none := by
    cases schema <;> decide
  exact hall field (List.contains_iff_mem.mp h)

theorem attributeOf_of_isReserved {field : String} (h : schema.isReserved field = true) :
    schema.attributeOf field = field := if_pos h

theorem attributeOf_of_not_isReserved {field : String} (h : schema.isReserved field = false) :
    schema.attributeOf field = Metadata.attributeOf field := by
  rw [attributeOf, h, if_neg Bool.false_ne_true]

theorem ne_attributeOf_of_isReserved {field : String} (h : schema.isReserved field = true)
    (key : String) : field ≠ Metadata.attributeOf key := by
  rintro rfl
  have := keyOf?_of_isReserved h
  rw [Metadata.keyOf?_attributeOf] at this
  cases this

theorem attributeOf_injective (schema : Schema) : Function.Injective schema.attributeOf := by
  intro a b hab
  cases ha : schema.isReserved a with
  | true =>
    rw [attributeOf_of_isReserved ha] at hab
    cases hb : schema.isReserved b with
    | true => rwa [attributeOf_of_isReserved hb] at hab
    | false =>
      rw [attributeOf_of_not_isReserved hb] at hab
      exact absurd hab (ne_attributeOf_of_isReserved ha b)
  | false =>
    rw [attributeOf_of_not_isReserved ha] at hab
    cases hb : schema.isReserved b with
    | true =>
      rw [attributeOf_of_isReserved hb] at hab
      exact absurd hab.symm (ne_attributeOf_of_isReserved hb a)
    | false =>
      rw [attributeOf_of_not_isReserved hb] at hab
      exact Metadata.attributeOf_injective hab

end Schema

/-! ## Attributes in filter strings -/

namespace Filter

open Statement

/-- The string joins the statements of the clauses that the mapping is read as. The tests in them
are those of the leaves, each of the attribute that the name of its field means. If names are plain
and literals are escaped, the string is read as these statements. -/
structure Written (options : Options) (entries : List (String × Json)) (s : String)
    (items : List Clause) (sts : List Statement) : Prop where
  clauses : (Clause.listOfJson entries).result = .ok items
  statements : clauseStatements options items = .ok sts
  text : joined? .and sts = some s
  tests : testsOf sts = (Clause.leavesOf items).flatMap (leafTests options)
  names : ∀ leaf ∈ Clause.leavesOf items, leaf.1 ∈ entryNames entries
  reading : options.escapeValues = true → (∀ name ∈ entryNames entries, isPlainName name = true) →
    Reading.ofText? s = some (.joined .and (sts.map Statement.reading))

def equalityText (options : Options) (field : String) (value : Scalar) : String :=
  options.schema.attributeOf field ++ ":(" ++ literal options value ++ ")"

/-- Filters test the attributes that the names of their fields mean. -/
structure Addresses (options : Options) : Prop where
  injective : Function.Injective options.schema.attributeOf
  written : ∀ entries s, (compileJson options (some (.object entries))).result = .ok (some s) →
    ∃ items sts, Written options entries s items sts
  equality : ∀ field v value, Scalar.ofJson field v = .ok value → ∀ s,
    (compileJson options (some (.object [(field, v)]))).result = .ok (some s) ↔
      isOperatorKey field = false ∧ s = equalityText options field value
  reading : options.escapeValues = true → ∀ field, isPlainName field = true → ∀ value,
    Reading.ofText? (equalityText options field value) =
      some (.joined .and [.test (.equals (options.schema.attributeOf field) (literal options value))])

section

variable {options : Options}

theorem written_of_compileJson {entries : List (String × Json)} {s : String}
    (h : (compileJson options (some (.object entries))).result = .ok (some s)) :
    ∃ items sts, Written options entries s items sts := by
  obtain ⟨items, sts, hi, hs, _, hj⟩ := statements_of_compileJson h
  have hnames := fieldNames_clauses entries hi
  refine ⟨items, sts, hi, hs, hj, tests_clauses items hs, ?_, fun hescape hplain => ?_⟩
  · rw [← hnames]
    exact name_of_leaf_clauses items
  · obtain ⟨schema, escapeValues⟩ := options
    subst hescape
    rw [← hnames] at hplain
    exact Reading.ofText?_joined? hj (legible_clauses items hplain hs)

theorem joined?_equality (options : Options) (field : String) (value : Scalar) :
    joined? .and [equals options false (options.schema.attributeOf field) value] =
      some (equalityText options field value) := by
  rw [joined?, List.isEmpty_cons, if_neg Bool.false_ne_true, equalityText, Option.some.injEq,
    String.ext_iff]
  simp [writeJoined, equals, write]

/-- A value under the key of an operator makes no string: it is `null`, or it is refused. -/
theorem isOperatorKey_of_compileJson {field : String} {v : Json} {value : Scalar} {s : String}
    (hv : Scalar.ofJson field v = .ok value)
    (h : (compileJson options (some (.object [(field, v)]))).result = .ok (some s)) :
    isOperatorKey field = false := by
  obtain ⟨items, sts, hi, hs, hne, _⟩ := statements_of_compileJson h
  obtain ⟨first, others, hf, ho, rfl⟩ := clauses_cons_ok hi
  cases hf with
  | field hk _ => exact isOperatorKey_of_ok hi hk
  | group _ hoperand =>
    cases ho
    cases v with
    | null =>
      cases hoperand
      cases hs
      exact absurd rfl hne
    | bool _ => cases hoperand
    | number _ => cases hoperand
    | string _ => cases hoperand
    | array _ => cases hv
    | object _ => cases hv

theorem listOfJson_equality {field : String} {v : Json} {value : Scalar}
    (hk : isOperatorKey field = false) (hv : Scalar.ofJson field v = .ok value) :
    (Clause.listOfJson [(field, v)]).result = .ok [.field field (.scalar value)] := by
  have hscalar : v.IsScalar := by
    cases v with
    | array _ => cases hv
    | object _ => cases hv
    | _ => trivial
  have hcondition : (Condition.ofJson field v).result = .ok (.scalar value) := by
    rw [condition_scalar field hscalar, hv]
    rfl
  rw [Clause.listOfJson, Connective.ofKey?_of_name hk, hk]
  dsimp only
  rw [if_neg Bool.false_ne_true, Noted.bind_of_ok (Noted.map_of_ok hcondition _)]
  rfl

theorem compileJson_equality {field : String} {v : Json} {value : Scalar}
    (hk : isOperatorKey field = false) (hv : Scalar.ofJson field v = .ok value) :
    (compileJson options (some (.object [(field, v)]))).result =
      .ok (some (equalityText options field value)) := by
  rw [compileJson_of_statements (listOfJson_equality hk hv) rfl (List.cons_ne_nil _ _)]
  exact congrArg _ (joined?_equality options field value)

theorem ofText?_equalityText (schema : Schema) {field : String} (h : isPlainName field = true)
    (value : Scalar) :
    Reading.ofText? (equalityText ⟨schema, true⟩ field value) =
      some (.joined .and
        [.test (.equals (schema.attributeOf field) (literal ⟨schema, true⟩ value))]) :=
  Reading.ofText?_joined? (joined?_equality ⟨schema, true⟩ field value)
    ⟨legible_equals (isAttribute_attributeOf h schema) false value, trivial⟩

theorem addresses (options : Options) : Addresses options where
  injective := options.schema.attributeOf_injective
  written := fun _ _ => written_of_compileJson
  equality := by
    intro field v value hv s
    constructor
    · intro h
      have hk := isOperatorKey_of_compileJson hv h
      rw [compileJson_equality hk hv, Except.ok.injEq, Option.some.injEq] at h
      exact ⟨hk, h.symm⟩
    · rintro ⟨hk, rfl⟩
      exact compileJson_equality hk hv
  reading := by
    obtain ⟨schema, escapeValues⟩ := options
    rintro hescape field hplain value
    cases hescape
    exact ofText?_equalityText schema hplain value

end

end Filter

/-! ## Attributes of stored documents -/

theorem Metadata.find?_marked_attributeOf (metadata : Fields) (key : String) :
    Fields.find? (marked metadata) (attributeOf key) = metadata.find? key := by
  induction metadata with
  | nil => rfl
  | cons e rest ih =>
    rw [marked, List.map_cons, Fields.find?_cons, Fields.find?_cons]
    simp only [attributeOf_injective.eq_iff]
    split
    · rfl
    · exact ih

theorem Fields.find?_eq_none_of_not_mem {fields : Fields} {key : String}
    (h : key ∉ fields.keys) : fields.find? key = none := by
  induction fields with
  | nil => rfl
  | cons e rest ih =>
    simp only [keys, List.map_cons, List.mem_cons, not_or] at h
    rw [find?_cons, if_neg h.1, ih h.2]

namespace Document

variable {d : Document} {schema : Schema}

theorem find?_record_attributeOf (text? : Option String) (key : String) :
    (d.record schema text?).find? (Metadata.attributeOf key) = d.metadata.find? key := by
  have hbuiltin : Metadata.attributeOf key ∉ (d.builtin schema text?).keys := by
    intro hmem
    have := keyOf?_of_mem_builtin schema text? hmem
    rw [Metadata.keyOf?_attributeOf] at this
    cases this
  rw [record, Fields.find?_append, Fields.find?_eq_none_of_not_mem hbuiltin, Option.none_or,
    Metadata.find?_marked_attributeOf]

/-- What is stored of a document holds its metadata under the attributes that their keys mean, but
for reserved names: these mean the built-in attribute of that name, which the document may not
have. -/
structure Found (d : Document) (directory : Option WorkingDirectory) (schema : Schema)
    (fields : Fields) : Prop where
  stored : d.toStored directory schema = .ok (.object fields)
  marked : ∀ key value, d.metadata.find? key = some value →
    fields.find? (Metadata.attributeOf key) = some value
  metadata : ∀ key value, d.metadata.find? key = some value → schema.isReserved key = false →
    fields.find? (schema.attributeOf key) = some value
  reserved : ∀ key, schema.isReserved key = true →
    fields.find? (schema.attributeOf key) = (d.builtin schema (d.text? directory)).find? key

theorem found_record {directory : Option WorkingDirectory}
    (htext : ∀ c ∈ d.content, c.HasText directory) (hkeys : d.metadata.keys.Nodup)
    (schema : Schema) : d.Found directory schema (d.record schema (d.text? directory)) where
  stored := toStored_of_hasText htext hkeys schema
  marked := fun key value h => by rw [find?_record_attributeOf, h]
  metadata := fun key value h hr => by
    rw [Schema.attributeOf_of_not_isReserved hr, find?_record_attributeOf, h]
  reserved := fun key hr => by
    rw [Schema.attributeOf_of_isReserved hr,
      find?_record schema (d.text? directory) (Schema.keyOf?_of_isReserved hr)]

/-- Filters test attributes by the names of their fields, and where a document is stored, they find
there what is stored under the key. Documents are not stored if they have a media file under a path
without an absolute form. -/
theorem find?_toStored (hkeys : d.metadata.keys.Nodup) (options : Filter.Options)
    (directory : Option WorkingDirectory) :
    Filter.Addresses options ∧
    ((∃ c ∈ d.content, ¬ c.HasText directory) ∧
        d.toStored directory options.schema = .error .file ∨
      (∀ c ∈ d.content, c.HasText directory) ∧
        ∃ fields, d.Found directory options.schema fields) := by
  refine ⟨Filter.addresses options, ?_⟩
  by_cases htext : ∀ c ∈ d.content, c.HasText directory
  · exact .inr ⟨htext, _, found_record htext hkeys options.schema⟩
  · push Not at htext
    obtain ⟨c, hc, hne⟩ := htext
    exact .inl ⟨⟨c, hc, hne⟩, toStored_of_not_hasText hc hne⟩

/-- Fields by the names of `trickyDocument`, with a value that closes its parenthesis. -/
def trickyEntries : List (String × Json) :=
  [("$not", .array [.object [("__metadata_id", .string "a) OR b:(c")],
    .object [("", .array [.null, .bool true])]])]

theorem find?_toStored_tricky :
    trickyDocument.metadata.keys.Nodup ∧
      (∃ items sts, Filter.Written ⟨.text, true⟩ trickyEntries
        ("(__metadata___metadata_id:(a\\) OR b\\:\\(c) NOT " ++
          "(__metadata_:(null) OR __metadata_:(true)))") items sts) ∧
      (Filter.compileJson ⟨.text, true⟩ (some (.object [("content", .string "")]))).result =
        .ok (some "__metadata_content:()") ∧
      Filter.Reading.ofText? "__metadata_content:()" =
        some (.joined .and [.test (.equals "__metadata_content" "")]) ∧
      ∃ fields : Fields, trickyDocument.toStored none .text = .ok (.object fields) ∧
        fields.find? "__metadata_content" = some (.string "") ∧
        fields.find? "__metadata___metadata_id" = some (.array []) := by
  have hkeys : trickyDocument.metadata.keys.Nodup := by decide
  obtain ⟨haddresses, hstored⟩ := find?_toStored hkeys ⟨.text, true⟩ none
  have hs : (Filter.compileJson ⟨.text, true⟩ (some (.object trickyEntries))).result.toOption =
      some (some ("(__metadata___metadata_id:(a\\) OR b\\:\\(c) NOT " ++
        "(__metadata_:(null) OR __metadata_:(true)))")) := by
    decide +kernel
  refine ⟨hkeys, haddresses.written _ _ (eq_ok_of_toOption hs),
    (haddresses.equality "content" _ (.string "") rfl _).mpr ⟨by decide, by decide⟩,
    haddresses.reading rfl "content" (by decide) (.string ""), ?_⟩
  rcases hstored with ⟨⟨c, hc, hne⟩, _⟩ | ⟨_, fields, hfound⟩
  · cases hc
    exact absurd ⟨List.cons_ne_nil _ _, .inl (by decide)⟩ hne
  · exact ⟨fields, hfound.stored, hfound.metadata "content" (.string "") rfl (by decide),
      hfound.metadata "__metadata_id" (.array []) rfl (by decide)⟩

def ratedDocument : Document := (new "a" (.text "x")).withMetadata "score" (.number (.integer 5))

/-- It is not so that the attribute of every metadata key holds what is stored under the key: the
field `score` means the score of a search, which a stored document does not have. -/
theorem not_all_keys_found :
    ¬ ∀ (d : Document) (directory : Option WorkingDirectory) (schema : Schema) (fields : Fields),
      d.metadata.keys.Nodup → d.toStored directory schema = .ok (.object fields) → ∀ key value,
      d.metadata.find? key = some value → fields.find? (schema.attributeOf key) = some value := by
  intro hall
  have hnone : (ratedDocument.record .content (ratedDocument.text? none)).find?
      (Schema.content.attributeOf "score") = none := by decide
  have := hall ratedDocument none .content _ (by decide)
    (toStored_of_hasText (by rintro c hc; cases hc; exact trivial) (by decide) .content)
    "score" (.number (.integer 5)) rfl
  rw [hnone] at this
  cases this

end Document

end DocStore
