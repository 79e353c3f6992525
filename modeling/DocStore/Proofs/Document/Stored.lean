import DocStore.Document.Stored
import DocStore.Proofs.Document.Path
import DocStore.Proofs.Json.Fields

/-!
# Documents that are stored and read again

`Document.stored` is what a document is after it was stored: without a score, without a content that
is an empty text, and with the absolute paths of media files. Documents whose content is of the
given type and can be read back are `Storable`, and `ofStored_toStored` says that these are read as
`Document.stored`. No attribute hides another one, since metadata keys are marked
(`keys_record_nodup`), and attributes of unknown names are skipped (`ofStored_append`).
-/

namespace DocStore

/-! ## Attributes of metadata -/

namespace Metadata

theorem dropStart?_append (start s : List Char) : dropStart? start (start ++ s) = some s := by
  induction start with
  | nil => cases s <;> rfl
  | cons c start ih => rw [List.cons_append, dropStart?, if_pos rfl, ih]

theorem keyOf?_attributeOf (key : String) : keyOf? (attributeOf key) = some key := by
  rw [keyOf?, attributeOf, String.toList_append, dropStart?_append, Option.map_some,
    String.ofList_toList]

theorem attributeOf_injective : Function.Injective attributeOf := by
  intro a b h
  have := congrArg keyOf? h
  rwa [keyOf?_attributeOf, keyOf?_attributeOf, Option.some.injEq] at this

def marked (metadata : Fields) : Fields := metadata.map fun e => (attributeOf e.1, e.2)

theorem find?_marked {attr : String} (h : keyOf? attr = none) (metadata : Fields) :
    Fields.find? (marked metadata) attr = none := by
  induction metadata with
  | nil => rfl
  | cons e rest ih =>
    have hne : attr ≠ attributeOf e.1 := by
      rintro rfl
      rw [keyOf?_attributeOf] at h
      cases h
    rw [marked, List.map_cons, Fields.find?_cons, if_neg hne]
    exact ih

end Metadata

theorem Fields.find?_append (a b : Fields) (key : String) :
    find? (a ++ b) key = (find? a key).or (find? b key) := by
  induction a with
  | nil => rfl
  | cons e rest ih =>
    rw [List.cons_append, find?_cons, find?_cons, ih]
    split <;> rfl

/-! ## Contents -/

namespace Content

section

variable (directory : Option WorkingDirectory)

/-- The content can be stored and read again. -/
def Storable : Content → Prop
  | text _ => True
  | table v => Json.read? v.text = some v
  | audio p => p.Placed directory
  | image p => p.Placed directory

/-- The content has a text: all contents but media under a path without an absolute form. -/
def HasText : Content → Prop
  | text _ => True
  | table _ => True
  | audio p => p.Placed directory
  | image p => p.Placed directory

/-- What the content is after it was stored. -/
def stored : Content → Option Content
  | text s => if s.isEmpty then none else some (text s)
  | table v => some (table v)
  | audio p => (p.absolute? directory).map fun q => audio (.ofText q.toText)
  | image p => (p.absolute? directory).map fun q => image (.ofText q.toText)

end

section

variable {directory : Option WorkingDirectory}

theorem toText_ne_empty {p q : Path} (h : p.absolute? directory = some q) :
    q.toText.isEmpty = false := by
  obtain ⟨rest, hq⟩ := Path.bytes_of_isAbsolute (Path.isAbsolute_absolute h)
  have hd : Utf8.decode (Path.slash :: rest) = some '/' :: Utf8.decode rest := rfl
  rw [Path.toText, hq, Utf8.lossy, hd, String.isEmpty_eq_false_iff, ne_eq,
    ← String.toList_eq_nil_iff, String.toList_ofList]
  exact List.cons_ne_nil _ _

/-- The text of a path is that of its absolute form, which starts with a slash. -/
theorem pathText_of_placed {p : Path} (h : p.Placed directory) :
    ∃ q, p.absolute? directory = some q ∧ pathText directory p = .ok q.toText ∧
      q.toText.isEmpty = false := by
  obtain ⟨q, hq⟩ := h.exists_absolute
  exact ⟨q, hq, by rw [pathText, hq], toText_ne_empty hq⟩

theorem pathText_of_not_placed {p : Path} (h : ¬ p.Placed directory) :
    pathText directory p = .error .file := by
  rw [pathText, Path.absolute?_of_not_placed h]

theorem HasText.asText {c : Content} (h : c.HasText directory) :
    ∃ s, c.asText directory = .ok s := by
  cases c with
  | text s => exact ⟨s, rfl⟩
  | table v => exact ⟨v.text, rfl⟩
  | audio p =>
    obtain ⟨q, _, htext, _⟩ := pathText_of_placed h
    exact ⟨q.toText, htext⟩
  | image p =>
    obtain ⟨q, _, htext, _⟩ := pathText_of_placed h
    exact ⟨q.toText, htext⟩

theorem asText_of_not_hasText {c : Content} (h : ¬ c.HasText directory) :
    c.asText directory = .error .file := by
  cases c with
  | text s => exact absurd trivial h
  | table v => exact absurd trivial h
  | audio p => exact pathText_of_not_placed h
  | image p => exact pathText_of_not_placed h

theorem Storable.hasText {c : Content} (h : c.Storable directory) : c.HasText directory := by
  cases c with
  | text s => exact trivial
  | table v => exact trivial
  | audio p => exact h
  | image p => exact h

theorem read?_empty : Json.read? "" = none := by decide +kernel

/-- A storable content has a text, and is read from it unless the text is empty. -/
theorem ofText_asText {c : Content} (h : c.Storable directory) :
    ∃ s, c.asText directory = .ok s ∧
      (if s.isEmpty then .ok none else some <$> ofText c.type s) = .ok (c.stored directory) := by
  cases c with
  | text s =>
    refine ⟨s, rfl, ?_⟩
    rw [stored]
    split <;> rfl
  | table v =>
    refine ⟨v.text, rfl, ?_⟩
    have hne : ¬ v.text.isEmpty = true := by
      intro he
      rw [String.isEmpty_iff] at he
      rw [Storable, he, read?_empty] at h
      cases h
    rw [if_neg hne, type, ofText]
    simp only [Storable] at h
    rw [h]; rfl
  | audio p =>
    obtain ⟨q, hq, htext, hne⟩ := pathText_of_placed h
    refine ⟨q.toText, htext, ?_⟩
    rw [hne, stored, hq]
    rfl
  | image p =>
    obtain ⟨q, hq, htext, hne⟩ := pathText_of_placed h
    refine ⟨q.toText, htext, ?_⟩
    rw [hne, stored, hq]
    rfl

end

end Content

namespace Document

/-! ## Attributes of documents -/

/-- The built-in attributes of a document whose content has the given text. -/
def builtin (d : Document) (schema : Schema) (text? : Option String) : Fields :=
  [("_id", .string d.id), ("id", .string d.id)] ++
    (text?.map fun s => (schema.contentField, .string s)).toList ++
    [(schema.contentTypeField, .string d.contentType.name)]

def record (d : Document) (schema : Schema) (text? : Option String) : Fields :=
  d.builtin schema text? ++ Metadata.marked d.metadata

section

variable {d : Document} (schema : Schema) (text? : Option String)

theorem keys_builtin : (d.builtin schema text?).keys =
    ["_id", "id"] ++ (text?.map fun _ => schema.contentField).toList ++
      [schema.contentTypeField] := by
  cases text? <;> rfl

theorem keyOf?_contentField : Metadata.keyOf? schema.contentField = none := by
  cases schema <;> decide

theorem keyOf?_contentTypeField : Metadata.keyOf? schema.contentTypeField = none := by
  cases schema <;> decide

/-- The names of built-in attributes are not marked. -/
theorem keyOf?_of_mem_builtin {attr : String} (h : attr ∈ (d.builtin schema text?).keys) :
    Metadata.keyOf? attr = none := by
  rw [keys_builtin] at h
  simp only [List.mem_append, List.mem_cons, List.not_mem_nil, or_false, Option.mem_toList,
    Option.map_eq_some_iff] at h
  rcases h with ((rfl | rfl) | ⟨_, _, rfl⟩) | rfl
  · decide
  · decide
  · exact keyOf?_contentField schema
  · exact keyOf?_contentTypeField schema

theorem keys_builtin_nodup : (d.builtin schema text?).keys.Nodup := by
  rw [keys_builtin]
  cases text? <;> cases schema <;> simp [Schema.contentField, Schema.contentTypeField]

/-- No attribute of a document has the name of another one. -/
theorem keys_record_nodup (h : d.metadata.keys.Nodup) : (d.record schema text?).keys.Nodup := by
  have hmarked : (Metadata.marked d.metadata).keys =
      d.metadata.keys.map Metadata.attributeOf := by
    simp only [Metadata.marked, Fields.keys, List.map_map, Function.comp_def]
  rw [record, Fields.keys, List.map_append, ← Fields.keys, ← Fields.keys, hmarked]
  refine List.nodup_append.mpr ⟨keys_builtin_nodup schema text?,
    h.map Metadata.attributeOf_injective, fun a ha b hb hab => ?_⟩
  obtain ⟨key, _, rfl⟩ := List.mem_map.mp hb
  have := keyOf?_of_mem_builtin schema text? ha
  rw [hab, Metadata.keyOf?_attributeOf] at this
  cases this

/-! ## Reading attributes -/

theorem find?_record {attr : String} (h : Metadata.keyOf? attr = none) :
    (d.record schema text?).find? attr = (d.builtin schema text?).find? attr := by
  rw [record, Fields.find?_append, Metadata.find?_marked h, Option.or_none]

theorem find?_record_id : (d.record schema text?).find? "_id" = some (.string d.id) := rfl

theorem find?_record_type :
    (d.record schema text?).find? schema.contentTypeField =
      some (.string d.contentType.name) := by
  rw [find?_record schema text? (keyOf?_contentTypeField schema)]
  cases schema <;> cases text? <;> rfl

theorem find?_record_content :
    (d.record schema text?).find? schema.contentField = text?.map .string := by
  rw [find?_record schema text? (keyOf?_contentField schema)]
  cases schema <;> cases text? <;> rfl

theorem find?_record_score : (d.record schema text?).find? "_score" = none := by
  rw [find?_record schema text? (by decide)]
  cases schema <;> cases text? <;> rfl

theorem storedMetadata_marked (metadata : Fields) :
    storedMetadata (Metadata.marked metadata) = metadata := by
  induction metadata with
  | nil => rfl
  | cons e rest ih =>
    rw [Metadata.marked, List.map_cons, storedMetadata, List.filterMap_cons,
      Metadata.keyOf?_attributeOf]
    exact congrArg (e :: ·) ih

theorem storedMetadata_record : storedMetadata (d.record schema text?) = d.metadata := by
  have hbuiltin : storedMetadata (d.builtin schema text?) = [] := by
    refine List.filterMap_eq_nil_iff.mpr fun e he => ?_
    rw [keyOf?_of_mem_builtin schema text? (List.mem_map_of_mem he)]
    rfl
  rw [record, storedMetadata, List.filterMap_append]
  show storedMetadata _ ++ storedMetadata _ = _
  rw [hbuiltin, storedMetadata_marked, List.nil_append]

end

/-! ## Storing and reading -/

section

variable (d : Document) (directory : Option WorkingDirectory)

/-- The document can be stored and read again: its content is of its type and can be read from its
text, and its metadata keys differ. -/
structure Storable : Prop where
  type : ∀ c ∈ d.content, d.contentType = c.type
  content : ∀ c ∈ d.content, c.Storable directory
  keys : d.metadata.keys.Nodup

def stored : Document := { d with content := d.content.bind (·.stored directory), score := none }

def text? : Option String := d.content.bind fun c => (c.asText directory).toOption

/-- What is stored of the document. -/
def storedJson (schema : Schema) : Json := .object (d.record schema (d.text? directory))

end

section

variable {d : Document} {directory : Option WorkingDirectory}

/-- A document whose content has a text is stored, with all its attributes. -/
theorem toStored_of_hasText (htext : ∀ c ∈ d.content, c.HasText directory)
    (hkeys : d.metadata.keys.Nodup) (schema : Schema) :
    d.toStored directory schema = .ok (d.storedJson directory schema) := by
  have hentries : Fields.ofEntries (d.record schema (d.text? directory)) =
      d.record schema (d.text? directory) :=
    Fields.ofEntries_of_nodup (keys_record_nodup schema (d.text? directory) hkeys)
  rw [storedJson, ← hentries, toStored, attributes]
  cases hc : d.content with
  | none => rw [text?, hc]; rfl
  | some c =>
    obtain ⟨s, hs⟩ := (htext c hc).asText
    rw [text?, hc, contentAttribute, Option.bind_some, hs]
    rfl

theorem toStored_of_not_hasText {schema : Schema} {c : Content} (hc : d.content = some c)
    (h : ¬ c.HasText directory) : d.toStored directory schema = .error .file := by
  rw [toStored, attributes, hc, contentAttribute, Content.asText_of_not_hasText h]
  rfl

variable (h : d.Storable directory) (schema : Schema)
include h

theorem toStored_eq : d.toStored directory schema = .ok (d.storedJson directory schema) :=
  toStored_of_hasText (fun c hc => (h.content c hc).hasText) h.keys schema

theorem storedContent_record :
    storedContent schema d.contentType (d.record schema (d.text? directory)) =
      .ok (d.content.bind (·.stored directory)) := by
  rw [storedContent, find?_record_content, text?]
  cases hc : d.content with
  | none => rfl
  | some c =>
    obtain ⟨s, hs, hread⟩ := Content.ofText_asText (h.content c hc)
    rw [Option.bind_some, hs, h.type c hc]
    exact hread

theorem ofStored_storedJson :
    ofStored schema (d.storedJson directory schema) = .ok (d.stored directory) := by
  have htype : storedType schema (d.record schema (d.text? directory)) = .ok d.contentType := by
    rw [storedType, find?_record_type]
    show ContentType.ofName d.contentType.name = _
    rw [ContentType.ofName, ContentType.ofName?_name]
  have hid : storedId? (d.record schema (d.text? directory)) = some d.id := by
    rw [storedId?, find?_record_id]; rfl
  have hscore : storedScore (d.record schema (d.text? directory)) = none := by
    rw [storedScore, find?_record_score]; rfl
  simp only [storedJson, ofStored, hid, htype, hscore, storedMetadata_record]
  show (storedContent schema d.contentType (d.record schema (d.text? directory)) >>= fun content =>
    .ok (Document.mk d.id content d.contentType d.metadata none)) = .ok (d.stored directory)
  rw [storedContent_record h schema]
  rfl

/-- What is stored of a document is read as the document after it was stored. -/
theorem ofStored_toStored :
    ∃ v, d.toStored directory schema = .ok v ∧ ofStored schema v = .ok (d.stored directory) :=
  ⟨d.storedJson directory schema, toStored_eq h schema, ofStored_storedJson h schema⟩

end

theorem ofStored_ok {schema : Schema} {v : Json} {d : Document} (h : ofStored schema v = .ok d) :
    ∃ fields, v = .object fields ∧ storedContent schema d.contentType fields = .ok d.content ∧
      d.metadata = storedMetadata fields ∧ d.score = storedScore fields := by
  unfold ofStored at h
  split at h
  · rename_i fields
    split at h
    · cases htype : storedType schema fields with
      | error e => rw [htype] at h; cases h
      | ok type =>
        cases hcontent : storedContent schema type fields with
        | error e => rw [htype] at h; simp only [bind, Except.bind, hcontent] at h; cases h
        | ok content =>
          rw [htype] at h
          simp only [bind, Except.bind, hcontent, pure, Except.pure, Except.ok.injEq] at h
          subst h
          exact ⟨fields, rfl, hcontent, rfl, rfl⟩
    · cases h
  · cases h

/-- The attributes that a document is read from, besides its metadata. -/
def readAttributes (schema : Schema) : List String :=
  ["_id", "id", schema.contentField, schema.contentTypeField, "_score"]

/-- Documents have no attributes but those that they are read from. -/
theorem not_mem_keys_record {d : Document} {schema : Schema} {attr : String}
    (h : attr ∉ readAttributes schema) (hm : Metadata.keyOf? attr = none) (text? : Option String) :
    attr ∉ (d.record schema text?).keys := by
  intro hmem
  rw [record, Fields.keys, List.map_append, List.mem_append, ← Fields.keys, ← Fields.keys,
    keys_builtin] at hmem
  rcases hmem with hmem | hmem
  · refine h ?_
    simp only [List.mem_append, List.mem_cons, List.not_mem_nil, or_false, Option.mem_toList,
      Option.map_eq_some_iff] at hmem
    rcases hmem with ((rfl | rfl) | ⟨_, _, rfl⟩) | rfl <;> simp [readAttributes]
  · obtain ⟨_, he, rfl⟩ := List.mem_map.mp hmem
    obtain ⟨e, _, rfl⟩ := List.mem_map.mp he
    rw [Metadata.keyOf?_attributeOf] at hm
    cases hm

/-- An attribute of another name is skipped. -/
theorem ofStored_append (schema : Schema) (fields : Fields) {attr : String} (value : Json)
    (h : attr ∉ readAttributes schema) (hm : Metadata.keyOf? attr = none) :
    ofStored schema (.object (fields ++ [(attr, value)])) = ofStored schema (.object fields) := by
  have hfind : ∀ name ∈ readAttributes schema,
      Fields.find? (fields ++ [(attr, value)]) name = Fields.find? fields name := by
    intro name hname
    have hne : name ≠ attr := by rintro rfl; exact h hname
    rw [Fields.find?_append, Fields.find?_cons, if_neg hne]
    exact Option.or_none
  have hid : storedId? (fields ++ [(attr, value)]) = storedId? fields := by
    rw [storedId?, hfind "_id" (by simp [readAttributes]), hfind "id" (by simp [readAttributes])]
    rfl
  have htype : storedType schema (fields ++ [(attr, value)]) = storedType schema fields := by
    rw [storedType, hfind schema.contentTypeField (by simp [readAttributes])]
    rfl
  have hcontent (type : ContentType) :
      storedContent schema type (fields ++ [(attr, value)]) = storedContent schema type fields := by
    rw [storedContent, hfind schema.contentField (by simp [readAttributes])]
    rfl
  have hmetadata : storedMetadata (fields ++ [(attr, value)]) = storedMetadata fields := by
    rw [storedMetadata, List.filterMap_append, List.filterMap_cons, hm]
    exact List.append_nil _
  have hscore : storedScore (fields ++ [(attr, value)]) = storedScore fields := by
    rw [storedScore, hfind "_score" (by simp [readAttributes])]
    rfl
  simp only [ofStored, hid, htype, hcontent, hmetadata, hscore]

end Document

/-! ## Documents that come back unchanged -/

namespace Content

/-- Storing does not lose anything of the content. -/
def Lasting : Content → Prop
  | text s => s ≠ ""
  | table v => Json.read? v.text = some v
  | audio p => p.isAbsolute = true ∧ Path.IsText p.bytes
  | image p => p.isAbsolute = true ∧ Path.IsText p.bytes

/-- Equal contents; paths may be spelled in different ways. -/
def Agrees : Content → Content → Prop
  | text a, text b => a = b
  | table v, table w => v = w
  | audio p, audio q => p.same q = true
  | image p, image q => p.same q = true
  | _, _ => False

section

variable {directory : Option WorkingDirectory}

theorem Lasting.storable {c : Content} (h : c.Lasting) : c.Storable directory := by
  cases c with
  | text s => exact trivial
  | table v => exact h
  | audio p => exact ⟨Path.ne_nil_of_isAbsolute h.1, .inl h.1⟩
  | image p => exact ⟨Path.ne_nil_of_isAbsolute h.1, .inl h.1⟩

/-- The path that is read from the text of the absolute form is the same path. -/
theorem exists_same_path {p : Path} (h : p.isAbsolute = true) (ht : Path.IsText p.bytes) :
    ∃ q, p.absolute? directory = some q ∧ (Path.ofText q.toText).same p = true := by
  have hq := Path.absolute?_of_isAbsolute directory h
  refine ⟨_, hq, ?_⟩
  rw [Path.ofText_toText (ht.absolute h hq)]
  exact Path.same_absolute h hq

theorem Lasting.stored {c : Content} (h : c.Lasting) :
    ∃ c', c.stored directory = some c' ∧ c'.Agrees c := by
  cases c with
  | text s =>
    refine ⟨text s, ?_, rfl⟩
    rw [Content.stored, if_neg]
    rw [String.isEmpty_iff]
    exact h
  | table v => exact ⟨table v, rfl, rfl⟩
  | audio p =>
    obtain ⟨q, hq, hsame⟩ := exists_same_path h.1 h.2
    exact ⟨audio (.ofText q.toText), by rw [Content.stored, hq]; rfl, hsame⟩
  | image p =>
    obtain ⟨q, hq, hsame⟩ := exists_same_path h.1 h.2
    exact ⟨image (.ofText q.toText), by rw [Content.stored, hq]; rfl, hsame⟩

end

end Content

namespace Document

/-- A document whose content lasts is read back as it was, but for the score: with its identifier,
content and type, and with its metadata in order under whatever keys. -/
theorem ofStored_toStored_agrees {d : Document}
    (htype : ∀ c ∈ d.content, d.contentType = c.type) (hcontent : ∀ c ∈ d.content, c.Lasting)
    (hkeys : d.metadata.keys.Nodup) (directory : Option WorkingDirectory) (schema : Schema) :
    ∃ v e, d.toStored directory schema = .ok v ∧ ofStored schema v = .ok e ∧ e.id = d.id ∧
      Option.Rel Content.Agrees e.content d.content ∧ e.contentType = d.contentType ∧
      e.metadata = d.metadata ∧ e.score = none := by
  have hstorable : d.Storable directory := ⟨htype, fun c hc => (hcontent c hc).storable, hkeys⟩
  obtain ⟨v, hv, he⟩ := ofStored_toStored hstorable schema
  refine ⟨v, d.stored directory, hv, he, rfl, ?_, rfl, rfl, rfl⟩
  cases hc : d.content with
  | none => rw [stored, hc]; exact .none
  | some c =>
    obtain ⟨c', hc', hagrees⟩ := (hcontent c hc).stored
    rw [stored, hc, Option.bind_some, hc']
    exact .some hagrees

/-- An image under a path with superfluous segments, and metadata under reserved keys. -/
def trickyDocument : Document :=
  ⟨"", some (.image (.ofText "/a//./b/ü.png")), .image,
    [("", .null), ("content", .string ""), ("_score", .bool true),
      ("__metadata_id", .array [])], some ⟨0⟩⟩

theorem ofStored_toStored_agrees_tricky :
    ((∀ c ∈ trickyDocument.content, trickyDocument.contentType = c.type) ∧
      (∀ c ∈ trickyDocument.content, c.Lasting) ∧ trickyDocument.metadata.keys.Nodup) ∧
    ∃ v e, trickyDocument.toStored none .text = .ok v ∧ ofStored .text v = .ok e ∧
      e.id = trickyDocument.id ∧ Option.Rel Content.Agrees e.content trickyDocument.content ∧
      e.contentType = trickyDocument.contentType ∧ e.metadata = trickyDocument.metadata ∧
      e.score = none := by
  have htype : ∀ c ∈ trickyDocument.content, trickyDocument.contentType = c.type := by
    rintro c hc
    cases hc
    rfl
  have hcontent : ∀ c ∈ trickyDocument.content, c.Lasting := by
    rintro c hc
    cases hc
    exact ⟨by decide, "/a//./b/ü.png", rfl⟩
  have hkeys : trickyDocument.metadata.keys.Nodup := by decide
  exact ⟨⟨htype, hcontent, hkeys⟩, ofStored_toStored_agrees htype hcontent hkeys none .text⟩

end Document

end DocStore
