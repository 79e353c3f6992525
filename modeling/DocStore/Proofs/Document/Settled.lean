import DocStore.Proofs.Document.Stored

/-!
# Records settle after one pass

Whatever record a document is read from, with attributes that are unknown, missing or of the wrong
type, what is stored of the document does not change any more: read and stored again, it is the same
record, entry by entry (`stored_settled`). The document that it is read as differs from the first
one in the score, which is gone, and in the paths of media files, which are absolute. The working
directory is any one that is spelled as its absolute form, as systems report it; only without one a
relative path cannot be stored.
-/

namespace DocStore

open DocStore.Path

/-! ## What documents are read from -/

theorem Metadata.eq_attributeOf_of_keyOf? {attr key : String} (h : keyOf? attr = some key) :
    attr = attributeOf key := by
  have hstart {start s rest : List Char} (h : dropStart? start s = some rest) :
      s = start ++ rest := by
    induction start generalizing s with
    | nil => cases h; rfl
    | cons c start ih =>
      cases s with
      | nil => cases h
      | cons d s =>
        rw [dropStart?] at h
        split at h
        · rename_i hc
          rw [hc, ih h, List.cons_append]
        · cases h
  obtain ⟨rest, hrest, rfl⟩ := Option.map_eq_some_iff.mp h
  rw [attributeOf, ← String.toList_inj, String.toList_append, String.toList_ofList, hstart hrest]

namespace Content

/-- The content is as the reader leaves it: no text is empty, and paths are texts. -/
def IsRead : Content → Prop
  | text s => s ≠ ""
  | table _ => True
  | audio p => p.bytes ≠ [] ∧ IsText p.bytes
  | image p => p.bytes ≠ [] ∧ IsText p.bytes

theorem encode_ne_nil {s : String} (h : s ≠ "") : Utf8.encode s ≠ [] := by
  intro he
  apply h
  rw [← Utf8.lossy_encode s, he]
  decide

theorem ofText_ok {type : ContentType} {s : String} {c : Content} (hs : s ≠ "")
    (h : ofText type s = .ok c) : c.type = type ∧ c.IsRead := by
  cases type with
  | text => cases h; exact ⟨rfl, hs⟩
  | table =>
    rw [ofText] at h
    split at h
    · cases h; exact ⟨rfl, trivial⟩
    · cases h
  | audio => cases h; exact ⟨rfl, encode_ne_nil hs, s, rfl⟩
  | image => cases h; exact ⟨rfl, encode_ne_nil hs, s, rfl⟩

theorem IsRead.hasText {c : Content} {directory : Option WorkingDirectory} (h : c.IsRead)
    (hd : directory.isSome = true) : c.HasText directory := by
  cases c with
  | text s => exact trivial
  | table v => exact trivial
  | audio p => exact ⟨h.1, .inr hd⟩
  | image p => exact ⟨h.1, .inr hd⟩

theorem HasText.storable {c : Content} {directory : Option WorkingDirectory}
    (h : c.HasText directory) (htable : ∀ v, c = table v → Json.read? v.text = some v) :
    c.Storable directory := by
  cases c with
  | text s => exact trivial
  | table v => exact htable v rfl
  | audio p => exact h
  | image p => exact h

/-- The path is the text of the absolute form. A path that was absolute stays the same path. -/
def PathSettles (directory : Option WorkingDirectory) (p q : Path) : Prop :=
  (∃ a, p.absolute? directory = some a ∧ q = .ofText a.toText) ∧ q.isAbsolute = true ∧
    (p.isAbsolute = true → q.same p = true)

/-- The content is another one with the path, if it has one, made absolute. -/
def Settles (directory : Option WorkingDirectory) : Content → Content → Prop
  | text a, text b => a = b
  | table v, table w => v = w
  | audio p, audio q => PathSettles directory p q
  | image p, image q => PathSettles directory p q
  | _, _ => False

section

variable {directory : Option WorkingDirectory} (hd : ∀ d ∈ directory, d.IsNormal)
include hd

/-- A path that was read is stored as a text that is read as its own absolute form. -/
theorem exists_pathSettles {p : Path} (hp : p.Placed directory) (ht : IsText p.bytes) :
    ∃ a, p.absolute? directory = some a ∧ PathSettles directory p (.ofText a.toText) ∧
      (Path.ofText a.toText).bytes ≠ [] ∧
      pathText directory (.ofText a.toText) = pathText directory p := by
  obtain ⟨a, ha⟩ := hp.exists_absolute
  have hcanonical : Canonical (Path.ofText a.toText).bytes := (canonical_absolute hd ha).reread
  have hsame (habsolute : p.isAbsolute = true) : (Path.ofText a.toText).same p = true := by
    rw [ofText_toText (ht.absolute habsolute ha)]
    exact same_absolute habsolute ha
  refine ⟨a, ha, ⟨⟨a, ha, rfl⟩, beq_iff_eq.mpr hcanonical.head?, hsame⟩, hcanonical.ne_nil, ?_⟩
  rw [pathText, pathText, ha, hcanonical.absolute? directory]
  exact congrArg Except.ok (Utf8.lossy_encode _)

theorem IsRead.settles {c : Content} (h : c.IsRead) (htext : c.HasText directory) :
    ∃ c', c.stored directory = some c' ∧ c.Settles directory c' ∧ c'.type = c.type ∧
      c'.HasText directory ∧ c'.asText directory = c.asText directory := by
  cases c with
  | text s =>
    refine ⟨text s, ?_, rfl, rfl, trivial, rfl⟩
    rw [stored, if_neg]
    rw [String.isEmpty_iff]
    exact h
  | table v => exact ⟨table v, rfl, rfl, rfl, trivial, rfl⟩
  | audio p =>
    obtain ⟨a, ha, hsettles, hne, htext⟩ := exists_pathSettles hd htext h.2
    exact ⟨audio (.ofText a.toText), by rw [stored, ha]; rfl, hsettles, rfl,
      ⟨hne, .inl hsettles.2.1⟩, htext⟩
  | image p =>
    obtain ⟨a, ha, hsettles, hne, htext⟩ := exists_pathSettles hd htext h.2
    exact ⟨image (.ofText a.toText), by rw [stored, ha]; rfl, hsettles, rfl,
      ⟨hne, .inl hsettles.2.1⟩, htext⟩

end

end Content

namespace Document

theorem storedContent_ok {schema : Schema} {type : ContentType} {fields : Fields}
    {content : Option Content} (h : storedContent schema type fields = .ok content) :
    ∀ c ∈ content, c.type = type ∧ c.IsRead := by
  unfold storedContent at h
  split at h
  · rename_i s _
    split at h
    · cases h; exact fun c hc => nomatch hc
    · rename_i hs
      cases hread : Content.ofText type s with
      | error e => rw [hread] at h; cases h
      | ok c =>
        rw [hread] at h
        cases h
        rintro _ ⟨⟩
        exact Content.ofText_ok (by simpa using hs) hread
  · cases h; exact fun c hc => nomatch hc

/-- Marked attributes that differ hold metadata under keys that differ. -/
theorem keys_storedMetadata_nodup {fields : Fields} (h : fields.keys.Nodup) :
    (storedMetadata fields).keys.Nodup := by
  induction fields with
  | nil => exact List.nodup_nil
  | cons e rest ih =>
    rw [Fields.keys, List.map_cons, List.nodup_cons] at h
    rw [storedMetadata, List.filterMap_cons]
    cases hkey : Metadata.keyOf? e.1 with
    | none => exact ih h.2
    | some key =>
      rw [Option.map_some, Fields.keys, List.map_cons, List.nodup_cons]
      refine ⟨fun hmem => h.1 ?_, ih h.2⟩
      obtain ⟨entry, hentry, rfl⟩ := List.mem_map.mp hmem
      obtain ⟨e', he', hmap⟩ := List.mem_filterMap.mp hentry
      obtain ⟨key', hkey', rfl⟩ := Option.map_eq_some_iff.mp hmap
      rw [Metadata.eq_attributeOf_of_keyOf? hkey, ← Metadata.eq_attributeOf_of_keyOf? hkey']
      exact List.mem_map_of_mem he'

/-! ## Storing twice -/

section

variable {directory : Option WorkingDirectory} (hd : ∀ d ∈ directory, d.IsNormal) {d : Document}
  (hread : ∀ c ∈ d.content, c.IsRead ∧ c.HasText directory)
include hd hread

theorem stored_content :
    Option.Rel (Content.Settles directory) d.content (d.stored directory).content := by
  rw [stored]
  cases hc : d.content with
  | none => exact .none
  | some c =>
    obtain ⟨c', hc', hsettles, _⟩ := (hread c hc).1.settles hd (hread c hc).2
    rw [Option.bind_some, hc']
    exact .some hsettles

theorem storedJson_stored (schema : Schema) :
    (d.stored directory).storedJson directory schema = d.storedJson directory schema := by
  have htext : (d.stored directory).text? directory = d.text? directory := by
    rw [text?, text?, stored]
    cases hc : d.content with
    | none => rfl
    | some c =>
      obtain ⟨c', hc', _, _, _, htext⟩ := (hread c hc).1.settles hd (hread c hc).2
      rw [Option.bind_some, Option.bind_some, hc', Option.bind_some, htext]
  rw [storedJson, storedJson, htext]
  rfl

theorem hasText_stored : ∀ c ∈ (d.stored directory).content, c.HasText directory := by
  intro c hc
  obtain ⟨b, hb, hc⟩ := Option.bind_eq_some_iff.mp hc
  obtain ⟨c', hc', _, _, htext, _⟩ := (hread b hb).1.settles hd (hread b hb).2
  rw [hc', Option.some.injEq] at hc
  exact hc ▸ htext

end

/-- A record that a document is read from is stored as a record that does not change any more. The
document that it is read as has no score, and an absolute path if it has one. A relative path is not
stored if there is no working directory. -/
theorem stored_settled {schema : Schema} {v : Json} {d : Document} (h : ofStored schema v = .ok d)
    (hkeys : ∀ fields : Fields, v = .object fields → fields.keys.Nodup)
    (htable : ∀ t, d.content = some (.table t) → Json.read? t.text = some t)
    {directory : Option WorkingDirectory} (hd : ∀ dir ∈ directory, dir.IsNormal) :
    (directory = none ∧ (∃ c ∈ d.content, ¬ c.HasText none) ∧
      d.toStored directory schema = .error .file) ∨
    ∃ w d', d.toStored directory schema = .ok w ∧ ofStored schema w = .ok d' ∧
      d'.toStored directory schema = .ok w ∧ d'.id = d.id ∧
      Option.Rel (Content.Settles directory) d.content d'.content ∧
      d'.contentType = d.contentType ∧ d'.metadata = d.metadata ∧ d'.score = none := by
  obtain ⟨fields, rfl, hcontent, hmetadata, _⟩ := ofStored_ok h
  have hread := storedContent_ok hcontent
  have hdistinct : d.metadata.keys.Nodup := by
    rw [hmetadata]
    exact keys_storedMetadata_nodup (hkeys fields rfl)
  by_cases htext : ∀ c ∈ d.content, c.HasText directory
  · have hstorable : d.Storable directory :=
      ⟨fun c hc => (hread c hc).1.symm,
        fun c hc => (htext c hc).storable fun t ht => htable t (ht ▸ hc), hdistinct⟩
    have hread' : ∀ c ∈ d.content, c.IsRead ∧ c.HasText directory :=
      fun c hc => ⟨(hread c hc).2, htext c hc⟩
    refine .inr ⟨d.storedJson directory schema, d.stored directory, toStored_eq hstorable schema,
      ofStored_storedJson hstorable schema, ?_, rfl, stored_content hd hread', rfl, rfl, rfl⟩
    rw [toStored_of_hasText (hasText_stored hd hread') hdistinct, storedJson_stored hd hread']
  · push Not at htext
    obtain ⟨c, hc, hnot⟩ := htext
    have hnone : directory = none := by
      by_contra hsome
      exact hnot ((hread c hc).2.hasText (Option.isSome_iff_ne_none.mpr hsome))
    subst hnone
    exact .inl ⟨rfl, ⟨c, hc, hnot⟩, toStored_of_not_hasText hc hnot⟩

/-- A hit without `_id`, with a relative path, a score, and attributes that documents do not
have. -/
def messyRecord : Json :=
  .object [("_score", .number (.double ⟨0⟩)), ("__metadata_", .array [.null]),
    ("content", .string "clips//./talk.wav"), ("id", .string "talk"),
    ("_highlights", .array []), ("content_type", .string "audio")]

def home : WorkingDirectory := ⟨.ofText "/home/u", by decide⟩

theorem stored_settled_messy :
    ∃ d w d', ofStored .content messyRecord = .ok d ∧
      (∀ fields : Fields, messyRecord = .object fields → fields.keys.Nodup) ∧
      (∀ t, d.content = some (.table t) → Json.read? t.text = some t) ∧
      (∀ dir ∈ some home, dir.IsNormal) ∧
      d.toStored home .content = .ok w ∧ ofStored .content w = .ok d' ∧
      d'.toStored home .content = .ok w ∧
      d.content = some (.audio (.ofText "clips//./talk.wav")) ∧
      d'.content = some (.audio (.ofText "/home/u/clips/talk.wav")) ∧
      d'.metadata = [("", .array [.null])] := by
  have h : ofStored .content messyRecord = .ok ⟨"talk", some (.audio (.ofText "clips//./talk.wav")),
      .audio, [("", .array [.null])], some ⟨0⟩⟩ := rfl
  have hkeys : ∀ fields : Fields, messyRecord = .object fields → fields.keys.Nodup := by
    rintro fields ⟨⟩
    decide
  have hd : ∀ dir ∈ some home, dir.IsNormal := by
    rintro dir ⟨⟩
    show home.path.absolute? none = some home.path
    decide
  rcases stored_settled h hkeys (fun t ht => by cases ht) hd with
    ⟨hnone, _⟩ | ⟨w, d', hw, hd', hw', _, hcontent, _, hmetadata, _⟩
  · cases hnone
  · refine ⟨_, w, d', h, hkeys, (fun t ht => by cases ht), hd, hw, hd', hw', rfl, ?_, hmetadata⟩
    have ha : (Path.ofText "clips//./talk.wav").absolute? home =
        some (.ofText "/home/u/clips/talk.wav") := by decide
    generalize d'.content = content at hcontent
    cases hcontent with
    | @some _ c hsettles =>
      cases c with
      | audio q =>
        obtain ⟨a, hpath, rfl⟩ := hsettles.1
        rw [ha, Option.some.injEq] at hpath
        rw [← hpath]
        exact congrArg (fun s => some (Content.audio (.ofText s))) (Utf8.lossy_encode _)
      | text _ | table _ | image _ => exact hsettles.elim

end Document

end DocStore
