import DocStore.Proofs.Document.Stored
import DocStore.Proofs.Session.Calls
import DocStore.Proofs.Session.DocumentMap
import DocStore.Store
import Mathlib.Data.List.Forall2

/-!
# Documents on a server

`Keeps` relates the record that a server keeps of a document to the document that is read from it.
Adding, deleting and requesting records is the same as `putLast`, `without` and `find?` on the
documents, and what the client reads in the records of requested documents are those of the
documents that are there (`mapM_ofStored_recordOf`).
-/

namespace DocStore

/-- The document can be stored and read again and arrives as it was sent: inside the three
containers that stand around it, a value of its metadata is read from its text. -/
structure Document.Sendable (directory : Option WorkingDirectory) (d : Document) : Prop
    extends d.Storable directory where
  metadata : ∀ e ∈ d.metadata, e.2.ReadableAt (Json.depthBelow 3)

namespace IndexServer

/-- What a server keeps of a document that was written, and the document that is read from it. -/
inductive Keeps (schema : Schema) : Json → Document → Prop where
  | written {directory : Option WorkingDirectory} {d : Document} (h : d.Sendable directory) :
    Keeps schema (d.storedJson directory schema) (d.stored directory)

variable {schema : Schema}

theorem found_not_mem_readAttributes : "_found" ∉ Document.readAttributes schema := by
  cases schema <;> decide

/-- The built-in attributes of a document are texts. -/
theorem readableAt_of_mem_builtin {d : Document} {text? : Option String} {e : String × Json}
    (he : e ∈ d.builtin schema text?) (depth : Nat) : e.2.ReadableAt depth := by
  simp only [Document.builtin, List.mem_append, List.mem_cons, List.not_mem_nil, or_false,
    Option.mem_toList, Option.map_eq_some_iff] at he
  rcases he with ((rfl | rfl) | ⟨s, _, rfl⟩) | rfl <;> exact Json.readableAt_string depth _

/-! ## Records of documents that are there -/

section

variable {d : Document} {directory : Option WorkingDirectory}

theorem found_not_mem_keys : "_found" ∉ (d.record schema (d.text? directory)).keys :=
  Document.not_mem_keys_record found_not_mem_readAttributes (by decide) (d.text? directory)

theorem withFound_storedJson : withFound (d.storedJson directory schema) =
    .object (d.record schema (d.text? directory) ++ [("_found", .bool true)]) := by
  rw [Document.storedJson, withFound, Fields.insert_of_not_mem found_not_mem_keys]

theorem isMissing_withFound :
    Store.isMissing (withFound (d.storedJson directory schema)) = false := by
  have hfind : (withFound (d.storedJson directory schema)).get? "_found" = some (.bool true) := by
    rw [Document.storedJson, withFound, Json.get?, Fields.find?_insert, if_pos rfl]
  rw [Store.isMissing, hfind]
  rfl

theorem ofStored_withFound (h : d.Storable directory) :
    Document.ofStored schema (withFound (d.storedJson directory schema)) =
      .ok (d.stored directory) := by
  rw [withFound_storedJson,
    Document.ofStored_append schema _ _ found_not_mem_readAttributes (by decide)]
  exact Document.ofStored_storedJson h schema

theorem readableAt_withFound (h : d.Sendable directory) :
    (withFound (d.storedJson directory schema)).ReadableAt (Json.depthBelow 2) := by
  show Json.ReadableAt (Json.depthBelow 3 + 1) _
  rw [withFound_storedJson]
  refine Json.readableAt_object ?_ ?_
  · rw [Fields.keys, List.map_append]
    rw [List.map_singleton, ← List.concat_eq_append]
    exact (Document.keys_record_nodup schema (d.text? directory) h.keys).concat found_not_mem_keys
  · intro e he
    rcases List.mem_append.mp he with he | he
    · rcases List.mem_append.mp he with he | he
      · exact readableAt_of_mem_builtin he _
      · obtain ⟨entry, hentry, rfl⟩ := List.mem_map.mp he
        exact h.metadata entry hentry
    · rw [List.mem_singleton.mp he]
      exact Json.readableAt_bool _ true

end

namespace Keeps

variable {record : Json} {d : Document}

theorem idOf_eq (h : Keeps schema record d) : idOf record = .string d.id := by
  cases h
  rfl

theorem hasId_eq (h : Keeps schema record d) (id : String) : hasId id record = (d.id == id) := by
  rw [hasId, h.idOf_eq]
  rfl

end Keeps

theorem mapM_toStored {directory : Option WorkingDirectory} {documents : List Document}
    (h : ∀ d ∈ documents, d.Storable directory) :
    documents.mapM (·.toStored directory schema) =
      .ok (documents.map (·.storedJson directory schema)) := by
  induction documents with
  | nil => rfl
  | cons d rest ih =>
    rw [List.mapM_cons, Document.toStored_eq (h d List.mem_cons_self) schema,
      ih fun e he => h e (List.mem_cons_of_mem d he)]
    rfl

theorem keeps_map {directory : Option WorkingDirectory} {documents : List Document}
    (h : ∀ d ∈ documents, d.Sendable directory) :
    List.Forall₂ (Keeps schema) (documents.map (·.storedJson directory schema))
      (documents.map (·.stored directory)) := by
  induction documents with
  | nil => exact .nil
  | cons d rest ih =>
    obtain ⟨hd, hrest⟩ := List.forall_mem_cons.mp h
    exact .cons (.written hd) (ih hrest)

/-! ## Lists of records -/

section

variable {records : List Json} {documents : List Document}
  (hall : List.Forall₂ (Keeps schema) records documents)
include hall

/-- Records are kept or dropped with their documents. -/
theorem filter_keeps {keep : Json → Bool} {p : Document → Bool}
    (h : ∀ record d, Keeps schema record d → keep record = p d) :
    List.Forall₂ (Keeps schema) (records.filter keep) (documents.filter p) :=
  List.rel_filter (fun record d hd => Bool.eq_iff_iff.mp (h record d hd)) hall

theorem addDocument_keeps {record : Json} {d : Document} (h : Keeps schema record d) :
    List.Forall₂ (Keeps schema) (addDocument records record) (putLast documents d) := by
  refine List.rel_append (filter_keeps hall fun other e he => ?_) (.cons h .nil)
  rw [he.idOf_eq, h.idOf_eq, Json.same]
  rfl

theorem foldl_addDocument_keeps {added : List Json} {new : List Document}
    (h : List.Forall₂ (Keeps schema) added new) :
    List.Forall₂ (Keeps schema) (added.foldl addDocument records)
      (new.foldl putLast documents) := by
  induction h generalizing records documents with
  | nil => exact hall
  | cons hd _ ih => exact ih (addDocument_keeps hall hd)

theorem deleteAll_keeps (ids : List String) :
    List.Forall₂ (Keeps schema) (deleteAll records ids) (without documents ids) :=
  filter_keeps hall fun record d hd => by
    simp only [hd.hasId_eq, List.contains_eq_any_beq]

theorem find?_keeps (id : String) :
    Option.Rel (Keeps schema) (records.find? (hasId id)) (documents.find? (·.id == id)) := by
  induction hall with
  | nil => exact .none
  | @cons record d _ _ hd _ ih =>
    rw [List.find?_cons, List.find?_cons, hd.hasId_eq id]
    cases d.id == id with
    | true => exact .some hd
    | false => exact ih

/-- A record arrives as it was sent. -/
theorem readableAt_recordOf (id : String) :
    (recordOf records id).ReadableAt (Json.depthBelow 2) := by
  have hfind := find?_keeps hall id
  rw [recordOf]
  generalize records.find? (hasId id) = record at hfind ⊢
  generalize documents.find? (·.id == id) = d at hfind
  cases hfind with
  | some hd =>
    obtain ⟨h⟩ := hd
    exact readableAt_withFound h
  | none =>
    show Json.ReadableAt (Json.depthBelow 3 + 1) _
    refine Json.readableAt_object (by simp [Fields.keys]) ?_
    intro e he
    simp only [List.mem_cons, List.not_mem_nil, or_false] at he
    rcases he with rfl | rfl
    · exact Json.readableAt_string _ id
    · exact Json.readableAt_bool _ false

/-- In the records of requested documents the client reads those that are there, in the order in
which they were requested. -/
theorem mapM_ofStored_recordOf (ids : List String) :
    ((ids.map (recordOf records)).filter (!Store.isMissing ·)).mapM (Document.ofStored schema) =
      .ok (ids.filterMap fun id => documents.find? (·.id == id)) := by
  induction ids with
  | nil => rfl
  | cons id rest ih =>
    have hfind := find?_keeps hall id
    rw [List.map_cons, List.filter_cons, recordOf, List.filterMap_cons]
    generalize records.find? (hasId id) = record at hfind ⊢
    generalize documents.find? (·.id == id) = d at hfind ⊢
    cases hfind with
    | none => exact ih
    | some hd =>
      obtain ⟨h⟩ := hd
      dsimp only
      rw [isMissing_withFound, Bool.not_false, if_pos rfl, List.mapM_cons,
        ofStored_withFound h.toStorable, ih]
      rfl

end

end IndexServer

end DocStore
