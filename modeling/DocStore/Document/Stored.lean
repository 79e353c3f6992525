import DocStore.Document.Basic
import DocStore.Schema

/-!
# Stored documents

`Document.toStored` is the flat object that holds a document in an index, and `Document.ofStored`
reads such an object, as stored or as a search returns it. Attributes of no known name are skipped.
-/

namespace DocStore.Document

section

variable (directory : Option WorkingDirectory) (schema : Schema)

/-- The attribute of a content; a document without content has none. -/
def contentAttribute : Option Content → Except StoreError (List (String × Json))
  | some content => do return [(schema.contentField, .string (← content.asText directory))]
  | none => .ok []

def attributes (d : Document) : Except StoreError (List (String × Json)) := do
  let content ← contentAttribute directory schema d.content
  return [("_id", .string d.id), ("id", .string d.id)] ++ content ++
    [(schema.contentTypeField, .string d.contentType.name)] ++
    d.metadata.map fun e => (Metadata.attributeOf e.1, e.2)

def toStored (d : Document) : Except StoreError Json := do
  return .object (Fields.ofEntries (← d.attributes directory schema))

end

/-- The identifier: that of the index if there is one, else the user's. -/
def storedId? (fields : Fields) : Option String :=
  ((fields.find? "_id").or (fields.find? "id")).bind Json.asString?

/-- The content type; text if none is stored. -/
def storedType (schema : Schema) (fields : Fields) : Except StoreError ContentType :=
  match (fields.find? schema.contentTypeField).bind Json.asString? with
  | some name => ContentType.ofName name
  | none => .ok .text

/-- The content; an empty text is no content. -/
def storedContent (schema : Schema) (type : ContentType) (fields : Fields) :
    Except StoreError (Option Content) :=
  match (fields.find? schema.contentField).bind Json.asString? with
  | some s => if s.isEmpty then .ok none else some <$> Content.ofText type s
  | none => .ok none

def storedMetadata (fields : Fields) : Fields :=
  fields.filterMap fun e => (Metadata.keyOf? e.1).map fun key => (key, e.2)

def storedScore (fields : Fields) : Option Binary64 :=
  ((fields.find? "_score").bind Json.asNumber?).map Number.toBinary64

def ofStored (schema : Schema) (value : Json) : Except StoreError Document :=
  match value with
  | .object fields =>
    match storedId? fields with
    | some id => do
      let type ← storedType schema fields
      let content ← storedContent schema type fields
      return ⟨id, content, type, storedMetadata fields, storedScore fields⟩
    | none => .error .missingId
  | other => .error (.notObject other)

/-- A document that a search found, with its score or without. -/
def ofHit (schema : Schema) (keepScore : Bool) (hit : Json) : Except StoreError Document := do
  let d ← ofStored schema hit
  return if keepScore then d else { d with score := none }

def ofHits (schema : Schema) (keepScores : Bool) (hits : List Json) :
    Except StoreError (List Document) :=
  hits.mapM (ofHit schema keepScores)

end DocStore.Document
