/-!
# Attribute names of stored documents

A stored document is flat: built-in attributes and the user's metadata share one object. Metadata
keys carry the prefix `__metadata_`, so the two never meet. A `Schema` names the built-in
attributes; `Schema.attributeOf` is the attribute that a field of a filter means.
-/

namespace DocStore

/-- The two namings of the attributes for a document's content and its type. -/
inductive Schema where
  | content
  | text
  deriving DecidableEq, Repr, Inhabited

namespace Schema

def ofName? : String → Option Schema
  | "content" => some content
  | "text" => some text
  | _ => none

def name : Schema → String
  | content => "content"
  | text => "text"

/-- The attribute of the content, which is also the one that is searched. -/
def contentField : Schema → String
  | content => "content"
  | text => "text"

def contentTypeField : Schema → String
  | content => "content_type"
  | text => "mime_type"

/-- The names that filters use for built-in attributes. -/
def reservedFields (schema : Schema) : List String :=
  ["id", schema.contentField, schema.contentTypeField, "metadata", "id_hash_keys", "score",
   "embedding"]

def isReserved (schema : Schema) (field : String) : Bool := schema.reservedFields.contains field

end Schema

namespace Metadata

def marker : String := "__metadata_"

def attributeOf (key : String) : String := marker ++ key

def dropStart? : List Char → List Char → Option (List Char)
  | [], s => some s
  | c :: start, d :: s => if c = d then dropStart? start s else none
  | _ :: _, [] => none

/-- The metadata key that an attribute holds, if it holds metadata. -/
def keyOf? (attr : String) : Option String :=
  (dropStart? marker.toList attr.toList).map String.ofList

end Metadata

/-- The attribute that a field of a filter means: reserved names stand for themselves, every other
name is a metadata key. -/
def Schema.attributeOf (schema : Schema) (field : String) : String :=
  if schema.isReserved field then field else Metadata.attributeOf field

end DocStore
