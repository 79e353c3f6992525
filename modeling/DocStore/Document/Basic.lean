import DocStore.Document.Path
import DocStore.Error
import DocStore.Json.Raw

/-!
# Documents

A `Document` has an identifier, a content of one of four types, metadata in the order in which it
was given, and, when it was found by a search, a score. Contents are stored as text: `asText` and
`ofText` go there and back.
-/

namespace DocStore

inductive ContentType where
  | text
  | table
  | audio
  | image
  deriving DecidableEq, Repr

namespace ContentType

def name : ContentType → String
  | text => "text"
  | table => "table"
  | audio => "audio"
  | image => "image"

def ofName? : String → Option ContentType
  | "text" => some text
  | "table" => some table
  | "audio" => some audio
  | "image" => some image
  | _ => none

def ofName (name : String) : Except StoreError ContentType :=
  match ofName? name with
  | some type => .ok type
  | none => .error (.unknownContentType name)

theorem ofName?_name (t : ContentType) : ofName? t.name = some t := by cases t <;> rfl

end ContentType

inductive Content where
  | text (value : String)
  | table (value : Json)
  | audio (path : Path)
  | image (path : Path)

namespace Content

def type : Content → ContentType
  | text _ => .text
  | table _ => .table
  | audio _ => .audio
  | image _ => .image

section

variable (directory : Option WorkingDirectory)

def pathText (p : Path) : Except StoreError String :=
  match p.absolute? directory with
  | some p => .ok p.toText
  | none => .error .file

/-- The content as text: a table as JSON, a media file as its absolute path. -/
def asText : Content → Except StoreError String
  | text value => .ok value
  | table value => .ok value.text
  | audio path => pathText directory path
  | image path => pathText directory path

end

def ofText (type : ContentType) (s : String) : Except StoreError Content :=
  match type with
  | .text => .ok (text s)
  | .table =>
    match Json.read? s with
    | some value => .ok (table value)
    | none => .error .undecodable
  | .audio => .ok (audio (.ofText s))
  | .image => .ok (image (.ofText s))

def same : Content → Content → Bool
  | text a, text b => a == b
  | table a, table b => a.same b
  | audio a, audio b => a.same b
  | image a, image b => a.same b
  | _, _ => false

end Content

structure Document where
  id : String
  content : Option Content
  contentType : ContentType
  metadata : Fields
  /-- The relevance that a search gave to the document. -/
  score : Option Binary64

namespace Document

def new (id : String) (content : Content) : Document := ⟨id, some content, content.type, [], none⟩

/-- Puts a value under a metadata key; a key that is there keeps its place. -/
def withMetadata (d : Document) (key : String) (value : Json) : Document :=
  { d with metadata := d.metadata.insert key value }

def textContent? (d : Document) : Option String :=
  match d.content with
  | some (.text value) => some value
  | _ => none

def sameOption {α : Type} (same : α → α → Bool) : Option α → Option α → Bool
  | none, none => true
  | some a, some b => same a b
  | _, _ => false

/-- Equality of documents: paths by segments, numbers by kind and value, objects without order. -/
def same (d e : Document) : Bool :=
  d.id == e.id && sameOption Content.same d.content e.content && d.contentType == e.contentType &&
    (Json.object d.metadata).same (.object e.metadata) && sameOption Binary64.same d.score e.score

end Document

end DocStore
