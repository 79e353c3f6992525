import DocStore.Config.Basic
import DocStore.Json.Record
import DocStore.Text.Utf8

/-!
# Configuration files

A configuration is a JSON object with one entry a field; optional fields that are not set are left
out, and fields that are left out have their defaults. `Config.save` writes the indented text and
`Config.load` reads and validates it. A file that is missing stands for the defaults.
-/

namespace DocStore.Config

/-! ## Writing -/

def countJson (n : Nat) : Json := .number (.integer n)

def optionalEntry (name : String) : Option Json → List (String × Json)
  | some value => [(name, value)]
  | none => []

/-- The entries of a configuration, in the order of its fields. -/
def toFields (c : Config) : Fields :=
  [("collection_name", .string c.collectionName), ("url", .string c.url)] ++
    optionalEntry "api_key" (c.apiKey.map .string) ++
    optionalEntry "index_settings" c.indexSettings ++
    [("client_batch_size", countJson c.clientBatchSize),
     ("request_timeout_secs", countJson c.requestTimeoutSecs),
     ("schema", .string c.schema.name), ("escape_filter_values", .bool c.escapeFilterValues)] ++
    optionalEntry "tensor_fields" (c.tensorFields.map fun fs => .array (fs.map .string))

def fileText (c : Config) : String := (Json.object c.toFields).prettyText

/-! ## Reading -/

/-- The fields in the order in which an array gives them. -/
def fieldNames : List String :=
  ["collection_name", "url", "api_key", "index_settings", "client_batch_size",
   "request_timeout_secs", "schema", "escape_filter_values", "tensor_fields"]

def readSchema? (raw : RawJson) : Option Schema := raw.asName?.bind Schema.ofName?

/-- The depth that is left for a value one container below the whole text. -/
def settingsDepth : Nat := Json.depthLimit - 1

def ofRaw? (raw : RawJson) : Option Config := do
  let r ← raw.record? fieldNames
  let base : Config := {}
  return {
    collectionName := ← r.withDefault "collection_name" base.collectionName RawJson.asString?
    url := ← r.withDefault "url" base.url RawJson.asString?
    apiKey := ← r.optional "api_key" RawJson.asString?
    indexSettings := ← r.optional "index_settings" (RawJson.toJson? settingsDepth)
    clientBatchSize := ← r.withDefault "client_batch_size" base.clientBatchSize RawJson.asCount?
    requestTimeoutSecs :=
      ← r.withDefault "request_timeout_secs" base.requestTimeoutSecs RawJson.asCount?
    schema := ← r.withDefault "schema" base.schema readSchema?
    escapeFilterValues :=
      ← r.withDefault "escape_filter_values" base.escapeFilterValues RawJson.asBool?
    tensorFields := ← r.optional "tensor_fields" (RawJson.asList? RawJson.asString?) }

def ofText (s : String) : Except StoreError Config :=
  match (RawJson.parse? s.toList).bind ofRaw? with
  | some c => do
    c.validate
    return c
  | none => .error .undecodable

/-! ## Files -/

/-- What stands at the place of a file. -/
inductive Stored where
  | missing
  | directory
  | file (bytes : List UInt8)

def load : Stored → Except StoreError Config
  | .missing => .ok {}
  | .directory => .error .file
  | .file bytes =>
    match Utf8.strict? bytes with
    | some s => ofText s
    | none => .error .file

/-- The places that a file may be written to. Missing directories above it are made. -/
inductive Place where
  | free
  | belowFile
  | directory

/-- What stands at a place after the configuration was saved there. -/
def save (c : Config) : Place → Except StoreError Stored
  | .free => .ok (.file (Utf8.encode c.fileText))
  | .belowFile | .directory => .error .file

end DocStore.Config
