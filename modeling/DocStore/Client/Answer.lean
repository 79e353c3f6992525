import DocStore.Json.Record

/-!
# Answers of the server

The records that the bodies of replies hold. Each has a reader from the raw form of the body;
entries that a record does not know are skipped.
-/

namespace DocStore

/-- The number of containers that may stand inside a value below `n` others. -/
def Json.depthBelow (n : Nat) : Nat := Json.depthLimit - n

structure IndexStats where
  documents : Nat
  vectors : Nat

/-- What became of one document of a request that adds documents. -/
structure AddedItem where
  id : Option String
  status : Option Nat
  error : Option String
  message : Option String

structure AddedReport where
  errors : Bool
  items : List AddedItem

namespace Answer

open RawJson

def indexName? (raw : RawJson) : Option String := do
  let r ← raw.record? ["indexName"]
  r.required "indexName" asString?

def indexNames? (raw : RawJson) : Option (List String) := do
  let r ← raw.record? ["results"]
  r.required "results" (asList? indexName?)

def stats? (raw : RawJson) : Option IndexStats := do
  let r ← raw.record? ["numberOfDocuments", "numberOfVectors"]
  return ⟨← r.required "numberOfDocuments" asCount?, ← r.withDefault "numberOfVectors" 0 asCount?⟩

/-- A status of an item has 16 bits. -/
def asStatus? : RawJson → Option Nat := asNat? 0xFFFF

def addedItem? (raw : RawJson) : Option AddedItem := do
  let r ← raw.record? ["_id", "status", "error", "message"]
  return ⟨← r.optional "_id" asString?, ← r.optional "status" asStatus?,
    ← r.optional "error" asString?, ← r.optional "message" asString?⟩

def addedReport? (raw : RawJson) : Option AddedReport := do
  let r ← raw.record? ["errors", "items"]
  return ⟨← r.withDefault "errors" false asBool?, ← r.withDefault "items" [] (asList? addedItem?)⟩

def values? (name : String) (raw : RawJson) : Option (List Json) := do
  let r ← raw.record? [name]
  r.withDefault name [] (asList? (toJson? (Json.depthBelow 2)))

def found? : RawJson → Option (List Json) := values? "results"

def hits? : RawJson → Option (List Json) := values? "hits"

def any? : RawJson → Option Json := toJson? Json.depthLimit

def errorMessage? (raw : RawJson) : Option String := do
  let r ← raw.record? ["message"]
  (r.optional "message" asString?).join

end Answer

def AddedItem.isError (item : AddedItem) : Bool :=
  item.error.isSome || item.status.any (400 ≤ ·)

end DocStore
