import DocStore.Client.Basic
import DocStore.Document.Stored

/-!
# Document stores

A `Store` keeps documents in one index of a server. Filters are compiled and documents converted
before anything is sent; what would ask for nothing sends nothing.
-/

namespace DocStore

open Http

/-- What a write should do with documents whose identifiers are taken. The server always
overwrites. -/
inductive DuplicatePolicy where
  | fail
  | skip
  | overwrite
  deriving DecidableEq, Repr

namespace DuplicatePolicy

def name : DuplicatePolicy → String
  | fail => "fail"
  | skip => "skip"
  | overwrite => "overwrite"

def ofName? : String → Option DuplicatePolicy
  | "fail" => some fail
  | "skip" => some skip
  | "overwrite" => some overwrite
  | _ => none

end DuplicatePolicy

/-- A call that needs a filter fails with the error of the filter. -/
def Noted.call {α : Type} (n : Noted (Call α)) : Call α :=
  match n.result with
  | .ok call => call
  | .error e => .fail (.filter e)

structure Store where
  client : Client
  config : Config

namespace Store

/-- The greatest number of documents that a filter returns. -/
def filterLimit : Nat := 10000

def withClient (client : Client) (config : Config) : Store := ⟨client, config⟩

def ofConfig (config : Config) (env : Environment) : Store :=
  withClient (Client.ofConfig config env) config

/-- Validates a configuration and makes sure that its index exists. -/
def connect (config : Config) (env : Environment) : Call Store := do
  Call.ofExcept config.validate
  let client := Client.ofConfig config env
  let indexes ← client.listIndexes
  unless indexes.contains config.collectionName do
    client.createIndex config.collectionName config.indexSettings
  return withClient client config

def index (s : Store) : String := s.config.collectionName

def countDocuments (s : Store) : Call Nat := do
  return (← s.client.indexStats s.index).documents

def countVectors (s : Store) : Call Nat := do
  return (← s.client.indexStats s.index).vectors

def compileFilter (s : Store) (filters : Option Json) : Noted (Option String) :=
  Filter.compileJson s.config.filterOptions filters

def runSearch (s : Store) (query : Query) (limit : Nat) (filter : Option String)
    (keepScores : Bool) : Call (List Document) := do
  let hits ← s.client.search s.index ⟨query, limit, filter⟩
  Call.ofExcept (Document.ofHits s.config.schema keepScores hits)

def filterDocuments (s : Store) (filters : Option Json) : Noted (Call (List Document)) := do
  let filter ← s.compileFilter filters
  return s.runSearch (.text "") filterLimit filter false

def isMissing (record : Json) : Bool := (record.get? "_found").bind Json.asBool? == some false

/-- The documents with the identifiers, as far as there are any. -/
def getDocuments (s : Store) (ids : List String) : Call (List Document) :=
  if ids.isEmpty then pure []
  else do
    let records ← s.client.getDocuments s.index ids
    Call.ofExcept ((records.filter (!isMissing ·)).mapM (Document.ofStored s.config.schema))

def writeDocuments (s : Store) (directory : Option WorkingDirectory) (documents : List Document)
    (_policy : DuplicatePolicy) : Call Nat :=
  if documents.isEmpty then pure 0
  else do
    let stored ← Call.ofExcept (documents.mapM (·.toStored directory s.config.schema))
    s.client.addDocuments s.index stored s.config.effectiveTensorFields s.config.clientBatchSize
    return stored.length

def deleteDocuments (s : Store) (ids : List String) : Call Unit :=
  if ids.isEmpty then pure () else s.client.deleteDocuments s.index ids

/-- One search for each query; they run at a time. -/
def search (s : Store) (queries : List Query) (topK : Nat) (filters : Option Json) :
    Noted (List (Call (List Document))) := do
  let filter ← s.compileFilter filters
  return queries.map fun query => s.runSearch query topK filter true

end Store

end DocStore
