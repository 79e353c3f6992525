import DocStore.Client.Answer
import DocStore.Client.Query
import DocStore.Config.Basic
import DocStore.Http.Call
import DocStore.Http.Target

/-!
# The client of the index server

A `Client` knows the address of a server and the key to it. Each operation is a call that sends one
request, apart from `addDocuments`, which sends one for each batch and stops at the first failure.
-/

namespace DocStore

open Http

structure Client where
  /-- The address without slashes at its end. -/
  baseUrl : String
  apiKey : Option String

namespace Client

def new (url : String) (apiKey : Option String) : Client := ⟨Text.dropTrailingSlashes url, apiKey⟩

def ofConfig (config : Config) (env : Environment) : Client :=
  new (config.effectiveUrl env) (config.effectiveApiKey env)

def indexPath (index suffix : String) : String :=
  "/indexes/" ++ Text.percentEncoded index ++ suffix

/-- The message of an error reply: that of its body, or the body itself. -/
def errorMessage (body : String) : String :=
  ((RawJson.parse? body.toList).bind Answer.errorMessage?).getD body

/-- Reads a reply. A reply that does not arrive or has an unexpected body is a failure of the
transport. -/
def readReply {α : Type} (read : RawJson → Option α) : Option Reply → Except StoreError α
  | none => .error .transport
  | some reply =>
    if reply.isSuccess then
      match (RawJson.parse? reply.body.toList).bind read with
      | some a => .ok a
      | none => .error .transport
    else .error (.api reply.status (errorMessage reply.body))

/-- Sends a request and reads the reply. Nothing is sent if the address is no URL or the key cannot
stand in a header. -/
def exchange {α : Type} (c : Client) (read : RawJson → Option α) (method : Method) (path : String)
    (body : Option Json) : Call α :=
  match target? (c.baseUrl ++ path), c.apiKey.all isHeaderValue with
  | some target, true =>
    .send ⟨method, target, c.apiKey, body⟩ fun reply => .ofExcept (readReply read reply)
  | _, _ => .fail .transport

/-- Sends a request whose answer does not matter, as long as it is JSON. -/
def command (c : Client) (path : String) (body : Json) : Call Unit := do
  let _ ← c.exchange Answer.any? .post path (some body)

def listIndexes (c : Client) : Call (List String) :=
  c.exchange Answer.indexNames? .get "/indexes" none

/-- Creates an index; without settings it has those of the server. -/
def createIndex (c : Client) (index : String) (settings : Option Json) : Call Unit :=
  c.command (indexPath index "") (settings.getD (.object []))

def indexStats (c : Client) (index : String) : Call IndexStats :=
  c.exchange Answer.stats? .get (indexPath index "/stats") none

/-- The error of a batch in which the server reports errors: that of the first bad item. -/
def reportError (items : List AddedItem) : StoreError :=
  match items.find? AddedItem.isError with
  | some item =>
    .api (item.status.getD 400)
      ("document " ++ item.id.getD "<unknown>" ++ " rejected: " ++
        (item.message.or item.error).getD "unknown error")
  | none => .api 400 "add documents reported errors"

def addBody (documents : List Json) (tensorFields : List String) : Json :=
  .object [("documents", .array documents), ("tensorFields", .array (tensorFields.map .string))]

def addBatch (c : Client) (index : String) (tensorFields : List String) (batch : List Json) :
    Call Unit := do
  let report ← c.exchange Answer.addedReport? .post (indexPath index "/documents")
    (some (addBody batch tensorFields))
  if report.errors then Call.fail (reportError report.items)

/-- Consecutive batches of a size, of which the last may be smaller. A size of zero counts as
one. -/
def batches {α : Type} (size : Nat) (items : List α) : List (List α) :=
  match items with
  | [] => []
  | item :: rest => (item :: rest.take (size - 1)) :: batches size (rest.drop (size - 1))
termination_by items.length
decreasing_by simp only [List.length_drop, List.length_cons]; omega

def addBatches (c : Client) (index : String) (tensorFields : List String) :
    List (List Json) → Call Unit
  | [] => pure ()
  | batch :: rest => do
    c.addBatch index tensorFields batch
    c.addBatches index tensorFields rest

def addDocuments (c : Client) (index : String) (documents : List Json)
    (tensorFields : List String) (batchSize : Nat) : Call Unit :=
  c.addBatches index tensorFields (batches batchSize documents)

def idList (ids : List String) : Json := .array (ids.map .string)

/-- The records of documents by identifier; each says whether it was found. -/
def getDocuments (c : Client) (index : String) (ids : List String) : Call (List Json) :=
  c.exchange Answer.found? .get (indexPath index "/documents") (some (idList ids))

def deleteDocuments (c : Client) (index : String) (ids : List String) : Call Unit :=
  c.command (indexPath index "/documents/delete-batch") (idList ids)

def search (c : Client) (index : String) (request : SearchRequest) : Call (List Json) :=
  c.exchange Answer.hits? .post (indexPath index "/search") (some request.toJson)

end Client

end DocStore
