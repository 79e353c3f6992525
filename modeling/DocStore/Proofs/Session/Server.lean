import DocStore.Client.Basic

/-!
# A server of indexes

`IndexServer.server` keeps the documents of named indexes and rejects no document. A document that
is added takes the place of the one with its `_id` and comes last, a request for documents is
answered with one record for each identifier, and the number of vectors is twice that of documents.
Which handler a request reaches is up to a router: `Reaches` says that the requests of a client
reach the handlers that they name.
-/

namespace DocStore.IndexServer

open Http

/-- The documents of each index, oldest first. -/
structure State where
  indexes : List (String × List Json)

namespace State

def documents? (s : State) (index : String) : Option (List Json) := s.indexes.lookup index

def setDocuments (s : State) (index : String) (documents : List Json) : State :=
  ⟨s.indexes.map fun e => if e.1 = index then (e.1, documents) else e⟩

/-- Adds an index without documents before the first greater name. -/
def insertIndex (index : String) : List (String × List Json) → List (String × List Json)
  | [] => [(index, [])]
  | e :: rest => if index < e.1 then (index, []) :: e :: rest else e :: insertIndex index rest

def addIndex (s : State) (index : String) : State := ⟨insertIndex index s.indexes⟩

end State

/-! ## Documents of an index -/

def idOf (document : Json) : Json := (document.get? "_id").getD .null

def hasId (id : String) (document : Json) : Bool := (idOf document).asString? == some id

/-- Puts a document last in place of the one with its identifier. -/
def addDocument (documents : List Json) (document : Json) : List Json :=
  documents.filter (fun other => !(idOf other).same (idOf document)) ++ [document]

def deleteAll (documents : List Json) (ids : List String) : List Json :=
  documents.filter fun document => !ids.any (hasId · document)

def withFound : Json → Json
  | .object fields => .object (Fields.insert "_found" (.bool true) fields)
  | other => other

/-- The record of a requested document. -/
def recordOf (documents : List Json) (id : String) : Json :=
  match documents.find? (hasId id) with
  | some document => withFound document
  | none => .object [("_id", .string id), ("_found", .bool false)]

def addedItem (document : Json) : Json :=
  .object [("_id", .string ((idOf document).asString?.getD "")), ("status", .number (.integer 200)),
    ("result", .string "created")]

/-! ## Handlers -/

def accepted (answer : Json) : Reply := ⟨200, answer.text⟩

def notFound (index : String) : Reply :=
  ⟨404, (Json.object [("message", .string ("Index " ++ index ++ " not found")),
    ("code", .string "index_not_found")]).text⟩

def conflict (index : String) : Reply :=
  ⟨409, (Json.object [("message", .string ("Index " ++ index ++ " already exists"))]).text⟩

/-- The reply to a body that a handler cannot take. -/
def unreadable : Reply := ⟨422, ""⟩

def listAnswer (s : State) : Json :=
  .object [("results", .array (s.indexes.map fun e => .object [("indexName", .string e.1)]))]

def createdAnswer (index : String) : Json :=
  .object [("acknowledged", .bool true), ("index", .string index)]

def statsAnswer (documents : List Json) : Json :=
  .object [("numberOfDocuments", .number (.integer documents.length)),
    ("numberOfVectors", .number (.integer (documents.length * 2 : Nat)))]

def addedAnswer (added : List Json) : Json :=
  .object [("errors", .bool false), ("items", .array (added.map addedItem))]

def recordsAnswer (documents : List Json) (ids : List String) : Json :=
  .object [("results", .array (ids.map (recordOf documents)))]

def deletedAnswer (index : String) : Json :=
  .object [("index_name", .string index), ("status", .string "succeeded")]

def documentsOf (body : Json) : List Json :=
  match body.get? "documents" with
  | some (.array documents) => documents
  | _ => []

/-- A body that is a list of identifiers. -/
def idsOf? : Json → Option (List String)
  | .array items => items.mapM Json.asString?
  | _ => none

inductive Endpoint where
  | listIndexes
  | createIndex (index : String)
  | indexStats (index : String)
  | getDocuments (index : String)
  | addDocuments (index : String)
  | deleteDocuments (index : String)
  deriving DecidableEq

/-- Does something with the documents of an index. -/
def onIndex (s : State) (index : String) (f : List Json → List Json × Reply) : State × Reply :=
  match s.documents? index with
  | some documents => (s.setDocuments index (f documents).1, (f documents).2)
  | none => (s, notFound index)

def handle (s : State) : Endpoint → Option Json → State × Reply
  | .listIndexes, _ => (s, accepted (listAnswer s))
  | .createIndex _, none => (s, unreadable)
  | .createIndex index, some _ =>
    if (s.documents? index).isSome then (s, conflict index)
    else (s.addIndex index, accepted (createdAnswer index))
  | .indexStats index, _ =>
    onIndex s index fun documents => (documents, accepted (statsAnswer documents))
  | .addDocuments _, none => (s, unreadable)
  | .addDocuments index, some body =>
    onIndex s index fun documents =>
      ((documentsOf body).foldl addDocument documents, accepted (addedAnswer (documentsOf body)))
  | .getDocuments index, body =>
    match body.bind idsOf? with
    | some ids =>
      onIndex s index fun documents => (documents, accepted (recordsAnswer documents ids))
    | none => (s, unreadable)
  | .deleteDocuments index, body =>
    match body.bind idsOf? with
    | some ids =>
      onIndex s index fun documents => (deleteAll documents ids, accepted (deletedAnswer index))
    | none => (s, unreadable)

/-- Says which handler a method and a target name. -/
abbrev Router := Method → String → Option Endpoint

def server (route : Router) : Server State where
  respond s request :=
    match route request.method request.path with
    | some endpoint => ((handle s endpoint request.body).1, some (handle s endpoint request.body).2)
    | none => (s, some ⟨404, ""⟩)

/-! ## Requests that arrive -/

namespace Endpoint

def method : Endpoint → Method
  | createIndex _ | addDocuments _ | deleteDocuments _ => .post
  | listIndexes | indexStats _ | getDocuments _ => .get

def path : Endpoint → String
  | listIndexes => "/indexes"
  | createIndex index => Client.indexPath index ""
  | indexStats index => Client.indexPath index "/stats"
  | getDocuments index => Client.indexPath index "/documents"
  | addDocuments index => Client.indexPath index "/documents"
  | deleteDocuments index => Client.indexPath index "/documents/delete-batch"

/-- The handler has nothing to do with other indexes. -/
def IsFor (index : String) : Endpoint → Prop
  | listIndexes => True
  | createIndex name => name = index
  | indexStats name => name = index
  | getDocuments name => name = index
  | addDocuments name => name = index
  | deleteDocuments name => name = index

end Endpoint

/-- The requests of a client about an index can be sent and reach the handlers that they name. -/
structure Reaches (route : Router) (c : Client) (index : String) : Prop where
  key : c.apiKey.all isHeaderValue = true
  arrives : ∀ endpoint : Endpoint, endpoint.IsFor index →
    ∃ target, target? (c.baseUrl ++ endpoint.path) = some target ∧
      route endpoint.method target = some endpoint

/-! ## Indexes that are there -/

namespace State

variable {s : State} {index : String}

theorem documents?_setDocuments {documents : List Json} (h : s.documents? index = some documents)
    (new : List Json) : (s.setDocuments index new).documents? index = some new := by
  obtain ⟨indexes⟩ := s
  simp only [documents?, setDocuments] at h ⊢
  induction indexes with
  | nil => cases h
  | cons e rest ih =>
    obtain ⟨name, old⟩ := e
    rw [List.map_cons]
    by_cases hname : index = name
    · subst hname
      rw [if_pos rfl, List.lookup_cons_self]
    · rw [List.lookup_cons, beq_eq_false_iff_ne.mpr hname] at h
      rw [if_neg (Ne.symm hname), List.lookup_cons, beq_eq_false_iff_ne.mpr hname]
      exact ih h

theorem documents?_addIndex (h : s.documents? index = none) :
    (s.addIndex index).documents? index = some [] := by
  obtain ⟨indexes⟩ := s
  simp only [documents?, addIndex] at h ⊢
  induction indexes with
  | nil => exact List.lookup_cons_self
  | cons e rest ih =>
    obtain ⟨name, old⟩ := e
    rw [insertIndex]
    split
    · exact List.lookup_cons_self
    · by_cases hname : index = name
      · subst hname
        rw [List.lookup_cons_self] at h
        cases h
      · rw [List.lookup_cons, beq_eq_false_iff_ne.mpr hname] at h ⊢
        exact ih h

/-- The names of indexes are those under which there are documents. -/
theorem contains_names (s : State) (index : String) :
    (s.indexes.map (·.1)).contains index = (s.documents? index).isSome := by
  rw [documents?]
  induction s.indexes with
  | nil => rfl
  | cons e rest ih =>
    rw [List.map_cons, List.contains_cons, List.lookup_cons, ih]
    cases index == e.1 <;> rfl

end State

end DocStore.IndexServer
