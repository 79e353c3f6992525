import DocStore.Proofs.Json.ReadBack
import DocStore.Proofs.Session.Chunks
import DocStore.Proofs.Session.Server

/-!
# Calls to a server of indexes

There is one lemma for each operation of the client: where requests reach the handlers that they
name, the call succeeds with what the handler answers and leaves the state that the handler leaves.
Batches of documents are added as if all of them came in one request (`addDocuments_run`).
-/

namespace DocStore

namespace Http.Call

/-- A call goes on after the success of another one. -/
theorem run_bind {α β σ : Type} {server : Server σ} {call : Call α} {s s' : σ} {a : α}
    (h : call.run server s = (.ok a, s')) (f : α → Call β) :
    (call >>= f).run server s = (f a).run server s' := by
  show (call.andThen f).run server s = _
  rw [run_andThen, h]

end Http.Call

theorem mapM_map_some {α β γ : Type} {read : β → Option γ} {g : α → β} {f : α → γ}
    (h : ∀ a, read (g a) = some (f a)) (items : List α) :
    (items.map g).mapM read = some (items.map f) := by
  induction items with
  | nil => rfl
  | cons a rest ih =>
    rw [List.map_cons, List.mapM_cons, h, ih]
    rfl

namespace IndexServer

open Http RawJson

/-! ## What the client reads in the answers -/

theorem read_listAnswer (s : State) :
    (parse? (listAnswer s).write).bind Answer.indexNames? = some (s.indexes.map (·.1)) := by
  have hitems : ReadItems (s.indexes.map fun e => .object [("indexName", .string e.1)])
      (s.indexes.map fun e => .object [(some "indexName", .string (some e.1))]) := by
    refine readItems_map ?_
    intro e _
    exact parse?_object (readFields_cons (parse?_string e.1) .nil)
  have hname (e : String × List Json) :
      Answer.indexName? (.object [(some "indexName", .string (some e.1))]) = some e.1 := rfl
  rw [listAnswer, parse?_object (readFields_cons (parse?_array hitems) .nil)]
  exact mapM_map_some hname s.indexes

theorem read_statsAnswer {documents : List Json} (h : documents.length < 2 ^ 63) :
    (parse? (statsAnswer documents).write).bind Answer.stats? =
      some ⟨documents.length, documents.length * 2⟩ := by
  have hcount : documents.length < 2 ^ 64 := by omega
  have hvectors : documents.length * 2 < 2 ^ 64 := by omega
  have hfits {n : Nat} (hn : n < 2 ^ 64) :
      asCount? (.number (some (.integer n))) = some n := by
    rw [asCount?, asNat?, if_pos (by omega), Int.toNat_natCast]
  rw [statsAnswer, parse?_object
    (readFields_cons (parse?_nat hcount) (readFields_cons (parse?_nat hvectors) .nil))]
  show (do
    return IndexStats.mk (← asCount? (.number (some (.integer documents.length))))
      (← asCount? (.number (some (.integer (documents.length * 2 : Nat)))))) = _
  rw [hfits hcount, hfits hvectors]
  rfl

def readItem (document : Json) : AddedItem :=
  ⟨some ((idOf document).asString?.getD ""), some 200, none, none⟩

/-- The raw form of what the server says about it. -/
def rawItem (document : Json) : RawJson :=
  .object [(some "_id", .string (some ((idOf document).asString?.getD ""))),
    (some "status", .number (some (.integer (200 : Nat)))),
    (some "result", .string (some "created"))]

theorem parse?_addedItem (document : Json) :
    parse? (addedItem document).write = some (rawItem document) := by
  have hstatus : 200 < 2 ^ 64 := by decide
  exact parse?_object (readFields_cons (parse?_string _)
    (readFields_cons (parse?_nat hstatus) (readFields_cons (parse?_string "created") .nil)))

theorem addedItem?_rawItem (document : Json) :
    Answer.addedItem? (rawItem document) = some (readItem document) := rfl

theorem read_addedAnswer (added : List Json) :
    (parse? (addedAnswer added).write).bind Answer.addedReport? =
      some ⟨false, added.map readItem⟩ := by
  have hitems : ReadItems (added.map addedItem) (added.map rawItem) :=
    readItems_map fun document _ => parse?_addedItem document
  rw [addedAnswer, parse?_object (readFields_cons (parse?_bool false)
    (readFields_cons (parse?_array hitems) .nil))]
  show (do
    return AddedReport.mk (← some false) (← (added.map rawItem).mapM Answer.addedItem?)) = _
  rw [mapM_map_some addedItem?_rawItem]
  rfl

theorem read_recordsAnswer {documents : List Json} {ids : List String}
    (h : ∀ id ∈ ids, (recordOf documents id).ReadableAt (Json.depthBelow 2)) :
    (parse? (recordsAnswer documents ids).write).bind Answer.found? =
      some (ids.map (recordOf documents)) := by
  have hall : ∀ v ∈ ids.map (recordOf documents), v.ReadableAt (Json.depthBelow 2) := by
    intro v hv
    obtain ⟨id, hid, rfl⟩ := List.mem_map.mp hv
    exact h id hid
  obtain ⟨raws, hraws, hread⟩ := Json.exists_raw_items hall
  rw [recordsAnswer, parse?_object (readFields_cons (parse?_array hraws) .nil)]
  exact hread

theorem read_createdAnswer (index : String) :
    (parse? (createdAnswer index).write).bind Answer.any? = some (createdAnswer index) := by
  refine Json.readableAt_object (by simp [Fields.keys]) ?_
  intro e he
  simp only [List.mem_cons, List.not_mem_nil, or_false] at he
  rcases he with rfl | rfl
  · exact Json.readableAt_bool _ true
  · exact Json.readableAt_string _ index

theorem read_deletedAnswer (index : String) :
    (parse? (deletedAnswer index).write).bind Answer.any? = some (deletedAnswer index) := by
  refine Json.readableAt_object (by simp [Fields.keys]) ?_
  intro e he
  simp only [List.mem_cons, List.not_mem_nil, or_false] at he
  rcases he with rfl | rfl <;> exact Json.readableAt_string _ _

/-! ## Requests -/

theorem idsOf?_idList (ids : List String) : idsOf? (Client.idList ids) = some ids := by
  have hstring (id : String) : (Json.string id).asString? = some id := rfl
  show (ids.map Json.string).mapM Json.asString? = some ids
  rw [mapM_map_some hstring, List.map_id']

theorem onIndex_eq {s : State} {index : String} {documents : List Json}
    (h : s.documents? index = some documents) (f : List Json → List Json × Reply) :
    onIndex s index f = (s.setDocuments index (f documents).1, (f documents).2) := by
  rw [onIndex, h]

section

variable {route : Router} {c : Client} {index : String} (hr : Reaches route c index) {s : State}
include hr

/-- A request that its handler accepts is answered with what the client reads in the answer. -/
theorem exchange_run {α : Type} {read : RawJson → Option α} (endpoint : Endpoint)
    (hfor : endpoint.IsFor index) {body : Option Json} {s' : State} {answer : Json} {a : α}
    (hhandle : handle s endpoint body = (s', accepted answer))
    (hread : (parse? answer.write).bind read = some a) :
    (c.exchange read endpoint.method endpoint.path body).run (server route) s = (.ok a, s') := by
  obtain ⟨target, htarget, hroute⟩ := hr.arrives endpoint hfor
  have hrespond : (server route).respond s ⟨endpoint.method, target, c.apiKey, body⟩ =
      (s', some (accepted answer)) := by
    simp only [server, hroute, hhandle]
  have hreply : Client.readReply read (some (accepted answer)) = .ok a := by
    have htext : answer.text.toList = answer.write := String.toList_ofList
    simp only [Client.readReply, accepted, htext, hread]
    rfl
  rw [Client.exchange, htarget, hr.key]
  show (Call.send ⟨endpoint.method, target, c.apiKey, body⟩ fun reply =>
    .ofExcept (Client.readReply read reply)).run (server route) s = _
  rw [Call.run, hrespond]
  show (Client.readReply read (some (accepted answer)), s') = _
  rw [hreply]

theorem command_run (endpoint : Endpoint) (hfor : endpoint.IsFor index)
    (hpost : endpoint.method = .post) {body : Json} {s' : State} {answer : Json}
    (hhandle : handle s endpoint (some body) = (s', accepted answer))
    (hread : (parse? answer.write).bind Answer.any? = some answer) :
    (c.command endpoint.path body).run (server route) s = (.ok (), s') := by
  have hrun := exchange_run hr endpoint hfor hhandle hread
  rw [hpost] at hrun
  rw [Client.command, Call.run_bind hrun]
  rfl

/-! ## Operations of the client -/

theorem listIndexes_run :
    c.listIndexes.run (server route) s = (.ok (s.indexes.map (·.1)), s) :=
  exchange_run hr .listIndexes trivial rfl (read_listAnswer s)

theorem createIndex_run (h : s.documents? index = none) (settings : Option Json) :
    (c.createIndex index settings).run (server route) s = (.ok (), s.addIndex index) := by
  have hhandle : handle s (.createIndex index) (some (settings.getD (.object []))) =
      (s.addIndex index, accepted (createdAnswer index)) := by
    rw [handle, h]
    rfl
  exact command_run hr (.createIndex index) rfl rfl hhandle (read_createdAnswer index)

variable {documents : List Json} (h : s.documents? index = some documents)
include h

theorem indexStats_run (hn : documents.length < 2 ^ 63) :
    ∃ s', (c.indexStats index).run (server route) s =
        (.ok ⟨documents.length, documents.length * 2⟩, s') ∧
      s'.documents? index = some documents := by
  refine ⟨s.setDocuments index documents, ?_, State.documents?_setDocuments h documents⟩
  have hhandle : handle s (.indexStats index) none =
      (s.setDocuments index documents, accepted (statsAnswer documents)) := by
    rw [handle, onIndex_eq h]
  exact exchange_run hr (.indexStats index) rfl hhandle (read_statsAnswer hn)

theorem getDocuments_run {ids : List String}
    (hread : ∀ id ∈ ids, (recordOf documents id).ReadableAt (Json.depthBelow 2)) :
    ∃ s', (c.getDocuments index ids).run (server route) s =
        (.ok (ids.map (recordOf documents)), s') ∧
      s'.documents? index = some documents := by
  refine ⟨s.setDocuments index documents, ?_, State.documents?_setDocuments h documents⟩
  have hhandle : handle s (.getDocuments index) (some (Client.idList ids)) =
      (s.setDocuments index documents, accepted (recordsAnswer documents ids)) := by
    rw [handle, Option.bind_some, idsOf?_idList]
    exact onIndex_eq h _
  exact exchange_run hr (.getDocuments index) rfl hhandle (read_recordsAnswer hread)

theorem deleteDocuments_run (ids : List String) :
    ∃ s', (c.deleteDocuments index ids).run (server route) s = (.ok (), s') ∧
      s'.documents? index = some (deleteAll documents ids) := by
  refine ⟨s.setDocuments index (deleteAll documents ids), ?_, State.documents?_setDocuments h _⟩
  have hhandle : handle s (.deleteDocuments index) (some (Client.idList ids)) =
      (s.setDocuments index (deleteAll documents ids), accepted (deletedAnswer index)) := by
    rw [handle, Option.bind_some, idsOf?_idList]
    exact onIndex_eq h _
  exact command_run hr (.deleteDocuments index) rfl rfl hhandle (read_deletedAnswer index)

theorem addBatch_run (tensorFields : List String) (batch : List Json) :
    ∃ s', (c.addBatch index tensorFields batch).run (server route) s = (.ok (), s') ∧
      s'.documents? index = some (batch.foldl addDocument documents) := by
  refine ⟨s.setDocuments index (batch.foldl addDocument documents), ?_,
    State.documents?_setDocuments h _⟩
  have hhandle : handle s (.addDocuments index) (some (Client.addBody batch tensorFields)) =
      (s.setDocuments index (batch.foldl addDocument documents),
        accepted (addedAnswer batch)) := by
    rw [handle]
    exact onIndex_eq h _
  have hrun := exchange_run hr (.addDocuments index) rfl hhandle (read_addedAnswer batch)
  rw [Client.addBatch]
  exact (Call.run_bind hrun _).trans rfl

end

/-! ## Batches -/

section

variable {route : Router} {c : Client} {index : String} (hr : Reaches route c index)
include hr

theorem addBatches_run (tensorFields : List String) (batches : List (List Json)) {s : State}
    {documents : List Json} (h : s.documents? index = some documents) :
    ∃ s', (c.addBatches index tensorFields batches).run (server route) s = (.ok (), s') ∧
      s'.documents? index = some (batches.flatten.foldl addDocument documents) := by
  induction batches generalizing s documents with
  | nil => exact ⟨s, rfl, h⟩
  | cons batch rest ih =>
    obtain ⟨mid, hrun, hmid⟩ := addBatch_run hr h tensorFields batch
    obtain ⟨s', hrest, hs'⟩ := ih hmid
    refine ⟨s', ?_, ?_⟩
    · rw [Client.addBatches, Call.run_bind hrun]
      exact hrest
    · rw [List.flatten_cons, List.foldl_append]
      exact hs'

/-- Documents that are added in batches are added in their order. -/
theorem addDocuments_run (tensorFields : List String) (size : Nat) (added : List Json) {s : State}
    {documents : List Json} (h : s.documents? index = some documents) :
    ∃ s', (c.addDocuments index added tensorFields size).run (server route) s = (.ok (), s') ∧
      s'.documents? index = some (added.foldl addDocument documents) := by
  obtain ⟨s', hrun, hs'⟩ := addBatches_run hr tensorFields (Client.batches size added) h
  rw [flatten_batches] at hs'
  exact ⟨s', hrun, hs'⟩

end

end IndexServer

end DocStore
