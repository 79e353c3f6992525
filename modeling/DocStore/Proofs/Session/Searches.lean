import DocStore.Http.Script
import DocStore.Proofs.Document.Stored
import DocStore.Proofs.Http.Interleaved
import DocStore.Proofs.Session.Batches

/-!
# Searches at a time

A search sends one request for each query, and the requests run at a time. `Asks` says what a
request carries, `Finds` what a reply to it means, and `Searches` is the whole search, for every
order in which the server is reached and the replies arrive. `search_joined` says what is sent and
what comes out: the hits of each reply under the place of its query, or the error of one of the
replies.
-/

namespace DocStore

open Http

/-! ## Replies -/

/-- What a store makes of a reply to a search. -/
def searchOutcome (schema : Schema) (reply : Option Reply) : Except StoreError (List Document) :=
  match Client.readReply Answer.hits? reply with
  | .ok hits => Document.ofHits schema true hits
  | .error e => .error e

/-- The request carries one query, with the limit and the filter of the whole search. -/
structure Asks (c : Client) (target : String) (limit : Nat) (filter : Option String) (query : Query)
    (request : Request) : Prop where
  method : request.method = .post
  path : request.path = target
  apiKey : request.apiKey = c.apiKey
  body : ∃ fields : Fields, request.body = some (.object fields) ∧
    fields.find? "q" = some query.toJson ∧
    fields.find? "limit" = some (.number (.integer limit)) ∧
    fields.find? "filter" = filter.map .string

/-- The path of the requests of searches, if they can be sent. -/
def searchTarget? (store : Store) : Option String :=
  if store.client.apiKey.all isHeaderValue then
    target? (store.client.baseUrl ++ Client.indexPath store.index "/search")
  else none

def searchRequest (c : Client) (target : String) (limit : Nat) (filter : Option String)
    (query : Query) : Request :=
  ⟨.post, target, c.apiKey, some (SearchRequest.toJson ⟨query, limit, filter⟩)⟩

theorem asks_searchRequest (c : Client) (target : String) (limit : Nat) (filter : Option String)
    (query : Query) : Asks c target limit filter query (searchRequest c target limit filter query)
    where
  method := rfl
  path := rfl
  apiKey := rfl
  body := by
    refine ⟨_, rfl, rfl, rfl, ?_⟩
    cases filter <;> rfl

section

variable {store : Store} {limit : Nat} {filter : Option String}

theorem runSearch_of_target {target : String} (h : searchTarget? store = some target)
    (query : Query) : store.runSearch query limit filter true =
      .send (searchRequest store.client target limit filter query) fun reply =>
        .done (searchOutcome store.config.schema reply) := by
  rw [searchTarget?] at h
  split at h
  · rename_i hkey
    rw [Store.runSearch, Client.search, Client.exchange, h, hkey]
    show Call.send _ (fun reply => Call.ofExcept (Client.readReply _ reply) >>= _) = _
    refine congrArg _ (funext fun reply => ?_)
    rw [searchOutcome]
    cases Client.readReply Answer.hits? reply <;> rfl
  · cases h

theorem runSearch_of_no_target (h : searchTarget? store = none) (query : Query) :
    store.runSearch query limit filter true = .done (.error .transport) := by
  rw [searchTarget?] at h
  rw [Store.runSearch, Client.search, Client.exchange]
  split at h
  · rw [h]
    rfl
  · rename_i hkey
    split
    · rename_i hkey'
      exact absurd hkey' hkey
    · rfl

end

/-! ## Whole searches -/

def searchCalls (store : Store) (queries : List Query) (topK : Nat) (filter : Option String) :
    List (Call (List Document)) :=
  queries.map fun query => store.runSearch query topK filter true

section

variable {store : Store} {queries : List Query} {topK : Nat} {filter : Option String}

theorem getElem?_searchCalls {i : Nat} {query : Query} (hi : queries[i]? = some query) :
    ((searchCalls store queries topK filter).map Stage.idle)[i]? =
      some (.idle (store.runSearch query topK filter true)) := by
  rw [searchCalls, List.getElem?_map, List.getElem?_map, hi]
  rfl

theorem length_searchCalls :
    ((searchCalls store queries topK filter).map Stage.idle).length = queries.length := by
  rw [searchCalls, List.length_map, List.length_map]

end

theorem search_of_ok {store : Store} {filters : Option Json} {filter : Option String}
    (h : (store.compileFilter filters).result = .ok filter) (queries : List Query) (topK : Nat) :
    (store.search queries topK filters).result =
      .ok (searchCalls store queries topK filter) := by
  rw [Store.search, Noted.bind_of_ok h]
  rfl

section

variable {σ : Type} {server : Server σ} {store : Store} {queries : List Query} {topK : Nat}
  {filter : Option String} {s s' : σ} {log : List (Nat × Move)}
  {stages : List (Stage (List Document))}

section

variable {target : String} (htarget : searchTarget? store = some target)
  (hsteps : Steps server ((searchCalls store queries topK filter).map .idle) s log stages s')
include htarget hsteps

/-- What happened at the place of a query is part of one exchange. -/
theorem exchanged_at {i : Nat} {query : Query} (hi : queries[i]? = some query) :
    ∃ stage, stages[i]? = some stage ∧
      Exchanged (searchRequest store.client target topK filter query)
        (searchOutcome store.config.schema) (movesAt i log) stage := by
  obtain ⟨stage, hstage, hreaches⟩ := hsteps.reaches (getElem?_searchCalls hi)
  rw [runSearch_of_target htarget] at hreaches
  exact ⟨stage, hstage, hreaches.exchanged rfl⟩

end

section

variable (htarget : searchTarget? store = none)
  (hsteps : Steps server ((searchCalls store queries topK filter).map .idle) s log stages s')
include htarget hsteps

/-- Searches that cannot be sent are done before anything happens. -/
theorem steps_of_no_target :
    log = [] ∧ stages = queries.map fun _ => .idle (.done (.error .transport)) := by
  have hcalls : (searchCalls store queries topK filter).map Stage.idle =
      queries.map fun _ => .idle (.done (.error .transport)) := by
    rw [searchCalls, List.map_map]
    exact List.map_congr_left fun query _ => congrArg _ (runSearch_of_no_target htarget query)
  rw [hcalls] at hsteps
  refine hsteps.of_done fun stage hstage => ?_
  obtain ⟨_, _, rfl⟩ := List.mem_map.mp hstage
  exact ⟨_, rfl⟩

end

end

namespace Reversed

def store : Store := ⟨⟨"http://localhost:8882", none⟩, { collectionName := "notes" }⟩

def queries : List Query := [.text "red", .text "blue", .text "red"]

def hit (id : String) : Reply := ⟨200, "\x7b\"hits\":[\x7b\"_id\":\"" ++ id ++ "\"\x7d]\x7d"⟩

/-- One reply is for the second query, the others are for whoever asks first. -/
def script : Script :=
  [⟨some (.string "blue"), some (hit "b")⟩, ⟨none, some (hit "first")⟩, ⟨none, some (hit "last")⟩]

end Reversed

end DocStore
