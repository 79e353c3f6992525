import DocStore.Proofs.Http.Target
import DocStore.Proofs.Session.Batches

/-!
# Routes

An `Operation` on an index is told by the method and the path of the requests that it sends: behind
an origin, operations of different kinds and operations on different indexes have different routes
(`routes_distinct`). Percent encoding keeps the name of an index in one segment, whatever it holds.
The names `.` and `..` are the exception, since they are resolved as dot segments before anything is
sent (`not_all_routes_distinct`).
-/

namespace DocStore

open Http Text

/-- An operation of the client on an index, with what it is given besides the name. -/
inductive Operation where
  | create (settings : Option Json)
  | stats
  | add (documents : List Json) (tensorFields : List String) (batchSize : Nat)
  | get (ids : List String)
  | delete (ids : List String)
  | search (request : SearchRequest)

namespace Operation

inductive Kind where
  | create
  | stats
  | add
  | get
  | delete
  | search
  deriving DecidableEq

namespace Kind

def method : Kind → Method
  | create | add | delete | search => .post
  | stats | get => .get

/-- What follows the name of the index in the path. -/
def suffix : Kind → String
  | create => ""
  | stats => "/stats"
  | add | get => "/documents"
  | delete => "/documents/delete-batch"
  | search => "/search"

/-- The segments of the suffix. -/
def segments : Kind → List (List Char)
  | create => []
  | stats => ["stats".toList]
  | add | get => ["documents".toList]
  | delete => ["documents".toList, "delete-batch".toList]
  | search => ["search".toList]

theorem toList_suffix (k : Kind) : k.suffix.toList = slashed k.segments := by
  cases k <;> decide

theorem segments_chars (k : Kind) : ∀ s ∈ k.segments, ∀ c ∈ s, isSegmentChar c = true := by
  cases k <;> exact segmentChars_of_all (by decide)

theorem segments_dots (k : Kind) :
    ∀ s ∈ k.segments, isSingleDot s = false ∧ isDoubleDot s = false := by
  cases k <;> decide

theorem eq_of_route {k k' : Kind} (hm : k.method = k'.method) (hs : k.segments = k'.segments) :
    k = k' := by
  revert hm hs
  cases k <;> cases k' <;> decide

end Kind

def kind : Operation → Kind
  | create _ => .create
  | stats => .stats
  | add _ _ _ => .add
  | get _ => .get
  | delete _ => .delete
  | search _ => .search

/-- The requests that the operation sends to a server, with their replies. -/
def exchanges {σ : Type} (server : Server σ) (s : σ) (c : Client) (index : String) :
    Operation → List (Request × Option Reply)
  | create settings => (c.createIndex index settings).exchanges server s
  | stats => (c.indexStats index).exchanges server s
  | add documents tensorFields batchSize =>
    (c.addDocuments index documents tensorFields batchSize).exchanges server s
  | get ids => (c.getDocuments index ids).exchanges server s
  | delete ids => (c.deleteDocuments index ids).exchanges server s
  | search request => (c.search index request).exchanges server s

end Operation

/-! ## What operations send -/

section

variable {σ : Type} {server : Server σ} {c : Client} {method : Method} {path index : String}

/-- The request has the method, and the path is sent as its path. -/
def Routed (c : Client) (method : Method) (path : String) (x : Request × Option Reply) : Prop :=
  x.1.method = method ∧ target? (c.baseUrl ++ path) = some x.1.path

theorem exchanges_exchange {α : Type} {target : String}
    (htarget : target? (c.baseUrl ++ path) = some target)
    (hkey : c.apiKey.all isHeaderValue = true) (read : RawJson → Option α) (body : Option Json)
    (s : σ) : (c.exchange read method path body).exchanges server s =
      [(⟨method, target, c.apiKey, body⟩,
        (server.respond s ⟨method, target, c.apiKey, body⟩).2)] := by
  rw [Client.exchange, htarget, hkey]
  rfl

theorem routed_exchange {α : Type} (read : RawJson → Option α) (body : Option Json) (s : σ) :
    ∀ x ∈ (c.exchange read method path body).exchanges server s, Routed c method path x := by
  intro x hx
  unfold Client.exchange at hx
  split at hx
  · rename_i target htarget hkey
    rw [Call.exchanges, List.mem_cons] at hx
    rcases hx with rfl | hx
    · exact ⟨rfl, htarget⟩
    · cases hx
  · cases hx

theorem exchanges_command (body : Json) (s : σ) : (c.command path body).exchanges server s =
    (c.exchange Answer.any? .post path (some body)).exchanges server s :=
  Call.exchanges_bind_pure server _ (fun _ => ()) s

theorem routed_command (body : Json) (s : σ) :
    ∀ x ∈ (c.command path body).exchanges server s, Routed c .post path x := by
  rw [exchanges_command]
  exact routed_exchange _ _ s

theorem routed_addBatch (tensorFields : List String) (batch : List Json) (s : σ) :
    ∀ x ∈ (c.addBatch index tensorFields batch).exchanges server s,
      Routed c .post (Client.indexPath index "/documents") x := by
  intro x hx
  have hreport (report : AddedReport) (s : σ) :
      Call.exchanges server (if report.errors then Call.fail (Client.reportError report.items)
        else pure ()) s = [] := by
    split <;> rfl
  change x ∈ Call.exchanges server (Call.andThen _ _) s at hx
  rw [Call.exchanges_andThen, List.mem_append] at hx
  rcases hx with hx | hx
  · exact routed_exchange _ _ s x hx
  · split at hx
    · rw [hreport] at hx
      cases hx
    · cases hx

theorem routed_addBatches (tensorFields : List String) (batches : List (List Json)) (s : σ) :
    ∀ x ∈ (c.addBatches index tensorFields batches).exchanges server s,
      Routed c .post (Client.indexPath index "/documents") x := by
  induction batches generalizing s with
  | nil => exact fun x hx => nomatch hx
  | cons batch rest ih =>
    intro x hx
    change x ∈ Call.exchanges server (Call.andThen _ _) s at hx
    rw [Call.exchanges_andThen, List.mem_append] at hx
    rcases hx with hx | hx
    · exact routed_addBatch tensorFields batch s x hx
    · split at hx
      · exact ih _ x hx
      · cases hx

/-- All requests of an operation have the route of its kind. -/
theorem Operation.routed (op : Operation) (s : σ) : ∀ x ∈ op.exchanges server s c index,
    Routed c op.kind.method (Client.indexPath index op.kind.suffix) x := by
  intro x hx
  cases op <;> simp only [exchanges] at hx
  case create settings =>
    rw [Client.createIndex] at hx
    exact routed_command _ s x hx
  case stats =>
    rw [Client.indexStats] at hx
    exact routed_exchange _ _ s x hx
  case add documents tensorFields batchSize =>
    rw [Client.addDocuments] at hx
    exact routed_addBatches tensorFields _ s x hx
  case get ids =>
    rw [Client.getDocuments] at hx
    exact routed_exchange _ _ s x hx
  case delete ids =>
    rw [Client.deleteDocuments] at hx
    exact routed_command _ s x hx
  case search request =>
    rw [Client.search] at hx
    exact routed_exchange _ _ s x hx

end

/-! ## Paths of operations -/

/-- The segments of the path of an operation on an index. -/
def routeSegments (index : String) (kind : Operation.Kind) : List (List Char) :=
  "indexes".toList :: (percentEncoded index).toList :: kind.segments

theorem indexPath_eq (index : String) (kind : Operation.Kind) :
    Client.indexPath index kind.suffix = String.ofList (slashed (routeSegments index kind)) := by
  have hsegments : slashed (routeSegments index kind) =
      "/indexes/".toList ++ (percentEncoded index).toList ++ slashed kind.segments := rfl
  rw [hsegments, ← kind.toList_suffix, Client.indexPath, ← String.toList_append,
    ← String.toList_append, String.ofList_toList]

theorem routeSegments_chars (index : String) (kind : Operation.Kind) :
    ∀ s ∈ routeSegments index kind, ∀ c ∈ s, isSegmentChar c = true :=
  List.forall_mem_cons.mpr ⟨List.all_eq_true.mp (by decide),
    List.forall_mem_cons.mpr ⟨isSegmentChar_percentEncoded index, kind.segments_chars⟩⟩

theorem routeSegments_dots {index : String} (h : isDots index = false) (kind : Operation.Kind) :
    ∀ s ∈ routeSegments index kind, isSingleDot s = false ∧ isDoubleDot s = false :=
  List.forall_mem_cons.mpr ⟨by decide,
    List.forall_mem_cons.mpr ⟨dots_percentEncoded h, kind.segments_dots⟩⟩

/-- Different segments make different paths. -/
theorem slashed_inj {segments segments' : List (List Char)} (hne : segments ≠ [])
    (hne' : segments' ≠ []) (hs : ∀ s ∈ segments, ∀ c ∈ s, isSegmentChar c = true)
    (hs' : ∀ s ∈ segments', ∀ c ∈ s, isSegmentChar c = true)
    (h : slashed segments = slashed segments') : segments = segments' := by
  rw [← splitBy_drop_slashed hne hs, h, splitBy_drop_slashed hne' hs']

theorem routeSegments_ne_nil (index : String) (kind : Operation.Kind) :
    routeSegments index kind ≠ [] := List.cons_ne_nil _ _

section

variable {c : Client} (horigin : isOrigin c.baseUrl = true)
include horigin

theorem path_of_routed {index : String} (hdots : isDots index = false) {method : Method}
    {kind : Operation.Kind} {x : Request × Option Reply}
    (h : Routed c method (Client.indexPath index kind.suffix) x) :
    x.1.path = String.ofList (slashed (routeSegments index kind)) := by
  have htarget := h.2
  rw [indexPath_eq] at htarget
  exact target?_slashed (routeSegments_ne_nil index kind) (routeSegments_chars index kind) horigin
    (routeSegments_dots hdots kind) htarget

theorem path_of_listIndexes {σ : Type} {server : Server σ} {s : σ} {x : Request × Option Reply}
    (h : x ∈ c.listIndexes.exchanges server s) :
    x.1.path = String.ofList (slashed ["indexes".toList]) := by
  have htarget := (routed_exchange _ _ s x h).2
  rw [show "/indexes" = String.ofList (slashed ["indexes".toList]) by decide] at htarget
  exact target?_slashed (List.cons_ne_nil _ _) (segmentChars_of_all (by decide)) horigin
    (by decide) htarget

/-- Behind an origin, the method and the path of a request tell the operation and the index, and no
operation on an index asks for the list of indexes. -/
theorem routes_distinct {σ : Type} (server : Server σ) {i j : String} (hi : isDots i = false)
    (hj : isDots j = false) {a b : Operation} {s : σ} {x : Request × Option Reply}
    (hx : x ∈ a.exchanges server s c i) :
    (∀ (s' : σ), ∀ y ∈ b.exchanges server s' c j,
      x.1.method = y.1.method → x.1.path = y.1.path → a.kind = b.kind ∧ i = j) ∧
    ∀ (s' : σ), ∀ y ∈ c.listIndexes.exchanges server s',
      ¬ (x.1.method = y.1.method ∧ x.1.path = y.1.path) := by
  have hroute := a.routed s x hx
  have hpath := path_of_routed horigin hi hroute
  refine ⟨fun s' y hy hmethod hsame => ?_, fun s' y hy ⟨_, hsame⟩ => ?_⟩
  · have hroute' := b.routed s' y hy
    rw [hpath, path_of_routed horigin hj hroute', String.ofList_inj] at hsame
    have hsegments := slashed_inj (routeSegments_ne_nil i a.kind) (routeSegments_ne_nil j b.kind)
      (routeSegments_chars i a.kind) (routeSegments_chars j b.kind) hsame
    simp only [routeSegments, List.cons.injEq, true_and] at hsegments
    have hkind : a.kind.method = b.kind.method := by rw [← hroute.1, hmethod, hroute'.1]
    exact ⟨Operation.Kind.eq_of_route hkind hsegments.2,
      percentEncoded_injective (String.toList_inj.mp hsegments.1)⟩
  · rw [hpath, path_of_listIndexes horigin hy, String.ofList_inj] at hsame
    have hsegments := slashed_inj (routeSegments_ne_nil i a.kind) (List.cons_ne_nil _ _)
      (routeSegments_chars i a.kind) (segmentChars_of_all (by decide)) hsame
    simp [routeSegments] at hsegments

end

def localClient : Client := ⟨"http://localhost:8882", none⟩

theorem routes_distinct_slash :
    isOrigin localClient.baseUrl = true ∧ isDots "notes/2021?#.." = false ∧
      isDots "notes" = false ∧
      ∃ x ∈ (Operation.get ["a"]).exchanges Server.unreachable () localClient "notes/2021?#..",
        x.1.path = "/indexes/notes%2F2021%3F%23../documents" ∧
        ∀ y ∈ Operation.stats.exchanges Server.unreachable () localClient "notes",
          ¬ (x.1.method = y.1.method ∧ x.1.path = y.1.path) := by
  have horigin : isOrigin localClient.baseUrl = true := by decide +kernel
  have hi : isDots "notes/2021?#.." = false := by decide
  have hj : isDots "notes" = false := by decide
  have htarget : target? (localClient.baseUrl ++ Client.indexPath "notes/2021?#.." "/documents") =
      some "/indexes/notes%2F2021%3F%23../documents" := by decide +kernel
  have hsends : (Operation.get ["a"]).exchanges Server.unreachable () localClient "notes/2021?#.." =
      [(⟨.get, "/indexes/notes%2F2021%3F%23../documents", none,
        some (Client.idList ["a"])⟩, none)] := by
    rw [Operation.exchanges, Client.getDocuments, exchanges_exchange htarget rfl]
    rfl
  refine ⟨horigin, hi, hj, _, hsends ▸ List.mem_cons_self, rfl, fun y hy ⟨hmethod, hpath⟩ => ?_⟩
  have hx := hsends ▸ List.mem_cons_self
  exact absurd ((routes_distinct horigin Server.unreachable hi hj hx).1 () y hy hmethod hpath).1
    (by decide)

/-- It is not so that the routes of all names are distinct: documents that are added to the index
`.` are sent where the index `documents` is created. Both names are valid. -/
theorem not_all_routes_distinct :
    ¬ ∀ (c : Client) (i j : String) (a b : Operation), isOrigin c.baseUrl = true →
      ({ collectionName := i } : Config).validate = .ok () →
      ({ collectionName := j } : Config).validate = .ok () →
      ∀ x ∈ a.exchanges Server.unreachable () c i, ∀ y ∈ b.exchanges Server.unreachable () c j,
        x.1.method = y.1.method → x.1.path = y.1.path → a.kind = b.kind ∧ i = j := by
  intro hall
  have hdot : target? (localClient.baseUrl ++ Client.indexPath "." "/documents") =
      some "/indexes/documents" := by decide +kernel
  have hname : target? (localClient.baseUrl ++ Client.indexPath "documents" "") =
      some "/indexes/documents" := by decide +kernel
  have hadd : (Operation.add [.null] [] 1).exchanges Server.unreachable () localClient "." =
      [(⟨.post, "/indexes/documents", none, some (Client.addBody [.null] [])⟩, none)] := by
    have hbatches : Client.batches 1 [Json.null] = [[Json.null]] := by
      rw [Client.batches]
      exact congrArg _ (Client.batches.eq_1 1)
    rw [Operation.exchanges, Client.addDocuments, hbatches]
    have hone : localClient.addBatches "." [] [[.null]] =
        (localClient.addBatch "." [] [.null] >>= fun _ => pure ()) := rfl
    rw [hone, Call.exchanges_bind_pure, addBatch_eq hdot rfl]
    rfl
  have hcreate : (Operation.create none).exchanges Server.unreachable () localClient "documents" =
      [(⟨.post, "/indexes/documents", none, some (.object [])⟩, none)] := by
    rw [Operation.exchanges, Client.createIndex, exchanges_command, exchanges_exchange hname rfl]
    rfl
  have hx := hall localClient "." "documents" (.add [.null] [] 1) (.create none) (by decide +kernel)
    rfl rfl
  rw [hadd, hcreate] at hx
  have := hx _ (List.mem_singleton_self _) _ (List.mem_singleton_self _) rfl rfl
  exact absurd this.1 (by decide)

end DocStore
