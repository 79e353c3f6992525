import DocStore.Proofs.Session.Records

/-!
# Sessions on a store

A session connects to a server and makes calls one after the other, each write from a working
directory of its own. `Represents` relates the state of a server to the map from identifiers to what
is kept of the documents that the calls have written, `perform_run` is one step of the simulation,
and `session_outcomes` says what all the calls of a session return.
-/

namespace DocStore

open Http IndexServer

/-! ## Calls -/

/-- A call on a store. -/
inductive Op where
  | connect (config : Config) (env : Environment)
  | write (directory : Option WorkingDirectory) (documents : List Document)
    (policy : DuplicatePolicy)
  | delete (ids : List String)
  | get (ids : List String)
  | count

inductive Outcome where
  | connected
  | written (count : Nat)
  | deleted
  | found (documents : List Document)
  | counted (count : Nat)

namespace Op

def written : Op → List Document
  | write _ documents _ => documents
  | _ => []

/-- Makes a call on a store; connecting gives a new store. -/
def perform (store : Store) : Op → Call (Store × Outcome)
  | connect config env => do
    let store ← Store.connect config env
    return (store, .connected)
  | write directory documents policy => do
    let n ← store.writeDocuments directory documents policy
    return (store, .written n)
  | delete ids => do
    store.deleteDocuments ids
    return (store, .deleted)
  | get ids => do
    let documents ← store.getDocuments ids
    return (store, .found documents)
  | count => do
    let n ← store.countDocuments
    return (store, .counted n)

def performAll (store : Store) : List Op → Call (List Outcome)
  | [] => pure []
  | op :: rest => do
    let (store, outcome) ← op.perform store
    let outcomes ← performAll store rest
    return outcome :: outcomes

end Op

/-- Connects and makes calls. -/
def session (config : Config) (env : Environment) (ops : List Op) : Call (List Outcome) := do
  let store ← Store.connect config env
  Op.performAll store ops

/-! ## What calls do to a map -/

namespace DocumentMap

/-- A call that writes puts documents into the map as they are after they were stored. -/
def apply (m : DocumentMap) : Op → DocumentMap
  | .write directory documents _ => m.writeAll (documents.map (·.stored directory))
  | .delete ids => m.deleteAll ids
  | _ => m

def outcome (m : DocumentMap) : Op → Outcome
  | .connect _ _ => .connected
  | .write _ documents _ => .written documents.length
  | .delete _ => .deleted
  | .get ids => .found (ids.filterMap m.lookup)
  | .count => .counted m.keys.card

def outcomes (m : DocumentMap) : List Op → List Outcome
  | [] => []
  | op :: rest => m.outcome op :: (m.apply op).outcomes rest

end DocumentMap

/-! ## Simulation -/

/-- A valid configuration for an index, with whose client requests reach their handlers. -/
structure Connects (route : Router) (index : String) (schema : Schema) (config : Config)
    (env : Environment) : Prop where
  valid : config.validate = .ok ()
  sameIndex : config.collectionName = index
  sameSchema : config.schema = schema
  reaches : Reaches route (Client.ofConfig config env) index

/-- The store keeps the documents of an index, and its requests reach their handlers. -/
structure Serves (route : Router) (index : String) (schema : Schema) (store : Store) : Prop where
  sameIndex : store.index = index
  sameSchema : store.config.schema = schema
  reaches : Reaches route store.client index

/-- The records of an index are those of the documents of a map, whose identifiers are among
`names`. -/
def Represents (index : String) (schema : Schema) (names : Finset String) (s : State)
    (m : DocumentMap) : Prop :=
  ∃ records documents, s.documents? index = some records ∧
    List.Forall₂ (Keeps schema) records documents ∧ Holds documents m ∧ ∀ d ∈ documents, d.id ∈ names

variable {route : Router} {index : String} {schema : Schema} {names : Finset String}

section

variable {config : Config} {env : Environment} (hc : Connects route index schema config env)
include hc

theorem serves_ofConfig : Serves route index schema (Store.ofConfig config env) :=
  ⟨hc.sameIndex, hc.sameSchema, hc.reaches⟩

theorem connect_run (s : State) :
    (Store.connect config env).run (server route) s =
      (.ok (Store.ofConfig config env),
        if (s.documents? index).isSome then s else s.addIndex index) := by
  obtain ⟨hvalid, hindex, _, hr⟩ := hc
  have hchecked : (Call.ofExcept config.validate).run (server route) s = (.ok (), s) := by
    rw [hvalid]
    rfl
  have hlist := listIndexes_run hr (s := s)
  rw [Store.connect, Call.run_bind hchecked, Call.run_bind hlist, hindex, State.contains_names]
  cases hs : s.documents? index with
  | some documents => rfl
  | none => exact Call.run_bind (createIndex_run hr hs config.indexSettings) _

/-- An index without documents represents the empty map once a store has connected. -/
theorem exists_connected {s : State} (hempty : (s.documents? index).getD [] = []) :
    ∃ s', (Store.connect config env).run (server route) s =
        (.ok (Store.ofConfig config env), s') ∧
      Represents index schema names s' ∅ := by
  refine ⟨_, connect_run hc s, [], [], ?_, .nil, .empty, fun _ hd => (nomatch hd)⟩
  cases hs : s.documents? index with
  | none => exact State.documents?_addIndex hs
  | some documents =>
    rw [hs] at hempty
    subst hempty
    exact hs

end

section

variable {store : Store} (hstore : Serves route index schema store) {s : State} {m : DocumentMap}
  (hs : Represents index schema names s m)
include hstore hs

theorem writeDocuments_run {directory : Option WorkingDirectory} {new : List Document}
    (hnew : ∀ d ∈ new, d.Sendable directory ∧ d.id ∈ names) (policy : DuplicatePolicy) :
    ∃ s', (store.writeDocuments directory new policy).run (server route) s =
        (.ok new.length, s') ∧
      Represents index schema names s' (m.writeAll (new.map (·.stored directory))) := by
  obtain ⟨records, documents, hrecords, hkeeps, hmap, hids⟩ := hs
  rw [Store.writeDocuments]
  by_cases hempty : new = []
  · subst hempty
    exact ⟨s, rfl, records, documents, hrecords, hkeeps, hmap, hids⟩
  · have hne : new.isEmpty = false := by simpa using hempty
    have hstored : (Call.ofExcept (new.mapM (·.toStored directory schema))).run (server route) s =
        (.ok (new.map (·.storedJson directory schema)), s) := by
      rw [mapM_toStored fun d hd => (hnew d hd).1.toStorable]
      rfl
    obtain ⟨s', hrun, hs'⟩ := addDocuments_run hstore.reaches store.config.effectiveTensorFields
      store.config.clientBatchSize (new.map (·.storedJson directory schema)) hrecords
    refine ⟨s', ?_, _, (new.map (·.stored directory)).foldl putLast documents, hs',
      foldl_addDocument_keeps hkeeps (keeps_map fun d hd => (hnew d hd).1), hmap.writeAll _, ?_⟩
    · rw [hne, hstore.sameSchema, hstore.sameIndex]
      show Call.run (server route) (_ >>= _) s = _
      rw [Call.run_bind hstored, Call.run_bind hrun, List.length_map]
      rfl
    · intro d hd
      rcases mem_foldl_putLast hd with hold | hd
      · exact hids d hold
      · obtain ⟨e, he, rfl⟩ := List.mem_map.mp hd
        exact (hnew e he).2

theorem deleteDocuments_run (ids : List String) :
    ∃ s', (store.deleteDocuments ids).run (server route) s = (.ok (), s') ∧
      Represents index schema names s' (m.deleteAll ids) := by
  obtain ⟨records, documents, hrecords, hkeeps, hmap, hids⟩ := hs
  rw [Store.deleteDocuments]
  by_cases hnone : ids = []
  · subst hnone
    exact ⟨s, rfl, records, documents, hrecords, hkeeps, hmap, hids⟩
  · have hne : ids.isEmpty = false := by simpa using hnone
    obtain ⟨s', hrun, hs'⟩ := IndexServer.deleteDocuments_run hstore.reaches hrecords ids
    rw [hne, hstore.sameIndex]
    exact ⟨s', hrun, _, without documents ids, hs', deleteAll_keeps hkeeps ids, hmap.deleteAll ids,
      fun d hd => hids d (List.mem_filter.mp hd).1⟩

theorem getDocuments_run (ids : List String) :
    ∃ s', (store.getDocuments ids).run (server route) s = (.ok (ids.filterMap m.lookup), s') ∧
      Represents index schema names s' m := by
  obtain ⟨records, documents, hrecords, hkeeps, hmap, hids⟩ := hs
  rw [Store.getDocuments]
  by_cases hnone : ids = []
  · subst hnone
    exact ⟨s, rfl, records, documents, hrecords, hkeeps, hmap, hids⟩
  · have hne : ids.isEmpty = false := by simpa using hnone
    have hread : ∀ id ∈ ids, (recordOf records id).ReadableAt (Json.depthBelow 2) :=
      fun id _ => readableAt_recordOf hkeeps id
    obtain ⟨s', hrun, hs'⟩ := IndexServer.getDocuments_run hstore.reaches hrecords hread
    have hfound := mapM_ofStored_recordOf hkeeps ids
    simp only [← hmap.lookup] at hfound
    refine ⟨s', ?_, records, documents, hs', hkeeps, hmap, hids⟩
    rw [hne, hstore.sameIndex, hstore.sameSchema]
    show Call.run (server route) (_ >>= _) s = _
    rw [Call.run_bind hrun, hfound]
    rfl

theorem countDocuments_run (hnames : names.card < 2 ^ 63) :
    ∃ s', store.countDocuments.run (server route) s = (.ok m.keys.card, s') ∧
      Represents index schema names s' m := by
  obtain ⟨records, documents, hrecords, hkeeps, hmap, hids⟩ := hs
  have hlength : records.length = m.keys.card := by
    rw [hmap.card_keys, hkeeps.length_eq]
  have hsubset : m.keys ⊆ names := by
    intro id hid
    rw [hmap.keys_eq, List.mem_toFinset] at hid
    obtain ⟨d, hd, rfl⟩ := List.mem_map.mp hid
    exact hids d hd
  have hbound : records.length < 2 ^ 63 := by
    have := Finset.card_le_card hsubset
    omega
  obtain ⟨s', hrun, hs'⟩ := indexStats_run hstore.reaches hrecords hbound
  refine ⟨s', ?_, records, documents, hs', hkeeps, hmap, hids⟩
  rw [Store.countDocuments, hstore.sameIndex, Call.run_bind hrun, hlength]
  rfl

/-- A call returns what it returns on the map, and does to the state what it does to the map. -/
theorem perform_run (hnames : names.card < 2 ^ 63) {op : Op}
    (hconnect : ∀ config env, op = .connect config env → Connects route index schema config env)
    (hwritten : ∀ directory documents policy, op = .write directory documents policy →
      ∀ d ∈ documents, d.Sendable directory ∧ d.id ∈ names) :
    ∃ store' s', (op.perform store).run (server route) s = (.ok (store', m.outcome op), s') ∧
      Serves route index schema store' ∧ Represents index schema names s' (m.apply op) := by
  cases op with
  | connect config env =>
    have hc := hconnect config env rfl
    have hrun := connect_run hc s
    obtain ⟨records, documents, hrecords, hrest⟩ := hs
    rw [hrecords] at hrun
    exact ⟨Store.ofConfig config env, s, Call.run_bind hrun _, serves_ofConfig hc, records,
      documents, hrecords, hrest⟩
  | write directory new policy =>
    obtain ⟨s', hrun, hs'⟩ := writeDocuments_run hstore hs (hwritten directory new policy rfl) policy
    exact ⟨store, s', Call.run_bind hrun _, hstore, hs'⟩
  | delete ids =>
    obtain ⟨s', hrun, hs'⟩ := deleteDocuments_run hstore hs ids
    exact ⟨store, s', Call.run_bind hrun _, hstore, hs'⟩
  | get ids =>
    obtain ⟨s', hrun, hs'⟩ := getDocuments_run hstore hs ids
    exact ⟨store, s', Call.run_bind hrun _, hstore, hs'⟩
  | count =>
    obtain ⟨s', hrun, hs'⟩ := countDocuments_run hstore hs hnames
    exact ⟨store, s', Call.run_bind hrun _, hstore, hs'⟩

theorem performAll_run (hnames : names.card < 2 ^ 63) {ops : List Op}
    (hconnects : ∀ config env, .connect config env ∈ ops →
      Connects route index schema config env)
    (hwritten : ∀ directory documents policy, .write directory documents policy ∈ ops →
      ∀ d ∈ documents, d.Sendable directory ∧ d.id ∈ names) :
    ∃ s', (Op.performAll store ops).run (server route) s = (.ok (m.outcomes ops), s') := by
  induction ops generalizing store s m with
  | nil => exact ⟨s, rfl⟩
  | cons op rest ih =>
    obtain ⟨store', mid, hrun, hstore', hmid⟩ := perform_run hstore hs hnames
      (fun config env h => hconnects config env (h ▸ List.mem_cons_self))
      (fun directory documents policy h =>
        hwritten directory documents policy (h ▸ List.mem_cons_self))
    obtain ⟨s', hrest⟩ := ih hstore' hmid
      (fun config env h => hconnects config env (List.mem_cons_of_mem op h))
      (fun directory documents policy h =>
        hwritten directory documents policy (List.mem_cons_of_mem op h))
    refine ⟨s', ?_⟩
    rw [Op.performAll, Call.run_bind hrun]
    exact Call.run_bind hrest _

end

/-- In a session on an index without documents every call succeeds and returns what it returns on
the map of the documents that were written last under their identifiers and not deleted since, as
they are after storing. Each write has a working directory, or none if it needs none. The number of
identifiers fits in the counts of the server. -/
theorem session_outcomes {config : Config} {env : Environment} {ops : List Op} {s : State}
    (hfirst : Connects route index schema config env)
    (hconnects : ∀ config env, .connect config env ∈ ops →
      Connects route index schema config env)
    (hempty : (s.documents? index).getD [] = [])
    (hsendable : ∀ directory documents policy, .write directory documents policy ∈ ops →
      ∀ d ∈ documents, d.Sendable directory)
    (hnames : ((ops.flatMap Op.written).map (·.id)).toFinset.card < 2 ^ 63) :
    ∃ s', (session config env ops).run (server route) s =
      (.ok (DocumentMap.outcomes ∅ ops), s') := by
  let names := ((ops.flatMap Op.written).map (·.id)).toFinset
  have hwritten : ∀ directory documents policy, .write directory documents policy ∈ ops →
      ∀ d ∈ documents, d.Sendable directory ∧ d.id ∈ names := by
    intro directory documents policy hop d hd
    refine ⟨hsendable directory documents policy hop d hd,
      List.mem_toFinset.mpr (List.mem_map_of_mem ?_)⟩
    exact List.mem_flatMap.mpr ⟨_, hop, hd⟩
  obtain ⟨mid, hrun, hmid⟩ := exists_connected hfirst hempty
  obtain ⟨s', hrest⟩ := performAll_run (serves_ofConfig hfirst) hmid hnames hconnects hwritten
  refine ⟨s', ?_⟩
  rw [session, Call.run_bind hrun]
  exact hrest

/-! ## A session with repeated identifiers -/

namespace Session

def router (index : String) : Router := fun method target =>
  [.listIndexes, .createIndex index, .indexStats index, .getDocuments index, .addDocuments index,
    .deleteDocuments index].find? fun endpoint =>
      endpoint.method = method && endpoint.path = target

def config (batchSize : Nat) : Config := { collectionName := "notes", clientBatchSize := batchSize }

def draft : Document := .new "a" (.text "draft")

def table : Document := .new "b" (.table (.object [("cell", .bool true)]))

def image (path : String) : Document :=
  ⟨"a", some (.image (.ofText path)), .image, [("_found", .string "no")], none⟩

def home : WorkingDirectory := ⟨.ofText "/srv/notes", by decide⟩

/-- Two batches, the second of which replaces a document of the first, and a picture that is written
from another directory. -/
def ops : List Op :=
  [.write home [draft, table, image "./x.png"] .skip, .count, .get ["b", "c", "a", "b"],
    .connect (config 1) {}, .delete ["b", "c"],
    .write (some ⟨.ofText "/", by decide⟩) [image "x.png"] .fail, .get ["b", "a"],
    .write none [draft, image "//y.png"] .overwrite, .get ["a"], .count]

theorem reaches (batchSize : Nat) :
    Reaches (router "notes") (Client.ofConfig (config batchSize) {}) "notes" := by
  have hbase : (Client.ofConfig (config batchSize) {}).baseUrl = "http://localhost:8882" := by
    show Text.dropTrailingSlashes (Text.dropTrailingSlashes "http://localhost:8882") = _
    decide +kernel
  refine ⟨rfl, ?_⟩
  rw [hbase]
  intro endpoint h
  cases endpoint with
  | listIndexes => exact ⟨"/indexes", by decide +kernel, by decide +kernel⟩
  | createIndex => subst h; exact ⟨"/indexes/notes", by decide +kernel, by decide +kernel⟩
  | indexStats => subst h; exact ⟨"/indexes/notes/stats", by decide +kernel, by decide +kernel⟩
  | getDocuments =>
    subst h; exact ⟨"/indexes/notes/documents", by decide +kernel, by decide +kernel⟩
  | addDocuments =>
    subst h; exact ⟨"/indexes/notes/documents", by decide +kernel, by decide +kernel⟩
  | deleteDocuments =>
    subst h; exact ⟨"/indexes/notes/documents/delete-batch", by decide +kernel, by decide +kernel⟩

theorem connects {batchSize : Nat} (h : batchSize ≠ 0) :
    Connects (router "notes") "notes" .content (config batchSize) {} := by
  refine ⟨?_, rfl, rfl, reaches batchSize⟩
  have hblank : Text.isBlank "notes" = false := by decide +kernel
  rw [Config.validate, Config.problem?]
  simp only [config, hblank, h, ↓reduceIte, Bool.false_eq_true]

theorem draft_sendable (directory : Option WorkingDirectory) : draft.Sendable directory :=
  ⟨⟨by rintro c ⟨⟩; rfl, by rintro c ⟨⟩; exact trivial, List.nodup_nil⟩, fun _ he => (nomatch he)⟩

theorem table_sendable (directory : Option WorkingDirectory) : table.Sendable directory := by
  have hcell : (Json.object [("cell", .bool true)]).ReadableAt Json.depthLimit := by
    refine Json.readableAt_object (by decide) ?_
    intro e he
    rw [List.mem_singleton.mp he]
    exact Json.readableAt_bool _ true
  have htable : Json.read? (Json.object [("cell", .bool true)]).text = some _ :=
    Json.read?_text hcell
  exact ⟨⟨by rintro c ⟨⟩; rfl, by rintro c ⟨⟩; exact htable, List.nodup_nil⟩,
    fun _ he => (nomatch he)⟩

theorem image_sendable {directory : Option WorkingDirectory} {path : String}
    (h : (Path.ofText path).Placed directory) : (image path).Sendable directory := by
  refine ⟨⟨by rintro c ⟨⟩; rfl, by rintro c ⟨⟩; exact h, List.nodup_singleton _⟩, ?_⟩
  intro e he
  rw [List.mem_singleton.mp he]
  exact Json.readableAt_string _ "no"

theorem sendable : ∀ directory documents policy, .write directory documents policy ∈ ops →
    ∀ d ∈ documents, d.Sendable directory := by
  intro directory documents policy h
  simp only [ops, List.mem_cons, List.not_mem_nil, reduceCtorEq, or_false, false_or,
    Op.write.injEq] at h
  rcases h with ⟨rfl, rfl, _⟩ | ⟨rfl, rfl, _⟩ | ⟨rfl, rfl, _⟩
  · simp only [List.forall_mem_cons]
    exact ⟨draft_sendable _, table_sendable _,
      image_sendable ⟨by decide, .inr rfl⟩, List.forall_mem_nil _⟩
  · simp only [List.forall_mem_cons]
    exact ⟨image_sendable ⟨by decide, .inr rfl⟩, List.forall_mem_nil _⟩
  · simp only [List.forall_mem_cons]
    exact ⟨draft_sendable _, image_sendable ⟨by decide, .inl (by decide)⟩,
      List.forall_mem_nil _⟩

end Session

theorem session_outcomes_repeated :
    (Connects (Session.router "notes") "notes" .content (Session.config 2) {} ∧
      (∀ config env, .connect config env ∈ Session.ops →
        Connects (Session.router "notes") "notes" .content config env) ∧
      (∀ directory documents policy, .write directory documents policy ∈ Session.ops →
        ∀ d ∈ documents, d.Sendable directory) ∧
      ((Session.ops.flatMap Op.written).map (·.id)).toFinset.card < 2 ^ 63) ∧
    ∃ s', (session (Session.config 2) {} Session.ops).run (server (Session.router "notes")) ⟨[]⟩ =
      (.ok [.written 3, .counted 2,
        .found [Session.table, Session.image "/srv/notes/x.png", Session.table], .connected, .deleted,
        .written 1, .found [Session.image "/x.png"], .written 2, .found [Session.image "//y.png"],
        .counted 1], s') := by
  have hfirst : Connects (Session.router "notes") "notes" .content (Session.config 2) {} :=
    Session.connects (by decide)
  have hconnects : ∀ config env, .connect config env ∈ Session.ops →
      Connects (Session.router "notes") "notes" .content config env := by
    intro config env h
    simp only [Session.ops, List.mem_cons, List.not_mem_nil, reduceCtorEq, or_false, false_or,
      Op.connect.injEq] at h
    obtain ⟨rfl, rfl⟩ := h
    exact Session.connects (by decide)
  have hnames : ((Session.ops.flatMap Op.written).map (·.id)).toFinset.card < 2 ^ 63 := by
    decide
  exact ⟨⟨hfirst, hconnects, Session.sendable, hnames⟩,
    session_outcomes hfirst hconnects rfl Session.sendable hnames⟩

end DocStore
