import DocStore.Error
import DocStore.Http.Message

/-!
# Calls

A `Call` is a computation that may send requests: it is done, or it sends one and goes on with the
reply, which is missing when the transport failed. A call says nothing about the server; `Call.run`
runs it against one, and `Call.joinAll` runs several at a time.
-/

namespace DocStore.Http

inductive Call (α : Type) where
  | done (result : Except StoreError α)
  | send (request : Request) (next : Option Reply → Call α)

/-- A server: the reply to a request in a state, if one arrives. -/
structure Server (σ : Type) where
  respond : σ → Request → σ × Option Reply

namespace Server

def unreachable {σ : Type} : Server σ := ⟨fun s _ => (s, none)⟩

end Server

namespace Call

variable {α β σ : Type}

def fail (e : StoreError) : Call α := .done (.error e)

/-- Goes on after a result; an error ends the call. -/
def andThen : Call α → (α → Call β) → Call β
  | .done (.ok a), f => f a
  | .done (.error e), _ => .done (.error e)
  | .send request next, f => .send request fun reply => (next reply).andThen f

instance : Monad Call where
  pure a := .done (.ok a)
  bind := andThen

def ofExcept (result : Except StoreError α) : Call α := .done result

def run (server : Server σ) : Call α → σ → Except StoreError α × σ
  | .done result, s => (result, s)
  | .send request next, s =>
    let (s, reply) := server.respond s request
    (next reply).run server s

/-- A call that goes on after another one runs in the state that the other one leaves. -/
theorem run_andThen (server : Server σ) (call : Call α) (f : α → Call β) (s : σ) :
    (call.andThen f).run server s =
      match call.run server s with
      | (.ok a, s) => (f a).run server s
      | (.error e, s) => (.error e, s) := by
  induction call generalizing s with
  | done result => cases result <;> rfl
  | send request next ih => simp only [andThen, run, ih]

/-- Answers the next request of a call, if it has one. -/
def advance (server : Server σ) (s : σ) : Call α → Call α × σ
  | .done result => (.done result, s)
  | .send request next =>
    let (s, reply) := server.respond s request
    (next reply, s)

def runEach (server : Server σ) : List (Call α) → σ → Except StoreError (List α) × σ
  | [], s => (.ok [], s)
  | call :: rest, s =>
    match call.run server s with
    | (.error e, s) => (.error e, s)
    | (.ok a, s) =>
      match runEach server rest s with
      | (.error e, s) => (.error e, s)
      | (.ok as, s) => (.ok (a :: as), s)

/-- Runs calls at a time: `schedule` says, by place, whose request is answered next. The first error
ends them all; the results stand in the order of the calls. Calls that the schedule leaves
unfinished are finished in order. -/
def joinAll (server : Server σ) : List Nat → List (Call α) → σ → Except StoreError (List α) × σ
  | [], calls, s => runEach server calls s
  | i :: schedule, calls, s =>
    match calls[i]? with
    | none => joinAll server schedule calls s
    | some call =>
      match call.advance server s with
      | (.done (.error e), s) => (.error e, s)
      | (call, s) => joinAll server schedule (calls.set i call) s

end Call

end DocStore.Http
