import DocStore.Client.Basic

/-!
# Requests and replies

`Reads` says what a reply means to a client, and `Call.exchanges` lists the requests that a call
sends to a server, each with its reply. A call that goes on after another one sends its requests
after those of the other one (`exchanges_andThen`).
-/

namespace DocStore

open Http

/-- What a reply means to a client that reads its body. -/
inductive Reads {α : Type} (read : RawJson → Option α) : Option Reply → Except StoreError α → Prop
    where
  | lost : Reads read none (.error .transport)
  | refused {reply : Reply} (hs : reply.isSuccess = false) :
    Reads read (some reply) (.error (.api reply.status (Client.errorMessage reply.body)))
  | unreadable {reply : Reply} (hs : reply.isSuccess = true)
    (hr : (RawJson.parse? reply.body.toList).bind read = none) :
    Reads read (some reply) (.error .transport)
  | read {reply : Reply} {a : α} (hs : reply.isSuccess = true)
    (hr : (RawJson.parse? reply.body.toList).bind read = some a) : Reads read (some reply) (.ok a)

theorem reads_iff {α : Type} {read : RawJson → Option α} {reply : Option Reply}
    {result : Except StoreError α} :
    Reads read reply result ↔ result = Client.readReply read reply := by
  constructor
  · intro h
    cases h with
    | lost => rfl
    | refused hs => simp [Client.readReply, hs]
    | unreadable hs hr => simp [Client.readReply, hs, hr]
    | read hs hr => simp [Client.readReply, hs, hr]
  · rintro rfl
    cases reply with
    | none => exact .lost
    | some reply =>
      rw [Client.readReply]
      cases hs : reply.isSuccess with
      | false => exact .refused hs
      | true =>
        rw [if_pos rfl]
        cases hr : (RawJson.parse? reply.body.toList).bind read with
        | none => exact .unreadable hs hr
        | some a => exact .read hs hr

namespace Http.Call

variable {α β σ : Type}

/-- The requests of a run with their replies, in order. -/
def exchanges (server : Server σ) : Call α → σ → List (Request × Option Reply)
  | .done _, _ => []
  | .send request next, s =>
    let (s, reply) := server.respond s request
    (request, reply) :: (next reply).exchanges server s

theorem exchanges_andThen (server : Server σ) (call : Call α) (f : α → Call β) (s : σ) :
    (call.andThen f).exchanges server s = call.exchanges server s ++
      match call.run server s with
      | (.ok a, s) => (f a).exchanges server s
      | (.error _, _) => [] := by
  induction call generalizing s with
  | done result => cases result <;> rfl
  | send request next ih =>
    simp only [andThen, exchanges, run, ih, List.cons_append]

/-- A call whose result is read off does not send anything more. -/
theorem exchanges_bind_pure (server : Server σ) (call : Call α) (f : α → β) (s : σ) :
    (call >>= fun a => pure (f a)).exchanges server s = call.exchanges server s := by
  show (call.andThen fun a => .done (.ok (f a))).exchanges server s = _
  rw [exchanges_andThen]
  cases call.run server s with
  | mk result s' => cases result <;> exact List.append_nil _

end Http.Call

end DocStore
