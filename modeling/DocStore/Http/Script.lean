import DocStore.Http.Call

/-!
# Scripted servers

A `Script` is a list of replies, each of which is used once. A reply may be meant for one search
query; a request takes the first reply that is meant for its query, else the first that is meant for
none.
-/

namespace DocStore.Http

/-- A reply of a script. It is missing where the connection is closed instead. -/
structure Cue where
  query : Option Json
  reply : Option Reply

abbrev Script := List Cue

namespace Script

def queryOf (request : Request) : Option Json := request.body.bind (·.get? "q")

def isFor (query : Option Json) (cue : Cue) : Bool :=
  match query, cue.query with
  | some q, some q' => q.same q'
  | _, _ => false

/-- Takes the first element with a property out of a list. -/
def takeFirst {α : Type} (p : α → Bool) : List α → Option (α × List α)
  | [] => none
  | a :: rest => if p a then some (a, rest) else (takeFirst p rest).map fun (b, bs) => (b, a :: bs)

/-- The answer when the script has no reply left. -/
def exhausted : Reply := ⟨599, "no reply"⟩

/-- Replies with these statuses carry no body. -/
def deliver (r : Reply) : Reply :=
  if r.status = 204 || r.status = 304 then { r with body := "" } else r

def server : Server Script where
  respond script request :=
    match (takeFirst (isFor (queryOf request)) script).or
        (takeFirst (fun cue => cue.query.isNone) script) with
    | some (cue, rest) => (rest, cue.reply.map deliver)
    | none => (script, some exhausted)

end Script

end DocStore.Http
