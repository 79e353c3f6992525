import DocStore.Json.Basic

/-!
# Requests and replies

What a client sends and what a server answers, without anything that only the connection needs.
-/

namespace DocStore.Http

inductive Method where
  | get
  | post
  deriving DecidableEq, Repr

def Method.name : Method → String
  | .get => "GET"
  | .post => "POST"

structure Request where
  method : Method
  /-- The path as sent: every segment is percent-encoded. -/
  path : String
  apiKey : Option String
  body : Option Json

structure Reply where
  status : Nat
  body : String

/-- The request was done. -/
def Reply.isSuccess (r : Reply) : Bool := 200 ≤ r.status && r.status < 300

end DocStore.Http
