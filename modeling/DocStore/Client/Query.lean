import DocStore.Json.Basic

/-!
# Search queries

A query is a text, or terms with weights. Its JSON form lists the terms with their weights as
doubles; JSON has no numbers that are not finite.
-/

namespace DocStore

inductive Query where
  | text (value : String)
  | weighted (terms : List (String × Binary64))

namespace Query

/-- The terms of a weighted query: every value has to be a number. -/
def termsOfJson? : List (String × Json) → Option (List (String × Binary64))
  | [] => some []
  | (term, .number n) :: rest => ((term, n.toBinary64) :: ·) <$> termsOfJson? rest
  | _ => none

def ofJson? : Json → Option Query
  | .string s => some (text s)
  | .object fields => weighted <$> termsOfJson? fields
  | _ => none

def weightJson (weight : Binary64) : Json :=
  if weight.isFinite then .number (.double weight) else .null

def toJson : Query → Json
  | text s => .string s
  | weighted terms => .object (terms.map fun t => (t.1, weightJson t.2))

end Query

structure SearchRequest where
  query : Query
  /-- The greatest number of hits. -/
  limit : Nat
  filter : Option String

/-- The body of a search; without a filter it has no entry for it. -/
def SearchRequest.toJson (r : SearchRequest) : Json :=
  .object ([("q", r.query.toJson), ("limit", .number (.integer r.limit))] ++
    match r.filter with
    | some filter => [("filter", .string filter)]
    | none => [])

end DocStore
