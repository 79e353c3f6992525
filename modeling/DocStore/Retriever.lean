import DocStore.Store

/-!
# Retrievers

A `Retriever` searches a store with a filter and a number of hits of its own, which a run may
replace. A run that gives no filter, or one that is plainly empty, uses that of the retriever; so
does a run that asks for no hits.
-/

namespace DocStore

open Http

structure Retriever where
  store : Store
  filters : Option Json := none
  topK : Nat := 10

namespace Retriever

/-- The filter is plainly empty: `null`, or a mapping or sequence without entries. -/
def isBlank : Json → Bool
  | .null => true
  | .object fields => fields.isEmpty
  | .array items => items.isEmpty
  | _ => false

/-- The filter of a run. -/
def chosenFilters (r : Retriever) (filters : Option Json) : Option Json :=
  (filters.filter (!isBlank ·)).or r.filters

def chosenTopK (r : Retriever) (topK : Option Nat) : Nat := (topK.filter (0 < ·)).getD r.topK

def run (r : Retriever) (queries : List Query) (filters : Option Json) (topK : Option Nat) :
    Noted (List (Call (List Document))) :=
  r.store.search queries (r.chosenTopK topK) (r.chosenFilters filters)

def runSingle (r : Retriever) (query : Query) (filters : Option Json) (topK : Option Nat) :
    Noted (Call (List Document)) := do
  match ← r.run [query] filters topK with
  | call :: _ => return call
  | [] => return pure []

end Retriever

end DocStore
