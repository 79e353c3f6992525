import DocStore.Proofs.Filter.Outline
import DocStore.Proofs.Filter.Parsed
import DocStore.Proofs.Filter.Truth

/-!
# What filters mean

`meaning` says when a filter, given as a JSON mapping, holds, given which tests hold: the entries of
a mapping and the elements of a sequence are combined by the innermost connective around them, by
`AND` where there is none, and parts that say nothing are left out. A sequence of comparison
mappings on one field can give a key more than once. `Repeats` says whether all of its entries count
then or only the last one. The compiler keeps the last one (`truth_of_compileJson`).
-/

namespace DocStore

/-- The value of a group; a group of nothing has none. -/
def Connective.groupValue (connective : Connective) : List Bool → List Bool
  | [] => []
  | values => [connective.holds values]

namespace Filter

/-- Which of the entries with one key count, in a sequence of comparison mappings. -/
inductive Repeats where
  | all
  | last

def Repeats.kept {α : Type} : Repeats → List (String × α) → List (String × α)
  | .all, entries => entries
  | .last, entries => lastOfEach entries

mutual

/-- The names of the fields in a filter. -/
def namesIn : Json → List String
  | .object entries => entryNames entries
  | .array items => itemNames items
  | _ => []

def itemNames : List Json → List String
  | [] => []
  | v :: rest => namesIn v ++ itemNames rest

def entryNames : List (String × Json) → List String
  | [] => []
  | (key, v) :: rest =>
    (match Connective.ofKey? key with
      | some _ => namesIn v
      | none => [key]) ++ entryNames rest

end

mutual

def keysIn : Json → List String
  | .object entries => entryKeys entries
  | .array items => itemKeys items
  | _ => []

def itemKeys : List Json → List String
  | [] => []
  | v :: rest => keysIn v ++ itemKeys rest

def entryKeys : List (String × Json) → List String
  | [] => []
  | (key, v) :: rest => key :: keysIn v ++ entryKeys rest

end

/-- The text that filter strings have for a scalar. -/
def literalOf : Json → String
  | .null => "null"
  | .bool true => "true"
  | .bool false => "false"
  | .number n => numberText n
  | .string s => escape s
  | _ => ""

section

variable (repeats : Repeats) (schema : Schema) (atom : Test → Bool)

def has (attr : String) (v : Json) : Bool := atom (.equals attr (literalOf v))

/-- The truth of a comparison with a value; none if the value has the wrong form. -/
def relationValues (attr : String) : Relation → Json → List Bool
  | .equal, v => [has atom attr v]
  | .notEqual, v => [!has atom attr v]
  | .oneOf, .array vs => [vs.any (has atom attr)]
  | .oneOf, v => [has atom attr v]
  | .noneOf, .array vs => [!vs.any (has atom attr)]
  | .noneOf, v => [!has atom attr v]
  | relation, .number n =>
    let bound := boundText relation n
    [atom (if isLower relation then .atLeast attr bound else .atMost attr bound)]
  | _, _ => []

mutual

/-- The truth values of what a value says about an attribute under a connective. -/
def groupedValues (attr : String) : Json → List Bool
  | .object entries => (keyedValues attr entries).flatMap (·.2)
  | .array items => (repeats.kept (sequenceValues attr items)).flatMap (·.2)
  | v => [has atom attr v]

def keyedValues (attr : String) : List (String × Json) → List (String × List Bool)
  | [] => []
  | (key, v) :: rest =>
    (key, match Connective.ofKey? key with
      | some connective => connective.groupValue (groupedValues attr v)
      | none =>
        match Relation.ofKey? key with
        | some relation => relationValues atom attr relation v
        | none => []) :: keyedValues attr rest

def sequenceValues (attr : String) : List Json → List (String × List Bool)
  | [] => []
  | .object entries :: rest => keyedValues attr entries ++ sequenceValues attr rest
  | _ :: rest => sequenceValues attr rest

end

def fieldValues (attr : String) : Json → List Bool
  | .array vs => [vs.any (has atom attr)]
  | v => groupedValues repeats atom attr v

mutual

def filterValues : Json → List Bool
  | .object entries => entryValues entries
  | .array items => itemValues items
  | _ => []

def itemValues : List Json → List Bool
  | [] => []
  | v :: rest => filterValues v ++ itemValues rest

def entryValues : List (String × Json) → List Bool
  | [] => []
  | (key, v) :: rest =>
    (match Connective.ofKey? key with
      | some connective => connective.groupValue (filterValues v)
      | none => fieldValues repeats atom (schema.attributeOf key) v) ++ entryValues rest

end

/-- Whether the filter holds; none if it says nothing. -/
def meaning (entries : List (String × Json)) : Option Bool :=
  match entryValues repeats schema atom entries with
  | [] => none
  | values => some (Connective.and.holds values)

end

end Filter

end DocStore
