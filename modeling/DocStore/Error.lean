import DocStore.Filter.Error

/-!
# What can go wrong with a store

`StoreError` lists the causes and `StoreError.message` words them. Three causes come from outside
and have no wording here: the transport, a text that does not decode, and the file system.
-/

namespace DocStore

inductive ConfigProblem where
  | blankCollectionName
  | zeroBatchSize
  | settingsNotObject
  deriving DecidableEq, Repr

def ConfigProblem.message : ConfigProblem → String
  | blankCollectionName => "collection_name must not be empty"
  | zeroBatchSize => "client_batch_size must be at least 1"
  | settingsNotObject => "index_settings must be a JSON object"

inductive StoreError where
  | filter (error : FilterError)
  /-- A request could not be made, or its answer could not be read. -/
  | transport
  | api (status : Nat) (message : String)
  | notObject (value : Json)
  | missingId
  | unknownContentType (name : String)
  | config (problem : ConfigProblem)
  | undecodable
  | file

namespace StoreError

def invalidText (reason : String) : String := "Invalid input: " ++ reason

/-- The wording of an error that has one. -/
def message? : StoreError → Option String
  | .filter error => some ("Filter error: " ++ error.message)
  | .api status message =>
    some ("Marqo API error (" ++ String.ofList (Decimal.digitChars status) ++ "): " ++ message)
  | .notObject value => some (invalidText ("expected a document object, got " ++ value.text))
  | .missingId => some (invalidText "document is missing `_id`")
  | .unknownContentType name => some ("Unknown content type: " ++ name)
  | .config problem => some ("Configuration error: " ++ problem.message)
  | .transport | .undecodable | .file => none

end StoreError

end DocStore
