import DocStore.Error
import DocStore.Filter.Compile
import DocStore.Text.Blank

/-!
# Configuration of a store

A `Config` names the index and says how it is reached and used. What is left empty comes from the
`Environment` or from a default: `effectiveUrl`, `effectiveApiKey` and `effectiveTensorFields` are
what is used in the end. `Config.validate` says what a store cannot work with.
-/

namespace DocStore

/-- The environment variables that a configuration may fall back to. -/
structure Environment where
  url : Option String := none
  apiKey : Option String := none

structure Config where
  collectionName : String := "documents"
  /-- The address of the server; empty for that of the environment. -/
  url : String := "http://localhost:8882"
  apiKey : Option String := none
  /-- The settings with which a missing index is created. -/
  indexSettings : Option Json := none
  clientBatchSize : Nat := 4
  requestTimeoutSecs : Nat := 30
  schema : Schema := .content
  escapeFilterValues : Bool := true
  /-- The attributes that are searched; the content if there are none. -/
  tensorFields : Option (List String) := none

namespace Config

def defaultUrl : String := "http://localhost:8882"

/-- The address without slashes at its end. -/
def effectiveUrl (c : Config) (env : Environment) : String :=
  if c.url.isEmpty then (env.url.map Text.dropTrailingSlashes).getD defaultUrl
  else Text.dropTrailingSlashes c.url

/-- A key that is given and not empty. -/
def givenKey : Option String → Option String
  | some key => if key.isEmpty then none else some key
  | none => none

def effectiveApiKey (c : Config) (env : Environment) : Option String :=
  (givenKey c.apiKey).or (givenKey env.apiKey)

def effectiveTensorFields (c : Config) : List String :=
  match c.tensorFields with
  | some (field :: others) => field :: others
  | _ => [c.schema.contentField]

def timeoutMillis (c : Config) : Nat := c.requestTimeoutSecs * 1000

def filterOptions (c : Config) : Filter.Options := ⟨c.schema, c.escapeFilterValues⟩

def problem? (c : Config) : Option ConfigProblem :=
  if Text.isBlank c.collectionName then some .blankCollectionName
  else if c.clientBatchSize = 0 then some .zeroBatchSize
  else
    match c.indexSettings with
    | some settings => if settings.isObject then none else some .settingsNotObject
    | none => none

def validate (c : Config) : Except StoreError Unit :=
  match c.problem? with
  | some problem => .error (.config problem)
  | none => .ok ()

end Config

end DocStore
