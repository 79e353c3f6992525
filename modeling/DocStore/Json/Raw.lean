import DocStore.Json.Token

/-!
# JSON texts before their values are read

A `RawJson` is what a text says before any value is read: literals may have no value, and an object
may name a key twice. `RawJson.parse?` builds it with a machine that takes one token at a step and
keeps the containers that are still open on a stack. `RawJson.toJson?` reads the value, and
`RawJson.ofJson` is the raw form of a value.
-/

namespace DocStore

inductive RawJson where
  | null
  | bool (value : Bool)
  | number (value : Option Number)
  | string (value : Option String)
  | array (items : List RawJson)
  | object (entries : List (Option String × RawJson))
  deriving Inhabited

namespace RawJson

/-! ## From tokens -/

/-- A container that is still open, with what it holds so far, the last first. -/
inductive Frame where
  | array (items : List RawJson)
  | object (entries : List (Option String × RawJson)) (key : Option String)

/-- What may come next, and the open containers, the innermost first. -/
inductive State where
  | value (stack : List Frame)
  | firstItem (stack : List Frame)
  | firstKey (stack : List Frame)
  | key (stack : List Frame) (entries : List (Option String × RawJson))
  | colon (stack : List Frame) (entries : List (Option String × RawJson)) (key : Option String)
  | nextItem (stack : List Frame) (items : List RawJson)
  | nextEntry (stack : List Frame) (entries : List (Option String × RawJson))
  | done (value : RawJson)

namespace State

/-- A value is complete: it is an item or an entry of the innermost open container. -/
def complete (value : RawJson) : List Frame → State
  | [] => .done value
  | .array items :: stack => .nextItem stack (value :: items)
  | .object entries k :: stack => .nextEntry stack ((k, value) :: entries)

/-- A token that starts a value. -/
def start (stack : List Frame) : Token → Option State
  | .openArray => some (.firstItem stack)
  | .openObject => some (.firstKey stack)
  | .null => some (complete .null stack)
  | .bool b => some (complete (.bool b) stack)
  | .number n => some (complete (.number n) stack)
  | .string s => some (complete (.string s) stack)
  | _ => none

def step : State → Token → Option State
  | .value stack, t => start stack t
  | .firstItem stack, .closeArray => some (complete (.array []) stack)
  | .firstItem stack, t => start (.array [] :: stack) t
  | .firstKey stack, .closeObject => some (complete (.object []) stack)
  | .firstKey stack, .string k => some (.colon stack [] k)
  | .key stack entries, .string k => some (.colon stack entries k)
  | .colon stack entries k, .colon => some (.value (.object entries k :: stack))
  | .nextItem stack items, .comma => some (.value (.array items :: stack))
  | .nextItem stack items, .closeArray => some (complete (.array items.reverse) stack)
  | .nextEntry stack entries, .comma => some (.key stack entries)
  | .nextEntry stack entries, .closeObject => some (complete (.object entries.reverse) stack)
  | _, _ => none

def run : State → List Token → Option State
  | state, [] => some state
  | state, t :: rest => (step state t).bind (run · rest)

end State

def ofTokens? (tokens : List Token) : Option RawJson :=
  match State.run (.value []) tokens with
  | some (.done value) => some value
  | _ => none

def parse? (text : List Char) : Option RawJson := (Token.scan text).bind ofTokens?

/-! ## Values -/

mutual

/-- The value of a raw form with at most `depth` containers inside one another. A repeated key keeps
its first place and takes its last value. -/
def toJson? (depth : Nat) : RawJson → Option Json
  | null => some .null
  | bool b => some (.bool b)
  | number n => n.map .number
  | string s => s.map .string
  | array items =>
    match depth with
    | 0 => none
    | depth + 1 => (toJsonItems? depth items).map .array
  | object entries =>
    match depth with
    | 0 => none
    | depth + 1 => (toJsonFields? depth entries).map fun es => .object (Fields.ofEntries es)

def toJsonItems? (depth : Nat) : List RawJson → Option (List Json)
  | [] => some []
  | item :: rest =>
    match item.toJson? depth, toJsonItems? depth rest with
    | some v, some vs => some (v :: vs)
    | _, _ => none

def toJsonFields? (depth : Nat) : List (Option String × RawJson) → Option (List (String × Json))
  | [] => some []
  | (key, item) :: rest =>
    match key, item.toJson? depth, toJsonFields? depth rest with
    | some k, some v, some es => some ((k, v) :: es)
    | _, _, _ => none

end

mutual

def ofJson : Json → RawJson
  | .null => null
  | .bool b => bool b
  | .number n => number (some n)
  | .string s => string (some s)
  | .array items => array (ofJsonItems items)
  | .object fields => object (ofJsonFields fields)

def ofJsonItems : List Json → List RawJson
  | [] => []
  | v :: rest => ofJson v :: ofJsonItems rest

def ofJsonFields : List (String × Json) → List (Option String × RawJson)
  | [] => []
  | (k, v) :: rest => (some k, ofJson v) :: ofJsonFields rest

end

end RawJson

namespace Json

/-- The number of containers that may stand inside one another. -/
def depthLimit : Nat := 127

/-- Reads a text that is one JSON value between blanks. -/
def read? (text : String) : Option Json :=
  (RawJson.parse? text.toList).bind (RawJson.toJson? depthLimit)

end Json

end DocStore
