import DocStore.Json.Raw

/-!
# Records in JSON texts

A record with named fields is an object or an array. In an object the fields stand under their
names in any order, each at most once, and entries under other names are skipped whatever they
hold. In an array the fields stand in their declared order, and the last ones may be missing.
-/

namespace DocStore.RawJson

/-- The fields that a text gives to a record, by name. -/
abbrev Record := List (String × RawJson)

/-- The readable keys of an object; none if one has no value. -/
def readableEntries? : List (Option String × RawJson) → Option (List (String × RawJson))
  | [] => some []
  | (some k, v) :: rest => ((k, v) :: ·) <$> readableEntries? rest
  | (none, _) :: _ => none

def distinct : List String → Bool
  | [] => true
  | k :: rest => !rest.contains k && distinct rest

/-- The fields of a record type with these field names. -/
def record? (names : List String) : RawJson → Option Record
  | object entries => do
    let entries ← readableEntries? entries
    let known := entries.filter fun e => names.contains e.1
    if distinct (known.map (·.1)) then some known else none
  | array items => if items.length ≤ names.length then some (names.zip items) else none
  | _ => none

namespace Record

def required {α : Type} (r : Record) (name : String) (read : RawJson → Option α) : Option α :=
  (r.lookup name).bind read

def withDefault {α : Type} (r : Record) (name : String) (default : α)
    (read : RawJson → Option α) : Option α :=
  match r.lookup name with
  | none => some default
  | some v => read v

/-- A field that may be missing or `null`. -/
def optional {α : Type} (r : Record) (name : String) (read : RawJson → Option α) :
    Option (Option α) :=
  match r.lookup name with
  | none => some none
  | some null => some none
  | some v => some <$> read v

end Record

/-! ## Fields -/

def asString? : RawJson → Option String
  | string s => s
  | _ => none

def asBool? : RawJson → Option Bool
  | bool b => some b
  | _ => none

/-- A natural number of at most `greatest`, written as an integer. -/
def asNat? (greatest : Nat) : RawJson → Option Nat
  | number (some (.integer i)) => if 0 ≤ i ∧ i ≤ greatest then some i.toNat else none
  | _ => none

def asCount? : RawJson → Option Nat := asNat? 0xFFFFFFFFFFFFFFFF

def asList? {α : Type} (read : RawJson → Option α) : RawJson → Option (List α)
  | array items => items.mapM read
  | _ => none

/-- One of several names: a string, or an object with the name as its only key and the value
`null`. -/
def asName? : RawJson → Option String
  | string s => s
  | object [(some k, null)] => some k
  | _ => none

end DocStore.RawJson
