import DocStore.Decimal.Layout

/-!
# JSON values

Objects are lists of entries in the order in which they were written, so that printing shows it.
`Fields.insert` keeps the place of a key that is there already and gives it the new value.
Integers and doubles are different numbers even when their values agree; `Json.same` compares
objects without regard to order.
-/

namespace DocStore

/-- A JSON number is an integer or a double, as its literal was. -/
inductive Number where
  | integer (value : Int)
  | double (value : Binary64)
  deriving DecidableEq, Inhabited

inductive Json where
  | null
  | bool (value : Bool)
  | number (value : Number)
  | string (value : String)
  | array (items : List Json)
  | object (fields : List (String × Json))
  deriving Inhabited

/-- The entries of an object, in order. -/
abbrev Fields := List (String × Json)

namespace Number

/-- The doubles of JSON texts: positional between `10⁻⁵` and `10¹⁶`, and a tie goes to the even
digit. -/
def textLayout : Decimal.Layout := ⟨-5, 15, 1, .toEven⟩

def write : Number → List Char
  | integer value => Decimal.integerChars value
  | double value => textLayout.write value

def toBinary64 : Number → Binary64
  | integer value => .ofInt value
  | double value => value

/-- The same kind and the same value; the two zeros of the doubles are equal. -/
def same : Number → Number → Bool
  | integer a, integer b => a == b
  | double a, double b => a.same b
  | _, _ => false

/-- The integers that a JSON literal can stand for; longer literals are doubles. -/
def integerRange (i : Int) : Bool := -0x8000000000000000 ≤ i && i < 0x10000000000000000

end Number

namespace Fields

def find? (fields : Fields) (key : String) : Option Json := fields.lookup key

/-- Gives `key` a value: in its place if it is there, else at the end. -/
def insert (key : String) (value : Json) : Fields → Fields
  | [] => [(key, value)]
  | (k, v) :: rest => if k = key then (k, value) :: rest else (k, v) :: insert key value rest

/-- Inserts entries one after the other: a repeated key keeps its first place and takes its last
value. -/
def insertAll (fields : Fields) (entries : List (String × Json)) : Fields :=
  entries.foldl (fun acc e => acc.insert e.1 e.2) fields

def ofEntries (entries : List (String × Json)) : Fields := insertAll [] entries

def keys (fields : Fields) : List String := fields.map (·.1)

theorem find?_cons (k : String) (v : Json) (rest : Fields) (key : String) :
    find? ((k, v) :: rest) key = if key = k then some v else find? rest key := by
  simp only [find?, List.lookup_cons]
  by_cases h : key = k
  · simp [h]
  · simp [h, beq_eq_false_iff_ne.mpr h]

theorem find?_insert (fields : Fields) (key : String) (value : Json) (k : String) :
    find? (insert key value fields) k = if k = key then some value else find? fields k := by
  induction fields with
  | nil => simp only [insert, find?_cons]
  | cons e rest ih =>
    obtain ⟨k', v⟩ := e
    simp only [insert]
    by_cases hk : k' = key
    · subst hk
      simp only [↓reduceIte, find?_cons]
      split <;> rfl
    · simp only [hk, ↓reduceIte, find?_cons, ih]
      by_cases h : k = k' <;> simp_all

/-- A key that is there keeps its place, a new one comes last. -/
theorem keys_insert (fields : Fields) (key : String) (value : Json) :
    keys (insert key value fields) =
      if key ∈ keys fields then keys fields else keys fields ++ [key] := by
  induction fields with
  | nil => simp [insert, keys]
  | cons e rest ih =>
    obtain ⟨k, v⟩ := e
    simp only [insert]
    by_cases hk : k = key
    · simp [hk, keys]
    · simp only [keys, List.map_cons, hk, ↓reduceIte, List.mem_cons, Ne.symm hk, false_or] at ih ⊢
      rw [ih]; split <;> rename_i h <;> simp only [h, ↓reduceIte, List.cons_append]

end Fields

namespace Json

def isObject : Json → Bool
  | object _ => true
  | _ => false

def asString? : Json → Option String
  | string value => some value
  | _ => none

def asBool? : Json → Option Bool
  | bool value => some value
  | _ => none

def asNumber? : Json → Option Number
  | number value => some value
  | _ => none

def get? : Json → String → Option Json
  | object fields, key => Fields.find? fields key
  | _, _ => none

inductive Kind where
  | null
  | boolean
  | number
  | string
  | sequence
  | mapping
  deriving DecidableEq, Repr

def kind : Json → Kind
  | null => .null
  | bool _ => .boolean
  | number _ => .number
  | string _ => .string
  | array _ => .sequence
  | object _ => .mapping

def Kind.name : Kind → String
  | .null => "null"
  | .boolean => "a boolean"
  | .number => "a number"
  | .string => "a string"
  | .sequence => "a sequence"
  | .mapping => "a mapping"

/-! ## Sizes -/

mutual

/-- The number of values in a value, itself among them. -/
def size : Json → Nat
  | array items => 1 + itemsSize items
  | object fields => 1 + fieldsSize fields
  | _ => 1

def itemsSize : List Json → Nat
  | [] => 0
  | v :: rest => v.size + itemsSize rest

def fieldsSize : List (String × Json) → Nat
  | [] => 0
  | (_, v) :: rest => v.size + fieldsSize rest

end

/-! ## Equality -/

mutual

/-- Equality of values. Objects are equal when they have the same keys with equal values, in
whatever order. -/
def same : Json → Json → Bool
  | null, null => true
  | bool a, bool b => a == b
  | number a, number b => a.same b
  | string a, string b => a == b
  | array a, array b => sameItems a b
  | object a, object b => a.length == b.length && sameFields a b
  | _, _ => false

def sameItems : List Json → List Json → Bool
  | [], [] => true
  | v :: rest, w :: rest' => v.same w && sameItems rest rest'
  | _, _ => false

/-- Every entry of the first list has an equal value in the second. -/
def sameFields : List (String × Json) → List (String × Json) → Bool
  | [], _ => true
  | (k, v) :: rest, others =>
    (match Fields.find? others k with
      | some w => v.same w
      | none => false) && sameFields rest others

end

end Json

end DocStore
