import DocStore.Json.Basic
import DocStore.Proofs.Binary64.Rounded

/-!
# Numbers of JSON values

The numbers that JSON values have are the integers of 64 bits, with or without sign, and the finite
doubles (`Number.inRange`). All of them are finite as doubles (`isFinite_toBinary64`).
`Json.numbers` lists the numbers that stand anywhere in a value.
-/

namespace DocStore

/-- The number can stand in a JSON value. -/
def Number.inRange : Number → Bool
  | .integer i => integerRange i
  | .double x => x.isFinite

theorem Number.isFinite_toBinary64 {n : Number} (h : n.inRange = true) :
    n.toBinary64.isFinite = true := by
  cases n with
  | integer i =>
    simp only [inRange, integerRange, Bool.and_eq_true, decide_eq_true_eq] at h
    exact Binary64.isFinite_ofInt (by omega)
  | double x => exact h

namespace Json

mutual

/-- The numbers in a value. -/
def numbers : Json → List Number
  | number n => [n]
  | array items => itemsNumbers items
  | object fields => fieldsNumbers fields
  | _ => []

def itemsNumbers : List Json → List Number
  | [] => []
  | v :: rest => v.numbers ++ itemsNumbers rest

def fieldsNumbers : List (String × Json) → List Number
  | [] => []
  | (_, v) :: rest => v.numbers ++ fieldsNumbers rest

end

theorem mem_itemsNumbers {n : Number} {items : List Json} :
    n ∈ itemsNumbers items ↔ ∃ v ∈ items, n ∈ v.numbers := by
  induction items with
  | nil => simp [itemsNumbers]
  | cons v rest ih => simp only [itemsNumbers, List.mem_append, ih, List.mem_cons, exists_eq_or_imp]

theorem mem_fieldsNumbers {n : Number} {fields : List (String × Json)} :
    n ∈ fieldsNumbers fields ↔ ∃ e ∈ fields, n ∈ e.2.numbers := by
  induction fields with
  | nil => simp [fieldsNumbers]
  | cons e rest ih =>
    obtain ⟨key, v⟩ := e
    simp only [fieldsNumbers, List.mem_append, ih, List.mem_cons, exists_eq_or_imp]

end Json

end DocStore
