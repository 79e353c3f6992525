import DocStore.Filter.Noted

/-!
# Merging comparison mappings

A sequence of comparison mappings stands for their union, in which a repeated key keeps its first
place and takes its last value. Each value that is replaced is noted as an `Overwrite`.
`fieldsSize_merge` says that merging makes nothing larger.
-/

namespace DocStore

def mergeEntries (field : String) (connective : Connective) :
    Fields → List (String × Json) → List Overwrite × Fields
  | merged, [] => ([], merged)
  | merged, (key, value) :: rest =>
    let (later, final) := mergeEntries field connective (merged.insert key value) rest
    match merged.find? key with
    | some old => (⟨field, connective, key, old, value⟩ :: later, final)
    | none => (later, final)

/-- Enters mappings into the merged one, in order, up to the first value that is none. -/
def mergeFrom (field : String) (connective : Connective) : Fields → List Json → Noted Fields
  | merged, [] => pure merged
  | merged, .object fields :: rest =>
    let (overwrites, merged) := mergeEntries field connective merged fields
    Noted.note overwrites >>= fun _ => mergeFrom field connective merged rest
  | _, other :: _ => .fail (.notComparisons connective field other.kind)

def merge (field : String) (connective : Connective) (items : List Json) : Noted Fields :=
  mergeFrom field connective [] items

/-! ## Sizes -/

theorem fieldsSize_insert (fields : Fields) (key : String) (value : Json) :
    Json.fieldsSize (fields.insert key value) ≤ Json.fieldsSize fields + value.size := by
  induction fields with
  | nil => simp [Fields.insert, Json.fieldsSize]
  | cons e rest ih =>
    obtain ⟨k, v⟩ := e
    simp only [Fields.insert]
    split
    · simp only [Json.fieldsSize]; omega
    · simp only [Json.fieldsSize]; omega

theorem fieldsSize_mergeEntries (field : String) (connective : Connective) (merged : Fields)
    (entries : List (String × Json)) :
    Json.fieldsSize (mergeEntries field connective merged entries).2 ≤
      Json.fieldsSize merged + Json.fieldsSize entries := by
  induction entries generalizing merged with
  | nil => simp [mergeEntries, Json.fieldsSize]
  | cons e rest ih =>
    obtain ⟨k, v⟩ := e
    have h := ih (merged.insert k v)
    have := fieldsSize_insert merged k v
    simp only [mergeEntries, Json.fieldsSize]
    split <;> simp only at h ⊢ <;> omega

theorem fieldsSize_mergeFrom {field : String} {connective : Connective} {merged final : Fields}
    {items : List Json} (h : (mergeFrom field connective merged items).result = .ok final) :
    Json.fieldsSize final ≤ Json.fieldsSize merged + Json.itemsSize items := by
  induction items generalizing merged with
  | nil =>
    simp only [mergeFrom, pure, Except.ok.injEq] at h
    rw [h]; simp [Json.itemsSize]
  | cons item rest ih =>
    cases item with
    | object fields =>
      have hm := fieldsSize_mergeEntries field connective merged fields
      simp only [mergeFrom, Noted.note, bind, Noted.andThen] at h
      have := ih h
      simp only [Json.itemsSize, Json.size]; omega
    | _ => simp [mergeFrom, Noted.fail] at h

/-- The merged mapping is no larger than the mappings together. -/
theorem fieldsSize_merge {field : String} {connective : Connective} {final : Fields}
    {items : List Json} (h : (merge field connective items).result = .ok final) :
    Json.fieldsSize final ≤ Json.itemsSize items := by
  have := fieldsSize_mergeFrom h
  simpa [Json.fieldsSize] using this

end DocStore
