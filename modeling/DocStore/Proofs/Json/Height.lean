import DocStore.Proofs.Json.Indented

/-!
# The depth that reading needs

`Json.height` counts the containers of a value that stand inside one another. A text that is read
as itself somewhere is read wherever as many containers may stand, and nowhere else
(`toJson?_of_readableAt`).
-/

namespace DocStore

namespace Json

mutual

/-- The number of containers inside one another, the value itself among them. -/
def height : Json → Nat
  | array items => itemsHeight items + 1
  | object fields => fieldsHeight fields + 1
  | _ => 0

def itemsHeight : List Json → Nat
  | [] => 0
  | v :: rest => max v.height (itemsHeight rest)

def fieldsHeight : List (String × Json) → Nat
  | [] => 0
  | (_, v) :: rest => max v.height (fieldsHeight rest)

end

end Json

/-- What is read is the same at each depth from `height` on, and nothing is read below it. -/
def NeedsDepth {α : Type} (height : Nat) (read : Nat → Option α) : Prop :=
  ∃ value, ∀ depth, read depth = if height ≤ depth then value else none

namespace NeedsDepth

variable {α β γ : Type} {height height' : Nat} {read : Nat → Option α} {read' : Nat → Option β}

theorem always (value : Option α) : NeedsDepth 0 fun _ => value :=
  ⟨value, fun depth => (if_pos (Nat.zero_le depth)).symm⟩

theorem within (h : NeedsDepth height read) (f : α → β) (hzero : read' 0 = none)
    (hsucc : ∀ depth, read' (depth + 1) = (read depth).map f) : NeedsDepth (height + 1) read' := by
  obtain ⟨value, hvalue⟩ := h
  refine ⟨value.map f, fun depth => ?_⟩
  cases depth with
  | zero => rw [hzero, if_neg (by omega)]
  | succ depth =>
    rw [hsucc, hvalue]
    by_cases hle : height ≤ depth
    · rw [if_pos hle, if_pos (by omega)]
    · rw [if_neg hle, if_neg (by omega)]
      rfl

theorem both (h : NeedsDepth height read) (h' : NeedsDepth height' read') (f : α → β → γ) :
    NeedsDepth (max height height') fun depth =>
      (read depth).bind fun a => (read' depth).map (f a) := by
  obtain ⟨value, hvalue⟩ := h
  obtain ⟨value', hvalue'⟩ := h'
  refine ⟨value.bind fun a => value'.map (f a), fun depth => ?_⟩
  dsimp only
  rw [hvalue, hvalue']
  by_cases hle : max height height' ≤ depth
  · rw [if_pos hle, if_pos (by omega), if_pos (by omega)]
  · rw [if_neg hle]
    by_cases hfirst : height ≤ depth
    · rw [if_pos hfirst, if_neg (by omega)]
      cases value <;> rfl
    · rw [if_neg hfirst]
      rfl

end NeedsDepth

namespace RawJson

theorem parse?_number {n : Number} (h : n.inRange = true) :
    ∃ value, parse? (Json.number n).write = some (.number value) := by
  obtain ⟨value, hvalue⟩ := Token.scan_number h
  refine ⟨value, ?_⟩
  rw [parse?, Json.write_number, hvalue]
  rfl

theorem toJsonItems?_cons (depth : Nat) (item : RawJson) (rest : List RawJson) :
    toJsonItems? depth (item :: rest) =
      (item.toJson? depth).bind fun v => (toJsonItems? depth rest).map (v :: ·) := by
  rw [toJsonItems?]
  cases item.toJson? depth <;> cases toJsonItems? depth rest <;> rfl

theorem toJsonFields?_cons (depth : Nat) (k : String) (item : RawJson)
    (rest : List (Option String × RawJson)) :
    toJsonFields? depth ((some k, item) :: rest) =
      (item.toJson? depth).bind fun v => (toJsonFields? depth rest).map ((k, v) :: ·) := by
  simp only [toJsonFields?]
  cases item.toJson? depth <;> cases toJsonFields? depth rest <;> rfl

mutual

/-- The text of a value needs the depth of the value. -/
theorem needsDepth_write (v : Json) (h : ∀ n ∈ v.numbers, n.inRange = true) :
    ∃ raw, parse? v.write = some raw ∧ NeedsDepth v.height fun depth => raw.toJson? depth := by
  match v with
  | .null => exact ⟨_, parse?_null, .always _⟩
  | .bool b => exact ⟨_, parse?_bool b, .always _⟩
  | .number n =>
    obtain ⟨value, hvalue⟩ := parse?_number (h n (by simp [Json.numbers]))
    exact ⟨_, hvalue, .always _⟩
  | .string s => exact ⟨_, parse?_string s, .always _⟩
  | .array items =>
    obtain ⟨raws, hraws, hneeds⟩ := needsDepth_writeItems items h
    exact ⟨_, parse?_array hraws, hneeds.within _ rfl fun _ => rfl⟩
  | .object fields =>
    obtain ⟨entries, hentries, hneeds⟩ := needsDepth_writeFields fields h
    exact ⟨_, parse?_object hentries, hneeds.within _ rfl fun _ => rfl⟩

theorem needsDepth_writeItems (items : List Json)
    (h : ∀ n ∈ Json.itemsNumbers items, n.inRange = true) :
    ∃ raws, ReadItems items raws ∧
      NeedsDepth (Json.itemsHeight items) fun depth => toJsonItems? depth raws := by
  match items with
  | [] => exact ⟨[], .nil, .always _⟩
  | v :: rest =>
    rw [Json.itemsNumbers, List.forall_mem_append] at h
    obtain ⟨raw, hraw, hv⟩ := needsDepth_write v h.1
    obtain ⟨raws, hraws, hrest⟩ := needsDepth_writeItems rest h.2
    refine ⟨raw :: raws, .cons hraw hraws, ?_⟩
    simp only [toJsonItems?_cons]
    exact hv.both hrest _

theorem needsDepth_writeFields (fields : Fields)
    (h : ∀ n ∈ Json.fieldsNumbers fields, n.inRange = true) :
    ∃ entries, ReadFields fields entries ∧
      NeedsDepth (Json.fieldsHeight fields) fun depth => toJsonFields? depth entries := by
  match fields with
  | [] => exact ⟨[], .nil, .always _⟩
  | (k, v) :: rest =>
    rw [Json.fieldsNumbers, List.forall_mem_append] at h
    obtain ⟨raw, hraw, hv⟩ := needsDepth_write v h.1
    obtain ⟨entries, hentries, hrest⟩ := needsDepth_writeFields rest h.2
    refine ⟨(some k, raw) :: entries, readFields_cons hraw hentries, ?_⟩
    simp only [toJsonFields?_cons]
    exact hv.both hrest _

end

/-- A value that is read from its text is read at each depth that is enough for it. -/
theorem toJson?_of_readableAt {v : Json} (h : ∀ n ∈ v.numbers, n.inRange = true) {limit : Nat}
    (hv : v.ReadableAt limit) {raw : RawJson} (hraw : parse? v.write = some raw) (depth : Nat) :
    raw.toJson? depth = if v.height ≤ depth then some v else none := by
  obtain ⟨raw', hraw', value, hvalue⟩ := needsDepth_write v h
  obtain rfl : raw' = raw := Option.some.inj (hraw'.symm.trans hraw)
  dsimp only at hvalue
  rw [Json.ReadableAt, hraw, Option.bind_some, hvalue] at hv
  have hsome : value = some v := by
    by_cases hle : v.height ≤ limit
    · rwa [if_pos hle] at hv
    · rw [if_neg hle] at hv
      cases hv
  rw [hvalue, hsome]

end RawJson

end DocStore
