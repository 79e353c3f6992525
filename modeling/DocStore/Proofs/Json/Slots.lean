import DocStore.Json.Record
import DocStore.Proofs.Json.ReadBack

/-!
# Records that are printed

A record is printed as an object with an entry for each field that is set. `present` gives these
entries out of the slots of all fields. An object of such entries is read as the record with the
same slots (`record?_present`), and each field is found in its own (`lookup_present`).
-/

namespace DocStore

/-- The entries of the slots that hold something. -/
def present {α : Type} (slots : List (String × Option α)) : List (String × α) :=
  slots.filterMap fun s => s.2.map (s.1, ·)

section

variable {α : Type}

theorem present_some (name : String) (a : α) (slots : List (String × Option α)) :
    present ((name, some a) :: slots) = (name, a) :: present slots := rfl

theorem forall_present {P : α → Prop} {slots : List (String × Option α)}
    (h : ∀ s ∈ slots, ∀ a ∈ s.2, P a) : ∀ e ∈ present slots, P e.2 := by
  intro e he
  obtain ⟨s, hs, hse⟩ := List.mem_filterMap.mp he
  obtain ⟨a, ha, rfl⟩ := Option.map_eq_some_iff.mp hse
  exact h s hs a ha

theorem keys_present_sublist (slots : List (String × Option α)) :
    ((present slots).map (·.1)).Sublist (slots.map (·.1)) := by
  induction slots with
  | nil => exact .slnil
  | cons s slots ih =>
    obtain ⟨name, _ | a⟩ := s
    · exact ih.cons name
    · exact ih.cons_cons name

theorem lookup_eq_none {entries : List (String × α)} {name : String}
    (h : name ∉ entries.map (·.1)) : entries.lookup name = none := by
  refine List.lookup_eq_none_iff.mpr fun e he => bne_iff_ne.mpr ?_
  rintro rfl
  exact h (List.mem_map_of_mem he)

/-- What a slot holds is found under its name. -/
theorem lookup_present {slots : List (String × Option α)} (hn : (slots.map (·.1)).Nodup)
    {name : String} {value : Option α} (h : (name, value) ∈ slots) :
    (present slots).lookup name = value := by
  induction slots with
  | nil => cases h
  | cons s slots ih =>
    rw [List.map_cons, List.nodup_cons] at hn
    have hrest : (present slots).lookup s.1 = none :=
      lookup_eq_none fun hmem => hn.1 ((keys_present_sublist slots).subset hmem)
    rcases List.mem_cons.mp h with rfl | hmem
    · cases value with
      | none => exact hrest
      | some a => rw [present_some, List.lookup_cons_self]
    · have hne : name ≠ s.1 := by
        rintro rfl
        exact hn.1 (List.mem_map.mpr ⟨_, hmem, rfl⟩)
      obtain ⟨other, _ | a⟩ := s
      · exact ih hn.2 hmem
      · rw [present_some, List.lookup_cons, beq_false_of_ne hne]
        exact ih hn.2 hmem

end

namespace RawJson

/-! ## Reading records -/

/-- The entries of an object with these keys. -/
def rawEntries (r : Record) : List (Option String × RawJson) := r.map fun e => (some e.1, e.2)

theorem readableEntries?_rawEntries (r : Record) : readableEntries? (rawEntries r) = some r := by
  induction r with
  | nil => rfl
  | cons e r ih =>
    rw [rawEntries] at ih ⊢
    rw [List.map_cons, readableEntries?, ih]
    rfl

theorem distinct_of_nodup {names : List String} (h : names.Nodup) : distinct names = true := by
  induction names with
  | nil => rfl
  | cons name rest ih =>
    obtain ⟨hnew, hrest⟩ := List.nodup_cons.mp h
    rw [distinct, ih hrest, Bool.and_true, Bool.not_eq_true', List.contains_eq_mem,
      decide_eq_false hnew]

theorem record?_present {slots : List (String × Option RawJson)}
    (hn : (slots.map (·.1)).Nodup) :
    (object (rawEntries (present slots))).record? (slots.map (·.1)) = some (present slots) := by
  have hkeys := keys_present_sublist slots
  have hknown : (present slots).filter (fun e => (slots.map (·.1)).contains e.1) =
      present slots := by
    refine List.filter_eq_self.mpr fun e he => ?_
    exact List.contains_iff_mem.mpr (hkeys.subset (List.mem_map_of_mem he))
  simp only [record?, readableEntries?_rawEntries, bind, Option.bind_some, hknown,
    distinct_of_nodup (hn.sublist hkeys), if_true]

/-- What an optional field is read as that has this raw form. -/
def readOptional {α : Type} (read : RawJson → Option α) : Option RawJson → Option (Option α)
  | none => some none
  | some null => some none
  | some raw => some <$> read raw

section

variable {α : Type} {slots : List (String × Option RawJson)} (hn : (slots.map (·.1)).Nodup)
  {name : String} {read : RawJson → Option α}
include hn

theorem withDefault_present {raw : RawJson} {value : α} (h : (name, some raw) ∈ slots)
    (hread : read raw = some value) (default : α) :
    Record.withDefault (present slots) name default read = some value := by
  rw [Record.withDefault, lookup_present hn h]
  exact hread

theorem optional_present {raw : Option RawJson} {value : Option (Option α)}
    (h : (name, raw) ∈ slots) (hread : readOptional read raw = value) :
    Record.optional (present slots) name read = value := by
  rw [Record.optional, lookup_present hn h]
  exact hread

end

/-! ## Printed slots -/

def ReadOption : Option Json → Option RawJson → Prop :=
  Option.Rel fun v raw => parse? v.write = some raw

/-- The slots have one name, and what the first holds is read as what the second holds. -/
def ReadSlot (s : String × Option Json) (t : String × Option RawJson) : Prop :=
  s.1 = t.1 ∧ ReadOption s.2 t.2

theorem readFields_present {slots : List (String × Option Json)}
    {raws : List (String × Option RawJson)} (h : List.Forall₂ ReadSlot slots raws) :
    ReadFields (present slots) (rawEntries (present raws)) := by
  induction h with
  | nil => exact .nil
  | @cons s t slots raws hs _ ih =>
    obtain ⟨name, value⟩ := s
    obtain ⟨name', raw⟩ := t
    obtain ⟨rfl, hvalue⟩ := hs
    cases hvalue with
    | none => exact ih
    | some hv => exact readFields_cons hv ih

end RawJson

end DocStore
