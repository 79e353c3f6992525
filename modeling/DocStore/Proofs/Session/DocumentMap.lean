import DocStore.Document.Basic
import Mathlib.Data.Finmap

/-!
# Maps from identifiers to documents

A `DocumentMap` has at most one document for each identifier. `Holds documents m` says that a list
in which no identifier comes twice holds the documents of the map `m`. That stays so when a document
takes the place of the one with its identifier (`Holds.write`) and when documents are dropped
(`Holds.deleteAll`).
-/

namespace DocStore

/-- At most one document for each identifier. -/
abbrev DocumentMap := Finmap fun _ : String => Document

namespace DocumentMap

def write (m : DocumentMap) (d : Document) : DocumentMap := m.insert d.id d

def writeAll (m : DocumentMap) (documents : List Document) : DocumentMap := documents.foldl write m

def deleteAll (m : DocumentMap) (ids : List String) : DocumentMap :=
  ids.foldl (fun m id => m.erase id) m

theorem lookup_write (m : DocumentMap) (d : Document) (id : String) :
    (m.write d).lookup id = if d.id = id then some d else m.lookup id := by
  split
  · rename_i h
    subst h
    exact Finmap.lookup_insert m
  · rename_i h
    exact Finmap.lookup_insert_of_ne m (Ne.symm h)

theorem lookup_deleteAll (m : DocumentMap) (ids : List String) (id : String) :
    (m.deleteAll ids).lookup id = if id ∈ ids then none else m.lookup id := by
  induction ids generalizing m with
  | nil => rfl
  | cons first rest ih =>
    have hstep : (m.deleteAll (first :: rest)).lookup id =
        if id ∈ rest then none else (m.erase first).lookup id := ih (m.erase first)
    rw [hstep]
    by_cases h : id = first
    · subst h
      rw [Finmap.lookup_erase]
      simp
    · rw [Finmap.lookup_erase_ne h]
      simp [h]

end DocumentMap

/-! ## Lists that hold a map -/

/-- The document last, and no other one with its identifier. -/
def putLast (documents : List Document) (d : Document) : List Document :=
  documents.filter (·.id != d.id) ++ [d]

/-- The documents with other identifiers. -/
def without (documents : List Document) (ids : List String) : List Document :=
  documents.filter fun d => !ids.contains d.id

theorem find?_filter_id (keep : String → Bool) (documents : List Document) (id : String) :
    (documents.filter (keep ·.id)).find? (·.id == id) =
      if keep id then documents.find? (·.id == id) else none := by
  induction documents with
  | nil => exact (ite_self none).symm
  | cons d rest ih =>
    rw [List.filter_cons, List.find?_cons]
    by_cases hid : d.id = id
    · subst hid
      rw [beq_self_eq_true]
      by_cases hk : keep d.id = true
      · rw [if_pos hk, if_pos hk, List.find?_cons_of_pos (by simp)]
      · rw [if_neg hk, ih, if_neg hk, if_neg hk]
    · rw [beq_eq_false_iff_ne.mpr hid, ← ih]
      by_cases hk : keep d.id = true
      · rw [if_pos hk, List.find?_cons_of_neg (by simpa using hid)]
      · rw [if_neg hk]

/-- The list holds the documents of the map. -/
structure Holds (documents : List Document) (m : DocumentMap) : Prop where
  nodup : (documents.map (·.id)).Nodup
  lookup : ∀ id, m.lookup id = documents.find? (·.id == id)

namespace Holds

variable {documents : List Document} {m : DocumentMap}

theorem empty : Holds [] ∅ := ⟨List.nodup_nil, fun _ => rfl⟩

theorem nodup_filter (h : Holds documents m) (p : Document → Bool) :
    ((documents.filter p).map (·.id)).Nodup :=
  (List.Sublist.map _ List.filter_sublist).nodup h.nodup

theorem write (h : Holds documents m) (d : Document) : Holds (putLast documents d) (m.write d) := by
  constructor
  · have hnew : d.id ∉ (documents.filter (·.id != d.id)).map (·.id) := by
      intro hmem
      obtain ⟨e, he, heq⟩ := List.mem_map.mp hmem
      have hne := (List.mem_filter.mp he).2
      rw [heq, bne_self_eq_false] at hne
      cases hne
    rw [putLast, List.map_append]
    refine List.nodup_append.mpr ⟨h.nodup_filter _, List.nodup_singleton _, ?_⟩
    intro a ha b hb hab
    rw [List.map_singleton, List.mem_singleton] at hb
    subst hb
    exact hnew (hab ▸ ha)
  · intro id
    rw [DocumentMap.lookup_write, putLast, List.find?_append,
      find?_filter_id (· != d.id) documents id]
    by_cases hid : d.id = id
    · subst hid
      simp
    · rw [if_neg hid, if_pos (by simpa using Ne.symm hid), h.lookup]
      simp [hid]

theorem writeAll (h : Holds documents m) (new : List Document) :
    Holds (new.foldl putLast documents) (m.writeAll new) := by
  induction new generalizing documents m with
  | nil => exact h
  | cons d rest ih => exact ih (h.write d)

theorem deleteAll (h : Holds documents m) (ids : List String) :
    Holds (without documents ids) (m.deleteAll ids) := by
  constructor
  · exact h.nodup_filter _
  · intro id
    rw [DocumentMap.lookup_deleteAll, without,
      find?_filter_id (fun id => !ids.contains id) documents id]
    by_cases hid : id ∈ ids
    · simp [hid]
    · rw [if_neg hid, if_pos (by simpa using hid), h.lookup]

theorem keys_eq (h : Holds documents m) : m.keys = (documents.map (·.id)).toFinset := by
  ext id
  rw [Finmap.mem_keys, ← Finmap.lookup_isSome, h.lookup, List.find?_isSome, List.mem_toFinset,
    List.mem_map]
  simp

theorem card_keys (h : Holds documents m) : m.keys.card = documents.length := by
  rw [h.keys_eq, List.toFinset_card_of_nodup h.nodup, List.length_map]

end Holds

/-- Only documents that were there or are put there are in the list. -/
theorem mem_foldl_putLast {documents new : List Document} {d : Document}
    (h : d ∈ new.foldl putLast documents) : d ∈ documents ∨ d ∈ new := by
  induction new generalizing documents with
  | nil => exact .inl h
  | cons first rest ih =>
    rcases ih h with hd | hd
    · rcases List.mem_append.mp hd with hd | hd
      · exact .inl (List.mem_filter.mp hd).1
      · exact .inr (List.mem_cons.mpr (.inl (List.mem_singleton.mp hd)))
    · exact .inr (List.mem_cons_of_mem first hd)

end DocStore
