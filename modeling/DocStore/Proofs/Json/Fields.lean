import DocStore.Json.Basic
import Mathlib.Data.List.Induction
import Mathlib.Data.List.Perm.Basic
import Mathlib.Data.List.Nodup

/-!
# Entries of objects

`lastOfEach` keeps of the entries with one key the last. Inserting entries one after the other gives
these entries in some order (`ofEntries_perm`), and entries with new keys are appended as they are
(`insertAll_append`). Entries may be gathered in parts first (`ofEntries_ofEntries_append`).
-/

namespace DocStore

/-- The entries whose key does not come again. -/
def lastOfEach {α : Type} : List (String × α) → List (String × α)
  | [] => []
  | e :: rest => if e.1 ∈ rest.map (·.1) then lastOfEach rest else e :: lastOfEach rest

theorem lastOfEach_sublist {α : Type} (entries : List (String × α)) :
    (lastOfEach entries).Sublist entries := by
  induction entries with
  | nil => exact .slnil
  | cons e rest ih =>
    rw [lastOfEach]
    split
    · exact ih.cons e
    · exact ih.cons_cons e

theorem lastOfEach_map {α β : Type} (f : String → α → β) (entries : List (String × α)) :
    lastOfEach (entries.map fun e => (e.1, f e.1 e.2)) =
      (lastOfEach entries).map fun e => (e.1, f e.1 e.2) := by
  induction entries with
  | nil => rfl
  | cons e rest ih =>
    simp only [List.map_cons, lastOfEach, List.map_map, Function.comp_def, ih]
    split <;> rfl

namespace Fields

theorem insert_of_not_mem {fields : Fields} {key : String} (h : key ∉ fields.keys) (value : Json) :
    fields.insert key value = fields ++ [(key, value)] := by
  induction fields with
  | nil => rfl
  | cons e rest ih =>
    simp only [keys, List.map_cons, List.mem_cons, not_or] at h
    simp only [insert, Ne.symm h.1, ↓reduceIte, ih h.2, List.cons_append]

/-- Entries with new and different keys are appended. -/
theorem insertAll_append {fields : Fields} {entries : List (String × Json)}
    (hn : (keys (fields ++ entries)).Nodup) : fields.insertAll entries = fields ++ entries := by
  induction entries generalizing fields with
  | nil => simp [insertAll]
  | cons e rest ih =>
    have hnew : e.1 ∉ fields.keys := by
      intro hmem
      simp only [keys, List.map_append, List.map_cons, List.nodup_append] at hn
      exact hn.2.2 e.1 hmem e.1 (by simp) rfl
    rw [insertAll, List.foldl_cons, insert_of_not_mem hnew, ← insertAll, ih (by simpa using hn)]
    simp

theorem ofEntries_of_nodup {entries : List (String × Json)} (hn : (keys entries).Nodup) :
    ofEntries entries = entries := by
  have h : insertAll [] entries = [] ++ entries := insertAll_append hn
  rwa [List.nil_append] at h

theorem keys_insert_nodup {fields : Fields} (h : fields.keys.Nodup) (key : String) (value : Json) :
    (fields.insert key value).keys.Nodup := by
  rw [keys_insert]
  split
  · exact h
  · rename_i hk
    exact List.nodup_append.mpr ⟨h, List.nodup_singleton key,
      fun a ha b hb hab => hk (by simp_all)⟩

section

variable {r : String × Json → String × Json → Prop} (hr : ∀ {e e'}, r e e' → e.1 = e'.1)

include hr

theorem insert_rel {a b : Fields} (h : List.Forall₂ r a b) {key : String} {v v' : Json}
    (hv : r (key, v) (key, v')) : List.Forall₂ r (a.insert key v) (b.insert key v') := by
  induction h with
  | nil => exact .cons hv .nil
  | @cons e e' _ _ he hrest ih =>
    obtain ⟨k, w⟩ := e
    obtain ⟨k', w'⟩ := e'
    obtain rfl : k = k' := hr he
    rw [insert, insert]
    split
    · rename_i hk
      exact .cons (hk ▸ hv) hrest
    · exact .cons he ih

theorem insertAll_rel {a b : Fields} (h : List.Forall₂ r a b)
    {entries entries' : List (String × Json)} (he : List.Forall₂ r entries entries') :
    List.Forall₂ r (a.insertAll entries) (b.insertAll entries') := by
  induction he generalizing a b with
  | nil => exact h
  | @cons e e' _ _ he _ ih =>
    obtain ⟨k, v⟩ := e
    obtain ⟨k', v'⟩ := e'
    obtain rfl : k = k' := hr he
    exact ih (insert_rel hr h he)

end

/-- A change of each value, which may depend on its key, commutes with inserting. -/
theorem ofEntries_map (f : String → Json → Json) (entries : List (String × Json)) :
    ofEntries (entries.map fun e => (e.1, f e.1 e.2)) =
      (ofEntries entries).map fun e => (e.1, f e.1 e.2) := by
  let r (e e' : String × Json) : Prop := (e.1, f e.1 e.2) = e'
  have hkey : ∀ {e e' : String × Json}, r e e' → e.1 = e'.1 := by
    rintro e _ rfl
    rfl
  have hentries : List.Forall₂ r entries (entries.map fun e => (e.1, f e.1 e.2)) := by
    rw [List.forall₂_map_right_iff, List.forall₂_same]
    exact fun _ _ => rfl
  have h : List.Forall₂ r (ofEntries entries) _ := insertAll_rel hkey .nil hentries
  rw [← List.forall₂_map_left_iff (f := fun e : String × Json => (e.1, f e.1 e.2)),
    List.forall₂_eq_eq_eq] at h
  exact h.symm

/-- The entries under other keys, and the new entry. -/
theorem insert_perm {fields : Fields} (h : fields.keys.Nodup) (key : String) (value : Json) :
    (fields.insert key value).Perm (fields.filter (·.1 ≠ key) ++ [(key, value)]) := by
  induction fields with
  | nil => exact .refl _
  | cons e rest ih =>
    obtain ⟨k, v⟩ := e
    simp only [keys, List.map_cons, List.nodup_cons] at h
    by_cases hk : k = key
    · subst hk
      have hrest : rest.filter (·.1 ≠ k) = rest := by
        refine List.filter_eq_self.mpr ?_
        intro e he
        simp only [ne_eq, decide_not, Bool.not_eq_true', decide_eq_false_iff_not]
        rintro rfl
        exact h.1 (List.mem_map_of_mem he)
      simp only [insert, ↓reduceIte, ne_eq, not_true_eq_false, decide_false, Bool.false_eq_true,
        not_false_eq_true, List.filter_cons_of_neg] at hrest ⊢
      rw [hrest]
      exact (List.perm_append_singleton (k, value) rest).symm
    · simp only [insert, hk, ↓reduceIte, ne_eq, not_false_eq_true, decide_true,
        List.filter_cons_of_pos, List.cons_append]
      exact (ih h.2).cons _

/-- The entries under other keys, and the last entry under each of the inserted keys. -/
theorem insertAll_perm {fields : Fields} (h : fields.keys.Nodup) (entries : List (String × Json)) :
    (fields.insertAll entries).Perm
      (fields.filter (·.1 ∉ entries.map (·.1)) ++ lastOfEach entries) := by
  induction entries generalizing fields with
  | nil => simp [insertAll, lastOfEach]
  | cons e rest ih =>
    obtain ⟨k, v⟩ := e
    have hstep := ih (keys_insert_nodup h k v)
    have hfilter := (insert_perm h k v).filter (·.1 ∉ rest.map (·.1))
    rw [List.filter_append, List.filter_filter] at hfilter
    have hall : fields.filter (fun e => decide (e.1 ∉ rest.map (·.1)) && decide (e.1 ≠ k)) =
        fields.filter (·.1 ∉ ((k, v) :: rest).map (·.1)) := by
      refine List.filter_congr fun e _ => ?_
      simp only [List.map_cons, List.mem_cons, not_or, ne_eq, Bool.decide_and, Bool.and_comm]
    rw [hall] at hfilter
    refine hstep.trans ((hfilter.append_right _).trans ?_)
    rw [List.append_assoc]
    refine List.Perm.append_left _ ?_
    simp only [lastOfEach]
    split
    · rename_i hk
      simp [hk]
    · rename_i hk
      simp [hk]

theorem ofEntries_perm (entries : List (String × Json)) :
    (ofEntries entries).Perm (lastOfEach entries) := by
  have hempty : keys [] |>.Nodup := List.nodup_nil
  have h := insertAll_perm hempty entries
  rwa [List.filter_nil, List.nil_append] at h

/-! ## The order of insertions -/

theorem insertAll_concat (fields : Fields) (entries : List (String × Json)) (e : String × Json) :
    fields.insertAll (entries ++ [e]) = (fields.insertAll entries).insert e.1 e.2 := by
  rw [insertAll, List.foldl_append]
  rfl

theorem keys_insertAll_nodup {fields : Fields} (h : fields.keys.Nodup)
    (entries : List (String × Json)) : (fields.insertAll entries).keys.Nodup := by
  induction entries generalizing fields with
  | nil => exact h
  | cons e rest ih => exact ih (keys_insert_nodup h e.1 e.2)

theorem keys_ofEntries_nodup (entries : List (String × Json)) : (ofEntries entries).keys.Nodup :=
  have hempty : keys [] |>.Nodup := List.nodup_nil
  keys_insertAll_nodup hempty entries

theorem mem_keys_insert {fields : Fields} {key : String} {value : Json} {k : String} :
    k ∈ (fields.insert key value).keys ↔ k ∈ fields.keys ∨ k = key := by
  rw [keys_insert]
  split
  · rename_i h
    exact ⟨.inl, fun hk => hk.elim id fun hk => hk ▸ h⟩
  · rw [List.mem_append, List.mem_singleton]

theorem insert_insert_self (fields : Fields) (key : String) (v w : Json) :
    (fields.insert key v).insert key w = fields.insert key w := by
  induction fields with
  | nil => simp [insert]
  | cons e rest ih =>
    obtain ⟨k, x⟩ := e
    by_cases hk : k = key <;> simp [insert, hk, ih]

/-- A key that is there can be given its value before another key or after it. -/
theorem insert_comm {fields : Fields} {key other : String} (hk : key ∈ fields.keys)
    (hne : key ≠ other) (v w : Json) :
    (fields.insert other w).insert key v = (fields.insert key v).insert other w := by
  induction fields with
  | nil => cases hk
  | cons e rest ih =>
    obtain ⟨k, x⟩ := e
    by_cases h : k = key
    · subst h
      simp [insert, hne]
    · have hrest : key ∈ keys rest := (List.mem_cons.mp hk).resolve_left (Ne.symm h)
      by_cases ho : k = other
      · subst ho
        simp [insert, h]
      · simp [insert, h, ho, ih hrest]

theorem insert_insertAll {fields : Fields} {key : String} (hk : key ∈ fields.keys)
    {entries : List (String × Json)} (hn : key ∉ keys entries) (v : Json) :
    (fields.insertAll entries).insert key v = (fields.insert key v).insertAll entries := by
  induction entries generalizing fields with
  | nil => rfl
  | cons e rest ih =>
    obtain ⟨hne, hrest⟩ := not_or.mp (mt List.mem_cons.mpr hn)
    show ((fields.insert e.1 e.2).insertAll rest).insert key v =
      ((fields.insert key v).insert e.1 e.2).insertAll rest
    rw [ih (mem_keys_insert.mpr (.inl hk)) hrest, insert_comm hk hne]

/-- Inserting an entry before inserting the result elsewhere is inserting it afterwards. -/
theorem insertAll_insert {entries : Fields} (hn : entries.keys.Nodup) (fields : Fields)
    (key : String) (v : Json) :
    fields.insertAll (entries.insert key v) = (fields.insertAll entries).insert key v := by
  induction entries generalizing fields with
  | nil => rfl
  | cons e rest ih =>
    obtain ⟨k, x⟩ := e
    obtain ⟨hk, hrest⟩ := List.nodup_cons.mp hn
    rw [insert]
    split
    · rename_i h
      subst h
      show (fields.insert k v).insertAll rest = ((fields.insert k x).insertAll rest).insert k v
      rw [insert_insertAll (mem_keys_insert.mpr (.inr rfl)) hk, insert_insert_self]
    · exact ih hrest (fields.insert k x)

/-- Entries can be gathered before they are inserted. -/
theorem insertAll_ofEntries (fields : Fields) (entries : List (String × Json)) :
    fields.insertAll (ofEntries entries) = fields.insertAll entries := by
  induction entries using List.reverseRecOn with
  | nil => rfl
  | append_singleton entries e ih =>
    rw [ofEntries, insertAll_concat, ← ofEntries, insertAll_insert (keys_ofEntries_nodup entries),
      insertAll_concat, ih]

theorem ofEntries_ofEntries_append (a b : List (String × Json)) :
    ofEntries (ofEntries a ++ ofEntries b) = ofEntries (a ++ b) := by
  have happend (x y : List (String × Json)) : ofEntries (x ++ y) = (ofEntries x).insertAll y :=
    List.foldl_append
  have hnodup : (ofEntries a).keys.Nodup := keys_ofEntries_nodup a
  rw [happend, happend, insertAll_ofEntries, ofEntries_of_nodup hnodup]

end Fields

end DocStore
