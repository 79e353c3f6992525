import DocStore.Proofs.Filter.Parsed

/-!
# Merged mappings

A sequence of comparison mappings is merged into their union: `Fields.IsUnion` says which keys it
has, in which order and with which values. Each entry whose key occurred before is noted with the
value that it replaces, that of the entry with this key right before it. Merging is associative
(`merge_isUnion`).
-/

namespace DocStore

/-! ## Unions -/

/-- Each key of the entries once, in the order in which they first occur, with the value of its last
entry. -/
structure Fields.IsUnion (entries : List (String × Json)) (fields : Fields) : Prop where
  nodup : fields.keys.Nodup
  mem_keys : ∀ key, key ∈ fields.keys ↔ key ∈ keys entries
  ordered : fields.keys.Pairwise fun a b => (keys entries).idxOf a < (keys entries).idxOf b
  last : ∀ key, fields.find? key = find? entries.reverse key

namespace Fields

theorem keys_concat (entries : List (String × Json)) (e : String × Json) :
    keys (entries ++ [e]) = keys entries ++ [e.1] := List.map_append

theorem IsUnion.concat {entries : List (String × Json)} {fields : Fields}
    (h : fields.IsUnion entries) (e : String × Json) :
    (fields.insert e.1 e.2).IsUnion (entries ++ [e]) where
  nodup := keys_insert_nodup h.nodup e.1 e.2
  mem_keys key := by
    rw [mem_keys_insert, keys_concat, List.mem_append, List.mem_singleton, h.mem_keys]
  ordered := by
    have hplace (key : String) (hkey : key ∈ fields.keys) :
        (keys (entries ++ [e])).idxOf key = (keys entries).idxOf key := by
      rw [keys_concat, List.idxOf_append_of_mem ((h.mem_keys key).mp hkey)]
    have hold : fields.keys.Pairwise fun a b =>
        (keys (entries ++ [e])).idxOf a < (keys (entries ++ [e])).idxOf b := by
      refine h.ordered.imp_of_mem fun ha hb hab => ?_
      rwa [hplace _ ha, hplace _ hb]
    rw [keys_insert]
    split
    · exact hold
    · rename_i hnew
      rw [List.pairwise_append]
      refine ⟨hold, List.pairwise_singleton _ _, fun a ha b hb => ?_⟩
      obtain rfl := List.mem_singleton.mp hb
      have hb' : e.1 ∉ keys entries := fun hmem => hnew ((h.mem_keys _).mpr hmem)
      rw [hplace a ha, keys_concat, List.idxOf_append_of_notMem hb']
      exact Nat.lt_add_right _ (List.idxOf_lt_length_iff.mpr ((h.mem_keys a).mp ha))
  last key := by
    rw [find?_insert, List.reverse_append, h.last]
    exact (find?_cons e.1 e.2 entries.reverse key).symm

theorem isUnion_ofEntries (entries : List (String × Json)) :
    (ofEntries entries).IsUnion entries := by
  induction entries using List.reverseRecOn with
  | nil => exact ⟨List.nodup_nil, fun _ => Iff.rfl, .nil, fun _ => rfl⟩
  | append_singleton entries e ih =>
    rw [ofEntries, insertAll_concat]
    exact ih.concat e

end Fields

/-! ## Overwrites -/

section

variable (field : String) (connective : Connective)

/-- The overwrite by the entry at a place, if its key occurred before: the value of the entry with
this key right before it is replaced by that of this entry. -/
def overwriteAt? (entries : List (String × Json)) (place : Nat) : Option Overwrite :=
  entries[place]?.bind fun e =>
    (Fields.find? (entries.take place).reverse e.1).map
      fun old => ⟨field, connective, e.1, old, e.2⟩

def overwritesOf (entries : List (String × Json)) : List Overwrite :=
  (List.range entries.length).filterMap (overwriteAt? field connective entries)

theorem overwriteAt?_append (entries rest : List (String × Json)) {place : Nat}
    (h : place < entries.length) :
    overwriteAt? field connective (entries ++ rest) place =
      overwriteAt? field connective entries place := by
  rw [overwriteAt?, overwriteAt?, List.getElem?_append_left h,
    List.take_append_of_le_length (Nat.le_of_lt h)]

theorem overwriteAt?_concat (entries : List (String × Json)) (key : String) (value : Json) :
    overwriteAt? field connective (entries ++ [(key, value)]) entries.length =
      (Fields.find? entries.reverse key).map fun old => ⟨field, connective, key, old, value⟩ := by
  rw [overwriteAt?, List.getElem?_concat_length, List.take_left]
  rfl

theorem overwritesOf_concat (entries : List (String × Json)) (key : String) (value : Json) :
    overwritesOf field connective (entries ++ [(key, value)]) =
      overwritesOf field connective entries ++
        ((Fields.find? entries.reverse key).map
          fun old => ⟨field, connective, key, old, value⟩).toList := by
  have hbefore : (List.range entries.length).filterMap
      (overwriteAt? field connective (entries ++ [(key, value)])) =
        overwritesOf field connective entries :=
    List.filterMap_congr fun place hplace =>
      overwriteAt?_append field connective entries _ (List.mem_range.mp hplace)
  rw [overwritesOf, List.length_append, List.length_singleton, List.range_succ,
    List.filterMap_append, hbefore, ← overwriteAt?_concat]
  refine congrArg (overwritesOf field connective entries ++ ·) ?_
  cases h : overwriteAt? field connective (entries ++ [(key, value)]) entries.length <;>
    simp [h]

/-- What is noted while entries are entered after others. -/
theorem overwritesOf_append (before entries : List (String × Json)) :
    overwritesOf field connective (before ++ entries) = overwritesOf field connective before ++
      (mergeEntries field connective (Fields.ofEntries before) entries).1 := by
  induction entries generalizing before with
  | nil => simp [mergeEntries]
  | cons e rest ih =>
    obtain ⟨key, value⟩ := e
    have hinsert : (Fields.ofEntries before).insert key value =
        Fields.ofEntries (before ++ [(key, value)]) :=
      (Fields.insertAll_concat [] before (key, value)).symm
    rw [List.append_cons, ih, overwritesOf_concat, List.append_assoc, mergeEntries, hinsert,
      (Fields.isUnion_ofEntries before).last]
    cases Fields.find? before.reverse key <;> rfl

/-- What is noted while mappings are merged, up to the first value that is none. -/
theorem overwrites_mergeFrom (before : List (String × Json)) (items : List Json) :
    overwritesOf field connective before ++
        (mergeFrom field connective (Fields.ofEntries before) items).overwrites =
      overwritesOf field connective (before ++ entriesOf (items.takeWhile Json.isObject)) := by
  induction items generalizing before with
  | nil => simp [mergeFrom, entriesOf, pure]
  | cons item rest ih =>
    cases item with
    | object fields =>
      have hmerged : (mergeEntries field connective (Fields.ofEntries before) fields).2 =
          Fields.ofEntries (before ++ fields) := by
        rw [mergeEntries_insertAll]
        exact (List.foldl_append ..).symm
      have hread : entriesOf ((Json.object fields :: rest).takeWhile Json.isObject) =
          fields ++ entriesOf (rest.takeWhile Json.isObject) := rfl
      rw [mergeFrom, hread, ← List.append_assoc, ← ih, overwritesOf_append, ← hmerged,
        List.append_assoc]
      rfl
    | _ => simp [mergeFrom, entriesOf, Json.isObject, Noted.fail]

/-! ## Merging -/

theorem overwrites_merge (items : List Json) :
    (merge field connective items).overwrites =
      overwritesOf field connective (entriesOf (items.takeWhile Json.isObject)) :=
  overwrites_mergeFrom field connective [] items

theorem merge_map (maps : List Fields) :
    merge field connective (maps.map .object) =
      ⟨overwritesOf field connective maps.flatten, .ok (Fields.ofEntries maps.flatten)⟩ := by
  have hread : entriesOf ((maps.map Json.object).takeWhile Json.isObject) = maps.flatten := by
    induction maps with
    | nil => rfl
    | cons fields maps ih => exact congrArg (fields ++ ·) ih
  rw [← hread, ← overwrites_merge, hread, ← merge_mappings field connective maps]

theorem result_merge_append (xs ys : List Json) :
    (merge field connective (xs ++ ys)).result = (do
      let a ← (merge field connective xs).result
      let b ← (merge field connective ys).result
      (merge field connective [.object a, .object b]).result) := by
  rcases mappings_or_element xs with ⟨maps, rfl⟩ | ⟨maps, v, post, rfl, hv⟩
  · rcases mappings_or_element ys with ⟨maps', rfl⟩ | ⟨maps', v, post, rfl, hv⟩
    · have hunion := merge_mappings field connective
        [Fields.ofEntries maps.flatten, Fields.ofEntries maps'.flatten]
      simp only [← List.map_append, merge_mappings, List.flatten_append]
      refine .trans ?_ hunion.symm
      rw [← Fields.ofEntries_ofEntries_append]
      simp
    · rw [merge_mappings, ← List.append_assoc, ← List.map_append,
        merge_element field connective _ post hv, merge_element field connective _ post hv]
      rfl
  · rw [List.append_assoc, List.cons_append, merge_element field connective _ _ hv,
      merge_element field connective _ _ hv]
    rfl

theorem exists_merge_iff (items : List Json) :
    (∃ fields, (merge field connective items).result = .ok fields) ↔
      items.all Json.isObject = true := by
  rcases mappings_or_element items with ⟨maps, rfl⟩ | ⟨maps, v, post, rfl, hv⟩
  · rw [merge_mappings]
    simp [Json.isObject]
  · rw [merge_element field connective _ post hv]
    refine iff_of_false ?_ ?_
    · rintro ⟨fields, h⟩
      cases h
    · cases v with
      | object fields => exact absurd rfl (hv fields)
      | _ => simp [Json.isObject]

/-- Merging succeeds exactly on mappings and gives their union. What is noted are the overwrites by
the entries that were read, in order, and merging in parts gives the same mapping. -/
theorem merge_isUnion :
    (∀ items : List Json,
      ((∃ fields, (merge field connective items).result = .ok fields) ↔
        items.all Json.isObject = true) ∧
      (merge field connective items).overwrites =
        overwritesOf field connective (entriesOf (items.takeWhile Json.isObject))) ∧
    (∀ maps : List Fields, ∃ fields,
      merge field connective (maps.map .object) =
        ⟨overwritesOf field connective maps.flatten, .ok fields⟩ ∧
      fields.IsUnion maps.flatten) ∧
    ∀ xs ys : List Json, (merge field connective (xs ++ ys)).result = (do
      let a ← (merge field connective xs).result
      let b ← (merge field connective ys).result
      (merge field connective [.object a, .object b]).result) := by
  refine ⟨fun items => ⟨exists_merge_iff field connective items,
    overwrites_merge field connective items⟩, fun maps => ?_, result_merge_append field connective⟩
  exact ⟨_, merge_map field connective maps, Fields.isUnion_ofEntries maps.flatten⟩

end

end DocStore
