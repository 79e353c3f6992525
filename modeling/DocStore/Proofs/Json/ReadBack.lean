import DocStore.Json.Raw
import DocStore.Proofs.Json.Fields
import DocStore.Proofs.Json.Scan
import Mathlib.Data.List.Forall2

/-!
# Reading printed values

A printed container is read as the container of what its parts are read as (`parse?_array`,
`parse?_object`). Strings, booleans and natural numbers of 64 bits are read as they were printed;
for other values it is enough to know what they are read as when they stand alone. A value is
`ReadableAt` a depth if its text is read as itself, and an object is if its values are
(`readableAt_object`).
-/

namespace DocStore

namespace Json

/-! ## What is printed -/

theorem write_null : null.write = ['n', 'u', 'l', 'l'] := by decide

theorem write_bool (b : Bool) : (bool b).write = writeBool b := rfl

theorem write_number (n : Number) : (number n).write = n.write := rfl

theorem write_string (s : String) : (string s).write = writeString s := rfl

theorem write_array (items : List Json) :
    (array items).write = '[' :: (writeItems items ++ [']']) := rfl

theorem write_object (fields : Fields) :
    (object fields).write = '\x7b' :: (writeFields fields ++ ['\x7d']) := rfl

end Json

namespace RawJson

open Token (Delimited scan scan_append scan_token next?)

namespace State

/-! ## Values inside containers -/

/-- The state with further open containers around those that it has. -/
def within (outer : List Frame) : State → State
  | value stack => value (stack ++ outer)
  | firstItem stack => firstItem (stack ++ outer)
  | firstKey stack => firstKey (stack ++ outer)
  | key stack entries => key (stack ++ outer) entries
  | colon stack entries k => colon (stack ++ outer) entries k
  | nextItem stack items => nextItem (stack ++ outer) items
  | nextEntry stack entries => nextEntry (stack ++ outer) entries
  | done v => complete v outer

theorem complete_within (outer : List Frame) (v : RawJson) (stack : List Frame) :
    (complete v stack).within outer = complete v (stack ++ outer) := by
  cases stack with
  | nil => rfl
  | cons frame stack => cases frame <;> rfl

theorem start_within {stack : List Frame} {t : Token} {st : State} (outer : List Frame)
    (h : start stack t = some st) : start (stack ++ outer) t = some (st.within outer) := by
  cases t with
  | openArray => cases h; rfl
  | openObject => cases h; rfl
  | null => cases h; rw [complete_within]; rfl
  | bool b => cases h; rw [complete_within]; rfl
  | number n => cases h; rw [complete_within]; rfl
  | string s => cases h; rw [complete_within]; rfl
  | _ => cases h

/-- An array starts with its end or with a value. -/
theorem step_firstItem {stack : List Frame} {t : Token} (ht : t ≠ .closeArray) :
    step (.firstItem stack) t = start (.array [] :: stack) t := by
  cases t <;> first | rfl | exact absurd rfl ht

/-- A step takes no notice of the outer containers. -/
theorem step_within {st st' : State} {t : Token} (outer : List Frame) (h : step st t = some st') :
    step (st.within outer) t = some (st'.within outer) := by
  cases st with
  | value stack => exact start_within outer h
  | firstItem stack =>
    by_cases ht : t = .closeArray
    · subst ht; cases h; rw [complete_within]; rfl
    · rw [step_firstItem ht] at h
      exact (step_firstItem ht).trans (start_within outer h)
  | firstKey stack => cases t <;> cases h <;> first | rfl | (rw [complete_within]; rfl)
  | key stack entries => cases t <;> cases h; rfl
  | colon stack entries k => cases t <;> cases h; rfl
  | nextItem stack items => cases t <;> cases h <;> first | rfl | (rw [complete_within]; rfl)
  | nextEntry stack entries => cases t <;> cases h <;> first | rfl | (rw [complete_within]; rfl)
  | done v => cases t <;> cases h

theorem run_within {st st' : State} {ts : List Token} (outer : List Frame)
    (h : run st ts = some st') : run (st.within outer) ts = some (st'.within outer) := by
  induction ts generalizing st with
  | nil => cases h; rfl
  | cons t ts ih =>
    rw [run, Option.bind_eq_some_iff] at h
    obtain ⟨mid, hm, h⟩ := h
    rw [run, step_within outer hm, Option.bind_some]
    exact ih h

end State

/-! ## Reaching a state through a text -/

/-- The state after the tokens of a text. -/
def reach (st : State) (s : List Char) : Option State := (scan s).bind (State.run st)

theorem parse?_eq_some {s : List Char} {raw : RawJson} :
    parse? s = some raw ↔ reach (.value []) s = some (.done raw) := by
  rw [parse?, reach]
  cases scan s with
  | none => simp
  | some ts =>
    rw [Option.bind_some, Option.bind_some, ofTokens?]
    split
    · rename_i v hv
      rw [hv, Option.some.injEq, Option.some.injEq, State.done.injEq]
    · rename_i hv
      constructor
      · intro h; cases h
      · intro h; exact absurd h (hv raw)

theorem reach_nil (st : State) : reach st [] = some st := by
  rw [reach, scan]
  rfl

theorem reach_token {st : State} {c : Char} (hc : ¬ Token.isBlank c = true) {s rest : List Char}
    {t : Token} (h : next? (c :: s) = some (t, rest)) :
    reach st (c :: s) = (State.step st t).bind (reach · rest) := by
  rw [reach, scan_token hc h]
  cases hr : scan rest with
  | none => cases State.step st t <;> simp [reach, hr]
  | some ts => cases hs : State.step st t <;> simp [reach, hr, State.run, hs]

theorem run_append (st : State) (a b : List Token) :
    State.run st (a ++ b) = (State.run st a).bind (State.run · b) := by
  induction a generalizing st with
  | nil => rfl
  | cons t a ih =>
    rw [List.cons_append, State.run, State.run]
    cases State.step st t with
    | none => rfl
    | some next => exact ih next

theorem exists_tokens {s : List Char} {raw : RawJson} (h : parse? s = some raw) :
    ∃ ts, scan s = some ts ∧ State.run (.value []) ts = some (.done raw) := by
  rw [parse?_eq_some, reach, Option.bind_eq_some_iff] at h
  exact h

theorem reach_append {ts : List Token} {st st' : State} {s rest : List Char} (hs : scan s = some ts)
    (hrun : State.run st ts = some st') (hd : Delimited rest) :
    reach st (s ++ rest) = reach st' rest := by
  rw [reach, reach, scan_append hd s hs]
  cases scan rest with
  | none => rfl
  | some ts' => rw [Option.map_some, Option.bind_some, run_append, hrun]; rfl

section

variable {s rest : List Char} {raw : RawJson} (h : parse? s = some raw) (hd : Delimited rest)
  (stack : List Frame)
include h hd

/-- A text that is a value alone is the same value inside containers. -/
theorem reach_value : reach (.value stack) (s ++ rest) = reach (State.complete raw stack) rest := by
  obtain ⟨ts, hs, hrun⟩ := exists_tokens h
  exact reach_append hs (State.run_within stack hrun) hd

theorem reach_firstItem :
    reach (.firstItem stack) (s ++ rest) = reach (.nextItem stack [raw]) rest := by
  obtain ⟨ts, hs, hrun⟩ := exists_tokens h
  refine reach_append hs ?_ hd
  cases ts with
  | nil => cases hrun
  | cons t ts =>
    have ht : t ≠ .closeArray := by rintro rfl; cases hrun
    rw [State.run, State.step_firstItem ht]
    exact State.run_within (.array [] :: stack) hrun

end

/-! ## Containers -/

/-- Inside a container a comma or a closing bracket stands after a value. -/
theorem delimited_cons {d : Char} (h : d = ',' ∨ d = ']' ∨ d = '\x7d') (rest : List Char) :
    Delimited (d :: rest) := by
  rintro c hc
  cases hc
  rcases h with rfl | rfl | rfl <;> decide

/-- The values are read as these raw forms when they stand alone. -/
def ReadItems (items : List Json) (raws : List RawJson) : Prop :=
  List.Forall₂ (fun v raw => parse? v.write = some raw) items raws

/-- The entries are read as these raw entries when their values stand alone. -/
def ReadFields (fields : Fields) (entries : List (Option String × RawJson)) : Prop :=
  List.Forall₂ (fun e entry => entry.1 = some e.1 ∧ parse? e.2.write = some entry.2) fields entries

theorem readItems_map {α : Type} {items : List α} {f : α → Json} {g : α → RawJson}
    (h : ∀ a ∈ items, parse? (f a).write = some (g a)) :
    ReadItems (items.map f) (items.map g) := by
  induction items with
  | nil => exact .nil
  | cons a rest ih =>
    exact .cons (h a List.mem_cons_self) (ih fun b hb => h b (List.mem_cons_of_mem a hb))

theorem readFields_cons {k : String} {v : Json} {raw : RawJson} {fields : Fields}
    {entries : List (Option String × RawJson)} (hv : parse? v.write = some raw)
    (h : ReadFields fields entries) : ReadFields ((k, v) :: fields) ((some k, raw) :: entries) :=
  .cons ⟨rfl, hv⟩ h

theorem writeItems_cons_cons (v w : Json) (items : List Json) (rest : List Char) :
    Json.writeItems (v :: w :: items) ++ rest =
      v.write ++ ',' :: (Json.writeItems (w :: items) ++ rest) := by
  simp [Json.writeItems]

theorem writeFields_singleton (e : String × Json) (rest : List Char) :
    Json.writeFields [e] ++ rest = Json.writeString e.1 ++ ':' :: (e.2.write ++ rest) := by
  simp [Json.writeFields]

theorem writeFields_cons_cons (e f : String × Json) (fields : Fields) (rest : List Char) :
    Json.writeFields (e :: f :: fields) ++ rest =
      Json.writeString e.1 ++
        ':' :: (e.2.write ++ ',' :: (Json.writeFields (f :: fields) ++ rest)) := by
  simp [Json.writeFields]

/-- The items after a comma, and the end of the array. -/
theorem reach_items {items : List Json} {raws : List RawJson} (h : ReadItems items raws)
    (hne : items ≠ []) (stack : List Frame) (before : List RawJson) (rest : List Char) :
    reach (.value (.array before :: stack)) (Json.writeItems items ++ ']' :: rest) =
      reach (State.complete (.array (before.reverse ++ raws)) stack) rest := by
  induction h generalizing before with
  | nil => exact absurd rfl hne
  | @cons v raw items raws hv hall ih =>
    cases items with
    | nil =>
      cases hall
      rw [Json.writeItems, reach_value hv (delimited_cons (by simp) rest), State.complete,
        reach_token (by decide) rfl]
      simp [State.step]
    | cons w items =>
      rw [writeItems_cons_cons, reach_value hv (delimited_cons (by simp) _), State.complete,
        reach_token (by decide) rfl, State.step, Option.bind_some, ih (by simp)]
      simp

theorem parse?_array {items : List Json} {raws : List RawJson} (h : ReadItems items raws) :
    parse? (Json.array items).write = some (.array raws) := by
  rw [parse?_eq_some, Json.write_array, reach_token (by decide) rfl]
  show reach (.firstItem []) (Json.writeItems items ++ [']']) = _
  cases h with
  | nil =>
    rw [Json.writeItems, List.nil_append, reach_token (by decide) rfl]
    exact reach_nil _
  | @cons v raw items raws hv hall =>
    cases items with
    | nil =>
      cases hall
      rw [Json.writeItems, reach_firstItem hv (delimited_cons (by simp) []),
        reach_token (by decide) rfl]
      exact reach_nil _
    | cons w items =>
      rw [writeItems_cons_cons, reach_firstItem hv (delimited_cons (by simp) _),
        reach_token (by decide) rfl]
      show reach (.value [.array [raw]]) (Json.writeItems (w :: items) ++ [']']) = _
      rw [reach_items hall (by simp), reach_nil]
      rfl

/-! ## Objects -/

theorem writeString_append (k : String) (rest : List Char) :
    Json.writeString k ++ rest = '"' :: (k.toList.flatMap Json.writeChar ++ '"' :: rest) := by
  simp [Json.writeString]

theorem reach_string (st : State) (k : String) (rest : List Char) :
    reach st (Json.writeString k ++ rest) =
      (State.step st (.string (some k))).bind (reach · rest) := by
  have hs := Token.next?_writeString k rest
  rw [writeString_append] at hs ⊢
  exact reach_token (by decide) hs

theorem reach_key (stack : List Frame) (before : List (Option String × RawJson)) (k : String)
    (rest : List Char) :
    reach (.key stack before) (Json.writeString k ++ ':' :: rest) =
      reach (.value (.object before (some k) :: stack)) rest := by
  rw [reach_string, State.step, Option.bind_some, reach_token (by decide) rfl]
  rfl

theorem reach_firstKey (stack : List Frame) (k : String) (rest : List Char) :
    reach (.firstKey stack) (Json.writeString k ++ rest) =
      reach (.key stack []) (Json.writeString k ++ rest) := by
  rw [reach_string, reach_string]
  rfl

/-- The entries after a comma, and the end of the object. -/
theorem reach_fields {fields : Fields} {entries : List (Option String × RawJson)}
    (h : ReadFields fields entries) (hne : fields ≠ []) (stack : List Frame)
    (before : List (Option String × RawJson)) (rest : List Char) :
    reach (.key stack before) (Json.writeFields fields ++ '\x7d' :: rest) =
      reach (State.complete (.object (before.reverse ++ entries)) stack) rest := by
  induction h generalizing before with
  | nil => exact absurd rfl hne
  | @cons e entry fields entries he hall ih =>
    obtain ⟨k, raw⟩ := entry
    obtain ⟨rfl, hv⟩ := he
    cases fields with
    | nil =>
      cases hall
      rw [writeFields_singleton, reach_key, reach_value hv (delimited_cons (by simp) rest),
        State.complete, reach_token (by decide) rfl]
      simp [State.step]
    | cons f fields =>
      rw [writeFields_cons_cons, reach_key, reach_value hv (delimited_cons (by simp) _),
        State.complete, reach_token (by decide) rfl, State.step, Option.bind_some, ih (by simp)]
      simp

theorem parse?_object {fields : Fields} {entries : List (Option String × RawJson)}
    (h : ReadFields fields entries) :
    parse? (Json.object fields).write = some (.object entries) := by
  rw [parse?_eq_some, Json.write_object, reach_token (by decide) rfl]
  show reach (.firstKey []) (Json.writeFields fields ++ ['\x7d']) = _
  cases fields with
  | nil =>
    cases h
    rw [Json.writeFields, List.nil_append, reach_token (by decide) rfl]
    exact reach_nil _
  | cons e fields =>
    have hkey : reach (.firstKey []) (Json.writeFields (e :: fields) ++ ['\x7d']) =
        reach (.key [] []) (Json.writeFields (e :: fields) ++ ['\x7d']) := by
      cases fields with
      | nil => rw [writeFields_singleton, reach_firstKey]
      | cons f fields => rw [writeFields_cons_cons, reach_firstKey]
    rw [hkey, reach_fields h (by simp), reach_nil]
    rfl

/-! ## Leaves -/

theorem parse?_string (s : String) : parse? (Json.string s).write = some (.string (some s)) := by
  have h := reach_string (.value []) s []
  rw [List.append_nil] at h
  rw [parse?_eq_some, Json.write_string, h]
  exact reach_nil _

theorem parse?_null : parse? Json.null.write = some .null := by
  rw [parse?_eq_some, Json.write_null, reach_token (by decide) rfl]
  exact reach_nil _

theorem parse?_bool (b : Bool) : parse? (Json.bool b).write = some (.bool b) := by
  have ht : "true".toList = ['t', 'r', 'u', 'e'] := by decide
  have hf : "false".toList = ['f', 'a', 'l', 's', 'e'] := by decide
  rw [parse?_eq_some, Json.write_bool, Json.writeBool]
  cases b with
  | false =>
    rw [if_neg (by decide), hf, reach_token (by decide) rfl]
    exact reach_nil _
  | true =>
    rw [if_pos rfl, ht, reach_token (by decide) rfl]
    exact reach_nil _

theorem parse?_nat {n : Nat} (hn : n < 2 ^ 64) :
    parse? (Json.number (.integer n)).write = some (.number (some (.integer n))) := by
  have hd : Delimited [] := fun d hd => by cases hd
  have h := Token.next?_integerChars hn hd
  obtain ⟨c, s, hs, hc⟩ := Token.exists_digit n
  rw [List.append_nil, Token.integerChars_natCast, hs] at h
  rw [parse?_eq_some, Json.write_number, Number.write, Token.integerChars_natCast, hs,
    reach_token (Token.not_isBlank_of_isDigit hc) h]
  exact reach_nil _

end RawJson

/-! ## Values that are read as themselves -/

namespace Json

/-- The value is read from its text where `depth` containers may stand inside one another. -/
def ReadableAt (depth : Nat) (v : Json) : Prop :=
  (RawJson.parse? v.write).bind (RawJson.toJson? depth) = some v

theorem read?_text {v : Json} (h : v.ReadableAt depthLimit) : read? v.text = some v := by
  rw [read?, text, String.toList_ofList]
  exact h

theorem readableAt_string (depth : Nat) (s : String) : (string s).ReadableAt depth := by
  rw [ReadableAt, RawJson.parse?_string]
  rfl

theorem readableAt_null (depth : Nat) : null.ReadableAt depth := by
  rw [ReadableAt, RawJson.parse?_null]
  rfl

theorem readableAt_bool (depth : Nat) (b : Bool) : (bool b).ReadableAt depth := by
  rw [ReadableAt, RawJson.parse?_bool]
  rfl

variable {depth : Nat}

theorem exists_raw_items {items : List Json} (h : ∀ v ∈ items, v.ReadableAt depth) :
    ∃ raws, RawJson.ReadItems items raws ∧ raws.mapM (RawJson.toJson? depth) = some items := by
  induction items with
  | nil => exact ⟨[], .nil, rfl⟩
  | cons v rest ih =>
    obtain ⟨raws, hraws, hrest⟩ := ih fun w hw => h w (List.mem_cons_of_mem v hw)
    obtain ⟨raw, hraw, hv⟩ := Option.bind_eq_some_iff.mp (h v List.mem_cons_self)
    refine ⟨raw :: raws, .cons hraw hraws, ?_⟩
    rw [List.mapM_cons, hv, hrest]
    rfl

theorem exists_raw_fields {fields : Fields} (h : ∀ e ∈ fields, e.2.ReadableAt depth) :
    ∃ entries, RawJson.ReadFields fields entries ∧
      RawJson.toJsonFields? depth entries = some fields := by
  induction fields with
  | nil => exact ⟨[], .nil, rfl⟩
  | cons e rest ih =>
    obtain ⟨entries, hentries, hrest⟩ := ih fun f hf => h f (List.mem_cons_of_mem e hf)
    obtain ⟨raw, hraw, hv⟩ := Option.bind_eq_some_iff.mp (h e List.mem_cons_self)
    refine ⟨(some e.1, raw) :: entries, .cons ⟨rfl, hraw⟩ hentries, ?_⟩
    simp only [RawJson.toJsonFields?, hv, hrest]

/-- An object with different keys is read as itself if its values are. -/
theorem readableAt_object {fields : Fields} (hn : fields.keys.Nodup)
    (h : ∀ e ∈ fields, e.2.ReadableAt depth) : (object fields).ReadableAt (depth + 1) := by
  obtain ⟨entries, hentries, hfields⟩ := exists_raw_fields h
  rw [ReadableAt, RawJson.parse?_object hentries, Option.bind_some, RawJson.toJson?, hfields,
    Option.map_some, Fields.ofEntries_of_nodup hn]

end Json

end DocStore
