import DocStore.Config.File
import DocStore.Proofs.Json.Height
import DocStore.Proofs.Json.Slots
import DocStore.Proofs.Text.Utf8

/-!
# Saved configurations

`load_saved` says what is loaded from the file that a configuration was saved to: the configuration
itself if it is valid, and its problem if it is not. Only settings that are `null` come back as
none. Settings are read one container below the whole text, so those that just fit into a text of
their own do not fit into the file (`not_all_saved_loaded`).
-/

namespace DocStore.Config

/-- Settings that are `null` are none. -/
def givenSettings : Option Json → Option Json
  | some .null => none
  | settings => settings

/-- The configuration with settings that are `null` left out. -/
def withoutNull (c : Config) : Config := { c with indexSettings := givenSettings c.indexSettings }

/-- The counts have 64 bits, and the settings are a JSON value that is read from its text. -/
structure Storable (c : Config) : Prop where
  batchSize : c.clientBatchSize < 2 ^ 64
  timeout : c.requestTimeoutSecs < 2 ^ 64
  numbers : ∀ v ∈ c.indexSettings, ∀ n ∈ v.numbers, n.inRange = true
  readable : ∀ v ∈ c.indexSettings, v.ReadableAt Json.depthLimit

/-- The settings have no more containers inside one another than may stand inside the object of the
file. -/
def SettingsFit (c : Config) : Prop := ∀ v ∈ c.indexSettings, v.height ≤ settingsDepth

/-! ## Slots -/

def slots (c : Config) : List (String × Option Json) :=
  [("collection_name", some (.string c.collectionName)), ("url", some (.string c.url)),
   ("api_key", c.apiKey.map .string), ("index_settings", c.indexSettings),
   ("client_batch_size", some (countJson c.clientBatchSize)),
   ("request_timeout_secs", some (countJson c.requestTimeoutSecs)),
   ("schema", some (.string c.schema.name)),
   ("escape_filter_values", some (.bool c.escapeFilterValues)),
   ("tensor_fields", c.tensorFields.map fun fs => .array (fs.map .string))]

/-- What the slots are read as, with the raw form of the settings. -/
def rawSlots (c : Config) (settings : Option RawJson) : List (String × Option RawJson) :=
  [("collection_name", some (.string c.collectionName)), ("url", some (.string c.url)),
   ("api_key", c.apiKey.map fun key => .string (some key)), ("index_settings", settings),
   ("client_batch_size", some (.number (some (.integer c.clientBatchSize)))),
   ("request_timeout_secs", some (.number (some (.integer c.requestTimeoutSecs)))),
   ("schema", some (.string c.schema.name)),
   ("escape_filter_values", some (.bool c.escapeFilterValues)),
   ("tensor_fields", c.tensorFields.map fun fs => .array (fs.map fun f => .string (some f)))]

theorem toFields_eq (c : Config) : c.toFields = present c.slots := by
  unfold toFields slots
  cases c.apiKey <;> cases c.indexSettings <;> cases c.tensorFields <;> rfl

theorem nodup_fieldNames : fieldNames.Nodup := by decide

variable {c : Config}

theorem inRange_slots (h : c.Storable) :
    ∀ s ∈ c.slots, ∀ v ∈ s.2, ∀ n ∈ v.numbers, n.inRange = true := by
  have hcount : ∀ {k : Nat}, k < 2 ^ 64 → ∀ n ∈ (countJson k).numbers, n.inRange = true := by
    rintro k hk n hn
    obtain rfl := List.mem_singleton.mp hn
    simp only [Number.inRange, Number.integerRange, Bool.and_eq_true, decide_eq_true_eq]
    omega
  have hstrings : ∀ fs : List String, (Json.array (fs.map .string)).numbers = [] := by
    intro fs
    refine List.eq_nil_iff_forall_not_mem.mpr fun n hn => ?_
    obtain ⟨v, hv, hnv⟩ := Json.mem_itemsNumbers.mp hn
    obtain ⟨f, _, rfl⟩ := List.mem_map.mp hv
    cases hnv
  rintro s hs v hv n hn
  simp only [slots, List.mem_cons, List.not_mem_nil, or_false] at hs
  rcases hs with rfl | rfl | rfl | rfl | rfl | rfl | rfl | rfl | rfl
  · cases hv; cases hn
  · cases hv; cases hn
  · obtain ⟨key, _, rfl⟩ := Option.map_eq_some_iff.mp hv
    cases hn
  · exact h.numbers v hv n hn
  · cases hv; exact hcount h.batchSize n hn
  · cases hv; exact hcount h.timeout n hn
  · cases hv; cases hn
  · cases hv; cases hn
  · obtain ⟨fs, _, rfl⟩ := Option.map_eq_some_iff.mp hv
    rw [hstrings] at hn
    cases hn

theorem readSlots (h : c.Storable) {settings : Option RawJson}
    (hsettings : RawJson.ReadOption c.indexSettings settings) :
    List.Forall₂ RawJson.ReadSlot c.slots (c.rawSlots settings) := by
  have hapiKey : RawJson.ReadOption (c.apiKey.map .string)
      (c.apiKey.map fun key => .string (some key)) := by
    cases c.apiKey with
    | none => exact .none
    | some key => exact .some (RawJson.parse?_string key)
  have htensor : RawJson.ReadOption (c.tensorFields.map fun fs => .array (fs.map .string))
      (c.tensorFields.map fun fs => .array (fs.map fun f => .string (some f))) := by
    cases c.tensorFields with
    | none => exact .none
    | some fs =>
      exact .some (RawJson.parse?_array (RawJson.readItems_map fun f _ => RawJson.parse?_string f))
  exact .cons ⟨rfl, .some (RawJson.parse?_string _)⟩ <|
    .cons ⟨rfl, .some (RawJson.parse?_string _)⟩ <|
    .cons ⟨rfl, hapiKey⟩ <|
    .cons ⟨rfl, hsettings⟩ <|
    .cons ⟨rfl, .some (RawJson.parse?_nat h.batchSize)⟩ <|
    .cons ⟨rfl, .some (RawJson.parse?_nat h.timeout)⟩ <|
    .cons ⟨rfl, .some (RawJson.parse?_string _)⟩ <|
    .cons ⟨rfl, .some (RawJson.parse?_bool _)⟩ <|
    .cons ⟨rfl, htensor⟩ .nil

/-- The text of the file is read as the object of the raw slots. -/
theorem parse?_fileText (h : c.Storable) {settings : Option RawJson}
    (hsettings : RawJson.ReadOption c.indexSettings settings) :
    RawJson.parse? c.fileText.toList =
      some (.object (RawJson.rawEntries (present (c.rawSlots settings)))) := by
  have hnumbers : ∀ n ∈ (Json.object c.toFields).numbers, n.inRange = true := by
    intro n hn
    obtain ⟨e, he, hne⟩ := Json.mem_fieldsNumbers.mp hn
    rw [toFields_eq] at he
    exact forall_present (inRange_slots h) e he n hne
  rw [fileText, Json.prettyText, String.toList_ofList, Json.parse?_writePretty 0 hnumbers,
    toFields_eq]
  exact RawJson.parse?_object (RawJson.readFields_present (readSlots h hsettings))

/-! ## Fields -/

theorem asCount?_natCast {n : Nat} (h : n < 2 ^ 64) :
    RawJson.asCount? (.number (some (.integer n))) = some n := by
  rw [RawJson.asCount?, RawJson.asNat?, if_pos (by omega), Int.toNat_natCast]

theorem readSchema?_name (schema : Schema) :
    readSchema? (.string schema.name) = some schema := by
  cases schema <;> rfl

theorem readOptional_key (key : Option String) :
    RawJson.readOptional RawJson.asString? (key.map fun k => .string (some k)) = some key := by
  cases key <;> rfl

theorem readOptional_strings (fs : Option (List String)) :
    RawJson.readOptional (RawJson.asList? RawJson.asString?)
      (fs.map fun fs => .array (fs.map fun f => .string (some f))) = some fs := by
  cases fs with
  | none => rfl
  | some fs =>
    have hread : (fs.map fun f => RawJson.string (some f)).mapM RawJson.asString? = some fs := by
      induction fs with
      | nil => rfl
      | cons f fs ih =>
        rw [List.map_cons, List.mapM_cons, ih]
        rfl
    exact congrArg (some <$> ·) hread

open RawJson in
/-- All fields but the settings come back as they were. -/
theorem ofRaw?_rawSlots (h : c.Storable) (settings : Option RawJson) :
    ofRaw? (.object (RawJson.rawEntries (present (c.rawSlots settings)))) =
      (RawJson.readOptional (RawJson.toJson? settingsDepth) settings).map
        fun s => { c with indexSettings := s } := by
  have hn : ((c.rawSlots settings).map (·.1)).Nodup := nodup_fieldNames
  let r : Record := present (c.rawSlots settings)
  have hname d : r.withDefault "collection_name" d asString? = some c.collectionName :=
    withDefault_present hn (List.mem_of_getElem? (i := 0) rfl) (by rfl) d
  have hurl d : r.withDefault "url" d asString? = some c.url :=
    withDefault_present hn (List.mem_of_getElem? (i := 1) rfl) (by rfl) d
  have hapiKey : r.optional "api_key" asString? = some c.apiKey :=
    optional_present hn (List.mem_of_getElem? (i := 2) rfl) (readOptional_key _)
  have hsettings : r.optional "index_settings" (toJson? settingsDepth) =
      readOptional (toJson? settingsDepth) settings :=
    optional_present hn (List.mem_of_getElem? (i := 3) rfl) rfl
  have hbatch d : r.withDefault "client_batch_size" d asCount? = some c.clientBatchSize :=
    withDefault_present hn (List.mem_of_getElem? (i := 4) rfl) (asCount?_natCast h.batchSize) d
  have htimeout d : r.withDefault "request_timeout_secs" d asCount? = some c.requestTimeoutSecs :=
    withDefault_present hn (List.mem_of_getElem? (i := 5) rfl) (asCount?_natCast h.timeout) d
  have hschema d : r.withDefault "schema" d readSchema? = some c.schema :=
    withDefault_present hn (List.mem_of_getElem? (i := 6) rfl) (readSchema?_name _) d
  have hescape d : r.withDefault "escape_filter_values" d asBool? = some c.escapeFilterValues :=
    withDefault_present hn (List.mem_of_getElem? (i := 7) rfl) (by rfl) d
  have htensor : r.optional "tensor_fields" (asList? asString?) = some c.tensorFields :=
    optional_present hn (List.mem_of_getElem? (i := 8) rfl) (readOptional_strings _)
  have hrecord : (object (rawEntries r)).record? fieldNames = some r := record?_present hn
  change ofRaw? (object (rawEntries r)) = _
  clear_value r
  simp only [ofRaw?, hrecord, hname, hurl, hapiKey, hsettings, hbatch, htimeout, hschema, hescape,
    htensor, bind, Option.bind_some, pure]
  cases readOptional (toJson? settingsDepth) settings <;> rfl

/-! ## Settings -/

section

variable {v : Json} {raw : RawJson}

theorem ne_null_of_parse? (hv : v ≠ .null) {limit : Nat} (hread : v.ReadableAt limit)
    (hraw : RawJson.parse? v.write = some raw) : raw ≠ .null := by
  rintro rfl
  rw [Json.ReadableAt, hraw] at hread
  exact hv (Option.some.inj hread).symm

theorem readOptional_settings (h : ∀ n ∈ v.numbers, n.inRange = true) {limit : Nat}
    (hread : v.ReadableAt limit) (hraw : RawJson.parse? v.write = some raw) (depth : Nat) :
    RawJson.readOptional (RawJson.toJson? depth) (some raw) =
      if v.height ≤ depth then some (givenSettings (some v)) else none := by
  by_cases hv : v = .null
  · subst hv
    obtain rfl : RawJson.null = raw := Option.some.inj (RawJson.parse?_null.symm.trans hraw)
    exact (if_pos (Nat.zero_le depth)).symm
  · rw [RawJson.readOptional, RawJson.toJson?_of_readableAt h hread hraw, givenSettings]
    · split <;> rfl
    · exact fun hnull => hv (Option.some.inj hnull)
    · exact ne_null_of_parse? hv hread hraw

end

theorem Storable.read_settings (h : c.Storable) :
    ∃ settings, RawJson.ReadOption c.indexSettings settings ∧
      (c.SettingsFit → RawJson.readOptional (RawJson.toJson? settingsDepth) settings =
        some (givenSettings c.indexSettings)) ∧
      (¬ c.SettingsFit → RawJson.readOptional (RawJson.toJson? settingsDepth) settings = none) := by
  unfold SettingsFit
  cases hc : c.indexSettings with
  | none => exact ⟨none, .none, fun _ => rfl, fun hfit => absurd (by simp) hfit⟩
  | some v =>
    obtain ⟨raw, hraw, _⟩ := Option.bind_eq_some_iff.mp (h.readable v hc)
    have hsettings := readOptional_settings (h.numbers v hc) (h.readable v hc) hraw settingsDepth
    refine ⟨some raw, .some hraw, fun hfit => ?_, fun hfit => ?_⟩
    · rw [hsettings, if_pos (hfit v rfl)]
    · rw [hsettings, if_neg (by simpa using hfit)]

/-! ## Files -/

/-- The text of the file is read as the configuration if the settings fit into it. -/
theorem read_fileText (h : c.Storable) :
    (c.SettingsFit → (RawJson.parse? c.fileText.toList).bind ofRaw? = some c.withoutNull) ∧
      (¬ c.SettingsFit → (RawJson.parse? c.fileText.toList).bind ofRaw? = none) := by
  obtain ⟨settings, hsettings, hfit, hdeep⟩ := h.read_settings
  rw [parse?_fileText h hsettings, Option.bind_some, ofRaw?_rawSlots h]
  constructor
  · intro hfits
    rw [hfit hfits]
    rfl
  · intro hnot
    rw [hdeep hnot]
    rfl

theorem load_encode (s : String) : load (.file (Utf8.encode s)) = ofText s := by
  rw [load, Utf8.strict?_encode]

theorem load_of_fit (h : c.Storable) (hfit : c.SettingsFit) :
    load (.file (Utf8.encode c.fileText)) = c.withoutNull.validate.map fun _ => c.withoutNull := by
  rw [load_encode, ofText, (read_fileText h).1 hfit]
  generalize c.withoutNull = d
  dsimp only
  cases d.validate <;> rfl

theorem load_of_not_fit (h : c.Storable) (hfit : ¬ c.SettingsFit) :
    load (.file (Utf8.encode c.fileText)) = .error .undecodable := by
  rw [load_encode, ofText, (read_fileText h).2 hfit]

/-- Configurations with one file differ in settings that are `null` at most. -/
theorem withoutNull_of_file {d : Config} (h : c.Storable) (hfit : c.SettingsFit) (hd : d.Storable)
    (hfile : d.fileText = c.fileText) : d.withoutNull = c.withoutNull := by
  have hread := (read_fileText h).1 hfit
  rw [← hfile] at hread
  by_cases hdfit : d.SettingsFit
  · rw [(read_fileText hd).1 hdfit] at hread
    exact Option.some.inj hread
  · rw [(read_fileText hd).2 hdfit] at hread
    cases hread

/-- The file that a configuration is saved to is loaded as the configuration if it is valid, with
settings that are `null` left out, and refused with its problem otherwise. No other configuration
has this file. Settings that do not fit into the file are not read. -/
theorem load_saved (c : Config) (h : c.Storable) :
    ∃ stored, c.save .free = .ok stored ∧
      (c.SettingsFit →
        (∀ d, load stored = .ok d ↔ d = c.withoutNull ∧ c.withoutNull.validate = .ok ()) ∧
        (∀ e, load stored = .error e ↔
          c.withoutNull.validate = .error e ∧ ∃ problem, e = .config problem) ∧
        ∀ d : Config, d.Storable → d.save .free = .ok stored → d.withoutNull = c.withoutNull) ∧
      (¬ c.SettingsFit → load stored = .error .undecodable) := by
  refine ⟨_, rfl, fun hfit => ⟨?_, ?_, ?_⟩, load_of_not_fit h⟩
  · intro d
    rw [load_of_fit h hfit]
    cases hvalid : c.withoutNull.validate with
    | ok _ => simp [Except.map, eq_comm]
    | error e => simp [Except.map]
  · intro e
    rw [load_of_fit h hfit, validate]
    cases c.withoutNull.problem? with
    | none => simp [Except.map]
    | some problem =>
      simp only [Except.map, Except.error.injEq]
      constructor
      · rintro rfl
        exact ⟨rfl, problem, rfl⟩
      · exact And.left
  · intro d hd hsaved
    rw [save, Except.ok.injEq, Stored.file.injEq] at hsaved
    exact withoutNull_of_file h hfit hd (Utf8.encode_injective hsaved)

namespace Tricky

/-- A configuration in which nothing is as by default. -/
def config : Config where
  collectionName := "caf\u00e9 \"notes\""
  url := ""
  apiKey := some ""
  indexSettings := some (.object [("model", .string "e5"), ("inner", .object [("", .bool true)])])
  clientBatchSize := 2 ^ 64 - 1
  requestTimeoutSecs := 0
  schema := .text
  escapeFilterValues := false
  tensorFields := some []

/-- A configuration without a name, and with settings that a file cannot tell from none. -/
def blank : Config where
  collectionName := " "
  indexSettings := some .null

theorem storable_config : config.Storable where
  batchSize := by decide
  timeout := by decide
  numbers v hv n hn := by
    cases hv
    cases hn
  readable v hv := by
    cases hv
    refine Json.readableAt_object (by decide) fun e he => ?_
    rcases List.mem_pair.mp he with rfl | rfl
    · exact Json.readableAt_string _ _
    · refine Json.readableAt_object (List.nodup_singleton _) fun e he => ?_
      rw [List.mem_singleton.mp he]
      exact Json.readableAt_bool _ _

theorem storable_blank : blank.Storable where
  batchSize := by decide
  timeout := by decide
  numbers v hv n hn := by
    cases hv
    cases hn
  readable v hv := by
    cases hv
    exact Json.readableAt_null _

theorem load_saved_tricky :
    config.Storable ∧ config.SettingsFit ∧ blank.Storable ∧ blank.SettingsFit ∧
      (∃ stored, config.save .free = .ok stored ∧ load stored = .ok config) ∧
      ∃ stored, blank.save .free = .ok stored ∧
        load stored = .error (.config .blankCollectionName) := by
  have hfit : config.SettingsFit := by
    rintro v hv
    cases hv
    decide
  have hblank : blank.SettingsFit := by
    rintro v hv
    cases hv
    decide
  obtain ⟨stored, hsave, hload, -⟩ := load_saved config storable_config
  obtain ⟨stored', hsave', hload', -⟩ := load_saved blank storable_blank
  refine ⟨storable_config, hfit, storable_blank, hblank, ⟨stored, hsave, ?_⟩, stored', hsave', ?_⟩
  · exact ((hload hfit).1 config).mpr ⟨rfl, by rfl⟩
  · exact ((hload' hblank).2.1 _).mpr ⟨by rfl, _, rfl⟩

end Tricky

/-! ## Settings that do not fit -/

def nested : Nat → Json
  | 0 => .object []
  | n + 1 => .object [("inner", nested n)]

theorem isObject_nested (n : Nat) : (nested n).isObject = true := by
  cases n <;> rfl

theorem numbers_nested (n : Nat) : (nested n).numbers = [] := by
  induction n with
  | zero => rfl
  | succ n ih => rw [nested, Json.numbers, Json.fieldsNumbers, ih, Json.fieldsNumbers]; rfl

theorem readableAt_nested (n : Nat) : (nested n).ReadableAt (n + 1) := by
  induction n with
  | zero => exact Json.readableAt_object List.nodup_nil (by simp)
  | succ n ih =>
    refine Json.readableAt_object (List.nodup_singleton _) fun e he => ?_
    rw [List.mem_singleton.mp he]
    exact ih

theorem height_nested (n : Nat) : (nested n).height = n + 1 := by
  induction n with
  | zero => rfl
  | succ n ih =>
    rw [nested, Json.height, Json.fieldsHeight, Json.fieldsHeight, ih, Nat.max_eq_left]
    exact Nat.zero_le _

/-- A valid configuration whose settings have as many containers as a text may have. -/
def deep : Config := { indexSettings := some (nested settingsDepth) }

theorem storable_deep : deep.Storable where
  batchSize := by decide
  timeout := by decide
  numbers v hv n hn := by
    cases hv
    rw [numbers_nested] at hn
    cases hn
  readable v hv := by
    cases hv
    exact readableAt_nested settingsDepth

theorem not_settingsFit_deep : ¬ deep.SettingsFit := by
  intro h
  have hle := h _ rfl
  rw [height_nested] at hle
  omega

theorem validate_deep : deep.withoutNull.validate = .ok () := by
  have hgiven : ∀ n, givenSettings (some (nested n)) = some (nested n) := by
    rintro (_ | n) <;> rfl
  have hname : Text.isBlank "documents" = false := by decide
  simp [validate, problem?, withoutNull, deep, hgiven, isObject_nested, hname]

/-- It is not so that each valid configuration is loaded from its file. -/
theorem not_all_saved_loaded :
    ¬ ∀ c : Config, c.Storable → ∀ stored, c.save .free = .ok stored →
      ∀ d, load stored = .ok d ↔ d = c.withoutNull ∧ c.withoutNull.validate = .ok () := by
  intro hall
  have hloaded := (hall deep storable_deep _ rfl deep.withoutNull).mpr ⟨rfl, validate_deep⟩
  rw [load_of_not_fit storable_deep not_settingsFit_deep] at hloaded
  cases hloaded

end DocStore.Config
