import DocStore.Proofs.Filter.Parsed
import Mathlib.Logic.Relation

/-!
# Calls of the readers

Reading a filter takes four readers: of filters, of the clauses of a mapping, of conditions and of
entries of comparison mappings. `Readers.step` is what each of them does itself, with the parts left
to other readers, and `ReaderCall.Calls` says what the parts are (`step_congr`). The mapping that a
sequence is merged into is one of them, though it stands nowhere in the value. Every call is on less
than the call around it, so only the readers of this library follow these steps
(`eq_actual_of_step`).
-/

namespace DocStore

/-! ## Results with notes -/

instance : LawfulMonad Noted :=
  LawfulMonad.mk' Noted
    (fun ⟨overwrites, result⟩ => by cases result <;> simp [Functor.map, Noted.andThen])
    (fun a f => by simp [bind, pure, Noted.andThen])
    (fun x f g => by
      cases hx : x.result with
      | error e => rw [Noted.bind_of_error hx, Noted.bind_of_error hx, Noted.bind_of_error rfl]
      | ok a =>
        rw [Noted.bind_of_ok hx, Noted.bind_of_ok hx]
        cases ha : (f a).result with
        | error e => rw [Noted.bind_of_error ha, Noted.bind_of_error rfl]
        | ok b => rw [Noted.bind_of_ok ha, Noted.bind_of_ok rfl, List.append_assoc])

/-- What comes after a result is asked for that result only. -/
theorem Noted.bind_congr {α β : Type} {x : Noted α} {f g : α → Noted β}
    (h : ∀ a, x.result = .ok a → f a = g a) : x >>= f = x >>= g := by
  cases hx : x.result with
  | error e => rw [bind_of_error hx, bind_of_error hx]
  | ok a => rw [bind_of_ok hx, bind_of_ok hx, h a hx]

theorem Noted.mapM_congr {α β : Type} {f g : α → Noted β} {items : List α}
    (h : ∀ a ∈ items, f a = g a) : items.mapM f = items.mapM g := by
  induction items with
  | nil => rw [List.mapM_nil, List.mapM_nil]
  | cons a rest ih =>
    obtain ⟨ha, hrest⟩ := List.forall_mem_cons.mp h
    rw [List.mapM_cons, List.mapM_cons, ha, ih hrest]

/-! ## Readers -/

structure Readers where
  filter : Json → Noted Filter
  clauses : Fields → Noted (List Clause)
  condition : String → Json → Noted Condition
  comparison : String → String → Json → Noted Comparison

namespace Readers

def actual : Readers where
  filter := Filter.ofJson
  clauses := Clause.listOfJson
  condition := Condition.ofJson
  comparison := Comparison.ofJson

variable (readers others : Readers)

def stepFilter : Json → Noted Filter
  | .null => pure (.clauses [])
  | .object entries => .clauses <$> readers.clauses entries
  | .array items => .sequence <$> items.mapM readers.filter
  | other => .fail (.nestedKind other.kind)

def stepClause (e : String × Json) : Noted Clause :=
  match Connective.ofKey? e.1 with
  | some connective => .group connective <$> readers.filter e.2
  | none =>
    if isOperatorKey e.1 then .fail (.unsupportedOperator e.1)
    else .field e.1 <$> readers.condition e.1 e.2

def stepCondition (field : String) : Json → Noted Condition
  | .object entries => .comparisons <$> entries.mapM fun e => readers.comparison field e.1 e.2
  | .array items => .ofExcept (.oneOf <$> Scalar.listOfJson .oneOf field items)
  | other => .ofExcept (.scalar <$> Scalar.ofJson field other)

/-- A condition under a connective. -/
def stepGroup (field : String) (connective : Connective) : Json → Noted Condition
  | .array items => do
    let merged ← merge field connective items
    readers.condition field (.object merged)
  | other => readers.condition field other

def stepComparison (field key : String) (v : Json) : Noted Comparison :=
  match Connective.ofKey? key with
  | some connective => .group connective <$> readers.stepGroup field connective v
  | none =>
    match Relation.ofKey? key with
    | some relation => .ofExcept (.compare relation <$> Operand.ofJson relation field v)
    | none => .fail (.unsupportedOperator key)

/-- What each reader does itself; the parts are left to `readers`. -/
def step : Readers where
  filter := readers.stepFilter
  clauses entries := entries.mapM readers.stepClause
  condition := readers.stepCondition
  comparison := readers.stepComparison

end Readers

/-! ## Calls -/

/-- A value, or the entries of one, and the reader that reads it. -/
inductive ReaderCall where
  | filter (v : Json)
  | clauses (entries : Fields)
  | condition (field : String) (v : Json)
  | comparison (field key : String) (v : Json)

/-- The readers give the same there, overwrites and errors included. -/
def Readers.AgreeAt (readers others : Readers) : ReaderCall → Prop
  | .filter v => readers.filter v = others.filter v
  | .clauses entries => readers.clauses entries = others.clauses entries
  | .condition field v => readers.condition field v = others.condition field v
  | .comparison field key v => readers.comparison field key v = others.comparison field key v

theorem Readers.ext_agreeAt {readers others : Readers} (h : ∀ r, readers.AgreeAt others r) :
    readers = others := by
  obtain ⟨filter, clauses, condition, comparison⟩ := readers
  obtain ⟨filter', clauses', condition', comparison'⟩ := others
  rw [mk.injEq]
  exact ⟨funext fun v => h (.filter v), funext fun entries => h (.clauses entries),
    funext fun field => funext fun v => h (.condition field v),
    funext fun field => funext fun key => funext fun v => h (.comparison field key v)⟩

namespace ReaderCall

/-- The calls that a call leads to, unless an error comes before. -/
inductive Calls : ReaderCall → ReaderCall → Prop
  | mapping (entries : Fields) : Calls (.filter (.object entries)) (.clauses entries)
  | item {items : List Json} {v : Json} : v ∈ items → Calls (.filter (.array items)) (.filter v)
  | operand {entries : Fields} {key : String} {v : Json} {connective : Connective} :
    (key, v) ∈ entries → Connective.ofKey? key = some connective →
    Calls (.clauses entries) (.filter v)
  | field {entries : Fields} {key : String} {v : Json} :
    (key, v) ∈ entries → isOperatorKey key = false → Calls (.clauses entries) (.condition key v)
  | entry {entries : Fields} {key : String} {v : Json} (field : String) :
    (key, v) ∈ entries → Calls (.condition field (.object entries)) (.comparison field key v)
  | merged {field key : String} {connective : Connective} {items : List Json} {fields : Fields} :
    Connective.ofKey? key = some connective →
    (merge field connective items).result = .ok fields →
    Calls (.comparison field key (.array items)) (.condition field (.object fields))
  | group {key : String} {connective : Connective} {v : Json} (field : String) :
    Connective.ofKey? key = some connective → (∀ items, v ≠ .array items) →
    Calls (.comparison field key v) (.condition field v)

end ReaderCall

namespace Readers

variable {readers others : Readers}

theorem stepClause_congr {entries : Fields}
    (h : ∀ r, ReaderCall.Calls (.clauses entries) r → readers.AgreeAt others r) :
    ∀ e ∈ entries, readers.stepClause e = others.stepClause e := by
  rintro ⟨key, v⟩ he
  unfold stepClause
  dsimp only
  split
  · rename_i connective hk
    rw [show readers.filter v = others.filter v from h _ (.operand he hk)]
  · split
    · rfl
    · rename_i hk
      rw [show readers.condition key v = others.condition key v from
        h _ (.field he (Bool.eq_false_iff.mpr hk))]

theorem stepGroup_congr {field key : String} {connective : Connective} {v : Json}
    (hk : Connective.ofKey? key = some connective)
    (h : ∀ r, ReaderCall.Calls (.comparison field key v) r → readers.AgreeAt others r) :
    readers.stepGroup field connective v = others.stepGroup field connective v := by
  cases v with
  | array items => exact Noted.bind_congr fun merged hm => h _ (.merged hk hm)
  | _ => exact h _ (.group field hk (by simp))

/-- A step asks the readers of the parts about what it calls and about nothing else. -/
theorem step_congr {r : ReaderCall} (h : ∀ r', r.Calls r' → readers.AgreeAt others r') :
    readers.step.AgreeAt others.step r := by
  match r with
  | .filter (.object entries) =>
    exact congrArg (Filter.clauses <$> ·) (h _ (.mapping entries))
  | .filter (.array items) =>
    exact congrArg (Filter.sequence <$> ·) (Noted.mapM_congr fun v hv => h _ (.item hv))
  | .filter .null | .filter (.bool _) | .filter (.number _) | .filter (.string _) => rfl
  | .clauses entries => exact Noted.mapM_congr (stepClause_congr h)
  | .condition field (.object entries) =>
    exact congrArg (Condition.comparisons <$> ·)
      (Noted.mapM_congr fun _ he => h _ (.entry field he))
  | .condition _ (.array _) | .condition _ .null | .condition _ (.bool _)
  | .condition _ (.number _) | .condition _ (.string _) => rfl
  | .comparison field key v =>
    unfold AgreeAt step stepComparison
    dsimp only
    split
    · rename_i connective hk
      rw [stepGroup_congr hk h]
    · rfl

end Readers

/-! ## The readers of this library follow these steps -/

theorem Filter.listOfJson_eq (items : List Json) :
    Filter.listOfJson items = items.mapM Filter.ofJson := by
  induction items with
  | nil => rw [Filter.listOfJson, List.mapM_nil]
  | cons v rest ih => rw [Filter.listOfJson, List.mapM_cons, ih]

theorem Comparison.listOfJson_eq (field : String) (entries : Fields) :
    Comparison.listOfJson field entries =
      entries.mapM fun e => Comparison.ofJson field e.1 e.2 := by
  induction entries with
  | nil => rw [Comparison.listOfJson, List.mapM_nil]
  | cons e rest ih =>
    obtain ⟨key, v⟩ := e
    rw [Comparison.listOfJson, List.mapM_cons, ih]

theorem Clause.listOfJson_eq (entries : Fields) :
    Clause.listOfJson entries = entries.mapM Readers.actual.stepClause := by
  induction entries with
  | nil => rw [Clause.listOfJson, List.mapM_nil]
  | cons e rest ih =>
    obtain ⟨key, v⟩ := e
    rw [Clause.listOfJson, List.mapM_cons, ih, Readers.stepClause]
    cases hk : Connective.ofKey? key with
    | some connective => rfl
    | none => cases isOperatorKey key <;> rfl

theorem Comparison.ofJson_eq (field key : String) (v : Json) :
    Comparison.ofJson field key v = Readers.actual.stepComparison field key v := by
  rw [Comparison.ofJson, Readers.stepComparison]
  cases hk : Connective.ofKey? key with
  | none => rfl
  | some connective =>
    cases v with
    | array items =>
      dsimp only [Readers.stepGroup]
      rw [map_bind]
      split
      · rename_i e he
        rw [Noted.bind_of_error he]
      · rename_i merged he
        rw [Noted.bind_of_ok he]
        rfl
    | _ => rfl

namespace Readers

theorem step_actual : actual.step = actual := by
  refine ext_agreeAt fun r => ?_
  match r with
  | .filter v =>
    show stepFilter actual v = Filter.ofJson v
    cases v <;> simp only [stepFilter, Filter.ofJson, actual, Filter.listOfJson_eq]
  | .clauses entries => exact (Clause.listOfJson_eq entries).symm
  | .condition field v =>
    show stepCondition actual field v = Condition.ofJson field v
    rw [Condition.ofJson.eq_def]
    cases v <;> simp only [stepCondition, actual, Comparison.listOfJson_eq]
  | .comparison field key v => exact (Comparison.ofJson_eq field key v).symm

end Readers

/-! ## Every call is on less -/

namespace Json

theorem size_le_itemsSize {v : Json} {items : List Json} (h : v ∈ items) :
    v.size ≤ itemsSize items := by
  induction items with
  | nil => cases h
  | cons w rest ih =>
    rw [itemsSize]
    rcases List.mem_cons.mp h with rfl | h
    · omega
    · have := ih h
      omega

theorem size_le_fieldsSize {key : String} {v : Json} {fields : Fields} (h : (key, v) ∈ fields) :
    v.size ≤ fieldsSize fields := by
  induction fields with
  | nil => cases h
  | cons e rest ih =>
    obtain ⟨k, w⟩ := e
    rw [fieldsSize]
    rcases List.mem_cons.mp h with h | h
    · cases h
      omega
    · have := ih h
      omega

end Json

namespace ReaderCall

/-- What gets less with each call. Entries weigh more than their values, and a comparison more than
its condition, which may be on the same value. -/
def weight : ReaderCall → Nat
  | filter v => 2 * v.size
  | clauses entries => 2 * Json.fieldsSize entries + 1
  | condition _ v => 2 * v.size
  | comparison _ _ v => 2 * v.size + 1

theorem weight_lt_of_calls {r r' : ReaderCall} (h : r.Calls r') : r'.weight < r.weight := by
  cases h with
  | mapping entries => simp only [weight, Json.size]; omega
  | item hv =>
    have := Json.size_le_itemsSize hv
    simp only [weight, Json.size]; omega
  | operand he _ =>
    have := Json.size_le_fieldsSize he
    simp only [weight]; omega
  | field he _ =>
    have := Json.size_le_fieldsSize he
    simp only [weight]; omega
  | entry _ he =>
    have := Json.size_le_fieldsSize he
    simp only [weight, Json.size]; omega
  | merged _ hm =>
    have := fieldsSize_merge hm
    simp only [weight, Json.size]; omega
  | group _ _ _ => simp only [weight]; omega

theorem calls_wellFounded : WellFounded fun callee caller : ReaderCall => caller.Calls callee :=
  Subrelation.wf weight_lt_of_calls (measure weight).wf

theorem weight_lt_of_nested {r r' : ReaderCall} (h : Relation.TransGen Calls r r') :
    r'.weight < r.weight := by
  induction h with
  | single h => exact weight_lt_of_calls h
  | tail _ h ih => exact Nat.lt_trans (weight_lt_of_calls h) ih

end ReaderCall

theorem Readers.eq_actual_of_step {readers : Readers} (h : readers.step = readers) :
    readers = actual := by
  refine ext_agreeAt fun r => ?_
  induction r using ReaderCall.calls_wellFounded.induction with
  | _ r ih =>
    rw [← h, ← step_actual]
    exact step_congr ih

end DocStore
