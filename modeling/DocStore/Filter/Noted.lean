import DocStore.Filter.Error

/-!
# Results with notes

Reading a filter may replace one comparison by a later one with the same key. Each such
`Overwrite` is noted. `Noted` is a result together with the overwrites met on the way to it, which
outlive an error.
-/

namespace DocStore

/-- A comparison that was replaced by a later one with the same key. -/
structure Overwrite where
  field : String
  connective : Connective
  key : String
  old : Json
  new : Json

def Overwrite.message (o : Overwrite) : String :=
  "filter on field " ++ o.field ++ " merges duplicate " ++ o.key ++ " under " ++ o.connective.key ++
    ": " ++ o.old.text ++ " replaced by " ++ o.new.text

/-- A result and the overwrites noted before it, in order. -/
structure Noted (α : Type) where
  overwrites : List Overwrite
  result : Except FilterError α

namespace Noted

variable {α β : Type}

def fail (e : FilterError) : Noted α := ⟨[], .error e⟩

def ofExcept (result : Except FilterError α) : Noted α := ⟨[], result⟩

def note (overwrites : List Overwrite) : Noted Unit := ⟨overwrites, .ok ()⟩

def andThen (x : Noted α) (f : α → Noted β) : Noted β :=
  match x.result with
  | .error e => ⟨x.overwrites, .error e⟩
  | .ok a => ⟨x.overwrites ++ (f a).overwrites, (f a).result⟩

instance : Monad Noted where
  pure a := ⟨[], .ok a⟩
  bind := andThen

theorem bind_of_ok {x : Noted α} {a : α} (h : x.result = .ok a) (f : α → Noted β) :
    x >>= f = ⟨x.overwrites ++ (f a).overwrites, (f a).result⟩ := by
  simp only [bind, andThen, h]

theorem bind_of_error {x : Noted α} {e : FilterError} (h : x.result = .error e)
    (f : α → Noted β) : x >>= f = ⟨x.overwrites, .error e⟩ := by
  simp only [bind, andThen, h]

theorem bind_eq_ok {x : Noted α} {f : α → Noted β} {b : β} (h : (x >>= f).result = .ok b) :
    ∃ a, x.result = .ok a ∧ (f a).result = .ok b := by
  cases hx : x.result with
  | error e => rw [bind_of_error hx] at h; cases h
  | ok a => rw [bind_of_ok hx] at h; exact ⟨a, rfl, h⟩

end Noted

end DocStore
