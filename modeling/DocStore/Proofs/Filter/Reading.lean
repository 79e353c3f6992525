import DocStore.Proofs.Filter.Lexeme

/-!
# Reading filter strings

A `Reading` is what a filter string says: tests, negations, and groups, which are parts with a
keyword between each two of them. Which keyword binds tighter is left open. `Reading.ofText?` reads
a string with a machine that takes one lexeme at a step and keeps the groups that are still open on
a stack; the keyword `NOT` is a negation where a part is due and joins two parts elsewhere.
`ofText?_joined?` says that the string of legible statements is read as these statements.
-/

namespace DocStore.Filter

inductive Reading where
  | test (test : Test)
  | not (part : Reading)
  /-- Parts, and the keywords between them. -/
  | group (keywords : List Connective) (parts : List Reading)

namespace Reading

/-- The group whose parts are joined by one connective. -/
def joined (connective : Connective) (parts : List Reading) : Reading :=
  .group (List.replicate (parts.length - 1) connective) parts

/-- A part under a number of negations. -/
def negated : Nat → Reading → Reading
  | 0, r => r
  | n + 1, r => .not (negated n r)

/-- A group that is still open: what was read of it, and the negations before its next part. -/
structure Frame where
  keywords : List Connective
  parts : List Reading
  negations : Nat

/-- What may come next. The groups around the innermost one are kept, the innermost first. -/
inductive State where
  | part (frame : Frame) (outer : List Frame)
  | next (keywords : List Connective) (parts : List Reading) (outer : List Frame)

namespace State

def fresh : List Frame → State := .part ⟨[], [], 0⟩

def complete (frame : Frame) (outer : List Frame) (r : Reading) : State :=
  .next frame.keywords (frame.parts ++ [negated frame.negations r]) outer

def step : State → Lexeme → Option State
  | .part frame outer, .keyword .not =>
    some (.part { frame with negations := frame.negations + 1 } outer)
  | .part frame outer, .test t => some (complete frame outer (.test t))
  | .part frame outer, .opening => some (fresh (frame :: outer))
  | .next keywords parts outer, .keyword k => some (.part ⟨keywords ++ [k], parts, 0⟩ outer)
  | .next keywords parts (frame :: outer), .closing =>
    some (complete frame outer (.group keywords parts))
  | _, _ => none

def run : State → List Lexeme → Option State
  | state, [] => some state
  | state, l :: rest => (step state l).bind (run · rest)

end State

def ofLexemes? (lexemes : List Lexeme) : Option Reading :=
  match State.run (.fresh []) lexemes with
  | some (.next keywords parts []) => some (.group keywords parts)
  | _ => none

def ofText? (s : String) : Option Reading := (Lexeme.scan .between s.toList).bind ofLexemes?

end Reading

/-! ## Statements are read back -/

mutual

def Statement.reading : Statement → Reading
  | .holds false attr literal => .test (.equals attr literal)
  | .holds true attr literal => .not (.test (.equals attr literal))
  | .atLeast attr bound => .test (.atLeast attr bound)
  | .atMost attr bound => .test (.atMost attr bound)
  | .group connective members => .joined connective (Statement.readings members)

def Statement.readings : List Statement → List Reading
  | [] => []
  | s :: rest => s.reading :: Statement.readings rest

end

theorem Statement.readings_eq_map (members : List Statement) :
    Statement.readings members = members.map Statement.reading := by
  induction members with
  | nil => rfl
  | cons s rest ih => simp only [Statement.readings, List.map_cons, ih]

namespace Reading

open State

theorem run_append (state : State) (a b : List Lexeme) :
    run state (a ++ b) = (run state a).bind (run · b) := by
  induction a generalizing state with
  | nil => rfl
  | cons l a ih =>
    simp only [List.cons_append, run]
    cases step state l with
    | none => rfl
    | some next => exact ih next

/-- The machine takes the parts of a list one after the other, with the keyword between them. -/
def Takes (lexemes : List Lexeme) (r : Reading) : Prop :=
  ∀ (keywords : List Connective) (parts : List Reading) (outer : List Frame),
    run (.part ⟨keywords, parts, 0⟩ outer) lexemes = some (.next keywords (parts ++ [r]) outer)

theorem Takes.test (t : Test) : Takes [.test t] (.test t) := fun _ _ _ => rfl

theorem Takes.not_test (t : Test) : Takes [.keyword .not, .test t] (.not (.test t)) :=
  fun _ _ _ => rfl

mutual

theorem takes_lexemes : (s : Statement) → s.Legible → Takes s.lexemes s.reading
  | .holds false attr literal, _ => .test _
  | .holds true attr literal, _ => .not_test _
  | .atLeast attr bound, _ => .test _
  | .atMost attr bound, _ => .test _
  | .group connective members, ⟨hne, hm⟩ => by
    intro keywords parts outer
    have h := run_lexemesJoined connective members hne hm [] [] (⟨keywords, parts, 0⟩ :: outer)
    simp only [Statement.lexemes, Statement.reading, List.cons_append, run, step, fresh,
      Option.bind_some]
    rw [run_append, h]
    simp [run, step, complete, negated, joined, Statement.readings_eq_map]

theorem run_lexemesJoined (connective : Connective) : (members : List Statement) →
    members ≠ [] → Statement.AllLegible members → (keywords : List Connective) →
    (parts : List Reading) → (outer : List Frame) →
    run (.part ⟨keywords, parts, 0⟩ outer) (Statement.lexemesJoined connective members) =
      some (.next (keywords ++ List.replicate (members.length - 1) connective)
        (parts ++ members.map Statement.reading) outer)
  | [], hne, _, _, _, _ => absurd rfl hne
  | [s], _, ⟨hs, _⟩, keywords, parts, outer => by
    simpa [Statement.lexemesJoined] using takes_lexemes s hs keywords parts outer
  | s :: t :: members, _, ⟨hs, hm⟩, keywords, parts, outer => by
    have ht := run_lexemesJoined connective (t :: members) (by simp) hm
      (keywords ++ [connective]) (parts ++ [s.reading]) outer
    simp only [Statement.lexemesJoined]
    rw [run_append, takes_lexemes s hs]
    simp only [Option.bind_some, run, step, ht]
    simp [List.replicate_succ]

end

/-- A filter string is read as the statements that it was written from. -/
theorem ofText?_joined? {connective : Connective} {statements : List Statement} {s : String}
    (h : Statement.joined? connective statements = some s)
    (hl : Statement.AllLegible statements) :
    ofText? s = some (joined connective (statements.map Statement.reading)) := by
  unfold Statement.joined? at h
  split at h
  · cases h
  · rename_i hne
    simp only [List.isEmpty_iff] at hne
    simp only [Option.some.injEq] at h
    subst h
    have hscan := Statement.scan_writeJoined connective statements hne hl []
    have hrun := run_lexemesJoined connective statements hne hl [] [] []
    simp only [List.append_nil, List.nil_append] at hscan hrun
    simp [ofText?, hscan, Lexeme.scan, ofLexemes?, fresh, hrun, joined]

end Reading

end DocStore.Filter
