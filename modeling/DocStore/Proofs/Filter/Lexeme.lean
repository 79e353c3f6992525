import DocStore.Filter.Statement
import DocStore.Proofs.Filter.Literal
import DocStore.Text.Blank

/-!
# Filter strings as lexemes

`scan` cuts a filter string into lexemes: parentheses, keywords and tests of an attribute. A test
keeps the literal or the bound as it is written. `Legible` says what the parts of a statement have
to be for `scan` to find their ends, and `scan_write` says that the text of a legible statement,
whatever follows it, is cut into `Statement.lexemes`.
-/

namespace DocStore.Filter

/-- A test of an attribute, as a filter string words it. -/
inductive Test where
  | equals (attr literal : String)
  | atLeast (attr bound : String)
  | atMost (attr bound : String)
  deriving DecidableEq

inductive Lexeme where
  | opening
  | closing
  | keyword (connective : Connective)
  | test (test : Test)
  deriving DecidableEq

namespace Lexeme

/-- What a scan stands in. The characters read so far are kept, the last first. -/
inductive Place where
  | between
  /-- A keyword or the name of an attribute. -/
  | word (read : List Char)
  /-- The start of a literal or of a range. -/
  | value (attr : String)
  | literal (attr : String) (read : List Char)
  | range (attr : String) (read : List Char)

def keyword? (word : List Char) : Option Connective :=
  [Connective.and, .or, .not].find? fun k => k.keyword.toList == word

def range? (attr : String) (inside : List Char) : Option Test :=
  match inside with
  | '*' :: ' ' :: 'T' :: 'O' :: ' ' :: bound => some (.atMost attr (String.ofList bound))
  | _ =>
    let bound := inside.takeWhile (· != ' ')
    if inside.dropWhile (· != ' ') == " TO *".toList then
      some (.atLeast attr (String.ofList bound))
    else none

def scan : Place → List Char → Option (List Lexeme)
  | .between, [] => some []
  | .between, ' ' :: rest => scan .between rest
  | .between, '(' :: rest => (scan .between rest).map (.opening :: ·)
  | .between, ')' :: rest => (scan .between rest).map (.closing :: ·)
  | .between, c :: rest => scan (.word [c]) rest
  | .word read, ':' :: rest => scan (.value (String.ofList read.reverse)) rest
  | .word read, ' ' :: rest =>
    match keyword? read.reverse with
    | some k => (scan .between rest).map (.keyword k :: ·)
    | none => none
  | .word read, c :: rest => scan (.word (c :: read)) rest
  | .value attr, '(' :: rest => scan (.literal attr []) rest
  | .value attr, '[' :: rest => scan (.range attr []) rest
  | .literal attr read, '\\' :: c :: rest => scan (.literal attr (c :: '\\' :: read)) rest
  | .literal attr read, ')' :: rest =>
    (scan .between rest).map (.test (.equals attr (String.ofList read.reverse)) :: ·)
  | .literal attr read, c :: rest => scan (.literal attr (c :: read)) rest
  | .range attr read, ']' :: rest =>
    match range? attr read.reverse with
    | some t => (scan .between rest).map (.test t :: ·)
    | none => none
  | .range attr read, c :: rest => scan (.range attr (c :: read)) rest
  | _, _ => none

theorem scan_opening (rest : List Char) :
    scan .between ('(' :: rest) = (scan .between rest).map (.opening :: ·) := rfl

theorem scan_closing (rest : List Char) :
    scan .between (')' :: rest) = (scan .between rest).map (.closing :: ·) := rfl

theorem scan_startLiteral (attr : String) (rest : List Char) :
    scan (.value attr) ('(' :: rest) = scan (.literal attr []) rest := rfl

theorem scan_startRange (attr : String) (rest : List Char) :
    scan (.value attr) ('[' :: rest) = scan (.range attr []) rest := rfl

theorem scan_endRange {attr : String} {read : List Char} {t : Test}
    (h : range? attr read.reverse = some t) (rest : List Char) :
    scan (.range attr read) (']' :: rest) = (scan .between rest).map (.test t :: ·) := by
  show (match range? attr read.reverse with
    | some t => (scan .between rest).map (Lexeme.test t :: ·)
    | none => none) = _
  rw [h]

end Lexeme

/-! ## Lexemes of statements -/

namespace Statement

open Lexeme

mutual

def lexemes : Statement → List Lexeme
  | holds negated attr literal =>
    (if negated then [.keyword .not] else []) ++ [.test (.equals attr literal)]
  | atLeast attr bound => [.test (.atLeast attr bound)]
  | atMost attr bound => [.test (.atMost attr bound)]
  | group connective members => .opening :: lexemesJoined connective members ++ [.closing]

def lexemesJoined (connective : Connective) : List Statement → List Lexeme
  | [] => []
  | [s] => s.lexemes
  | s :: rest => s.lexemes ++ .keyword connective :: lexemesJoined connective rest

end

/-- A name of an attribute starts like a word and holds neither a colon nor a space. -/
def IsAttribute (attr : String) : Prop :=
  ∃ c rest, attr.toList = c :: rest ∧ c ≠ '(' ∧ c ≠ ')' ∧ ∀ d ∈ c :: rest, d ≠ ':' ∧ d ≠ ' '

mutual

/-- The ends of the parts of a statement can be found. -/
def Legible : Statement → Prop
  | holds _ attr literal => IsAttribute attr ∧ isClosed literal.toList = true
  | atLeast attr bound => IsAttribute attr ∧ Numeric bound.toList
  | atMost attr bound => IsAttribute attr ∧ Numeric bound.toList
  | group _ members => members ≠ [] ∧ AllLegible members

def AllLegible : List Statement → Prop
  | [] => True
  | s :: rest => s.Legible ∧ AllLegible rest

end

/-! ## Scanning the text of a statement -/

theorem scan_word {word : List Char} (h : ∀ c ∈ word, c ≠ ':' ∧ c ≠ ' ') (read rest : List Char) :
    scan (.word read) (word ++ ':' :: rest) =
      scan (.value (String.ofList (read.reverse ++ word))) rest := by
  induction word generalizing read with
  | nil => simp [scan]
  | cons c word ih =>
    obtain ⟨hc, hw⟩ := List.forall_mem_cons.mp h
    have := ih hw (c :: read)
    simpa [scan, hc.1, hc.2] using this

theorem scan_attribute {attr : String} (h : IsAttribute attr) (rest : List Char) :
    scan .between (attr.toList ++ ':' :: rest) = scan (.value attr) rest := by
  obtain ⟨c, word, ha, h1, h2, hw⟩ := h
  obtain ⟨hc, hw⟩ := List.forall_mem_cons.mp hw
  have hs : String.ofList (c :: word) = attr := by rw [← ha, String.ofList_toList]
  have hstart (t : List Char) : scan .between (c :: t) = scan (.word [c]) t := by
    rw [scan]
    · exact hc.2
    · exact h1
    · exact h2
  rw [ha, List.cons_append, hstart, scan_word hw, List.reverse_singleton, List.singleton_append, hs]

theorem scan_literal {literal : List Char} (h : isClosed literal = true) (attr : String)
    (read rest : List Char) :
    scan (.literal attr read) (literal ++ ')' :: rest) =
      (scan .between rest).map
        (.test (.equals attr (String.ofList (read.reverse ++ literal))) :: ·) := by
  fun_induction isClosed literal generalizing read with
  | case1 => simp [scan]
  | case2 c =>
    simp only [Bool.and_eq_true, bne_iff_ne] at h
    simp [scan, h.1, h.2]
  | case3 d literal ih =>
    have := ih h (d :: '\\' :: read)
    simpa [scan] using this
  | case4 c d literal hc ih =>
    simp only [Bool.and_eq_true, bne_iff_ne] at h
    have := ih h.2 (c :: read)
    simpa [scan, hc, h.1] using this

theorem scan_range {inside : List Char} (h : ∀ c ∈ inside, c ≠ ']') (attr : String)
    (read rest : List Char) :
    scan (.range attr read) (inside ++ ']' :: rest) =
      scan (.range attr (inside.reverse ++ read)) (']' :: rest) := by
  induction inside generalizing read with
  | nil => rfl
  | cons c inside ih =>
    obtain ⟨hc, hi⟩ := List.forall_mem_cons.mp h
    have := ih hi (c :: read)
    simpa [scan, hc] using this

theorem range?_atLeast {bound : String} (h : Numeric bound.toList) (attr : String) :
    range? attr (bound.toList ++ " TO *".toList) = some (.atLeast attr bound) := by
  have hsp : ∀ c ∈ bound.toList, (c != ' ') = true := by
    intro c hc
    simpa using (isNumberChar_ne (h c hc)).2.2.2.1
  have hsplit : ∀ t : List Char, (bound.toList ++ ' ' :: t).takeWhile (· != ' ') = bound.toList ∧
      (bound.toList ++ ' ' :: t).dropWhile (· != ' ') = ' ' :: t := by
    intro t
    rw [List.takeWhile_append_of_pos hsp, List.dropWhile_append_of_pos hsp]
    simp
  have hr : (bound.toList ++ " TO *".toList).takeWhile (· != ' ') = bound.toList ∧
      (bound.toList ++ " TO *".toList).dropWhile (· != ' ') = " TO *".toList := hsplit _
  unfold range?
  split
  · rename_i heq
    exfalso
    cases hb : bound.toList with
    | nil => rw [hb] at heq; simp at heq
    | cons c cs =>
      rw [hb, List.cons_append, List.cons.injEq] at heq
      exact (isNumberChar_ne (h c (by simp [hb]))).2.2.2.2 heq.1
  · simp only [hr.1, hr.2, beq_self_eq_true, ↓reduceIte, String.ofList_toList]

theorem scan_separator (connective : Connective) (rest : List Char) :
    scan .between (separator connective ++ rest) =
      (scan .between rest).map (.keyword connective :: ·) := by
  cases connective <;> rfl

theorem scan_not (rest : List Char) :
    scan .between ("NOT ".toList ++ rest) = (scan .between rest).map (.keyword .not :: ·) := rfl

theorem scan_holds {attr literal : String} (ha : IsAttribute attr)
    (hl : isClosed literal.toList = true) (rest : List Char) :
    scan .between (attr.toList ++ ':' :: '(' :: literal.toList ++ ')' :: rest) =
      (scan .between rest).map (.test (.equals attr literal) :: ·) := by
  rw [List.append_assoc, List.cons_append, List.cons_append, scan_attribute ha, scan_startLiteral,
    scan_literal hl, List.reverse_nil, List.nil_append, String.ofList_toList]

theorem scan_atLeast {attr bound : String} (ha : IsAttribute attr) (hb : Numeric bound.toList)
    (rest : List Char) :
    scan .between (attr.toList ++ ':' :: '[' :: bound.toList ++ " TO *]".toList ++ rest) =
      (scan .between rest).map (.test (.atLeast attr bound) :: ·) := by
  have hin : ∀ c ∈ bound.toList ++ " TO *".toList, c ≠ ']' := by
    intro c hc
    rcases List.mem_append.mp hc with hc | hc
    · exact (isNumberChar_ne (hb c hc)).2.2.1
    · rintro rfl; revert hc; decide
  have htext : attr.toList ++ ':' :: '[' :: bound.toList ++ " TO *]".toList ++ rest =
      attr.toList ++ ':' :: '[' :: ((bound.toList ++ " TO *".toList) ++ ']' :: rest) := by
    simp
  rw [htext, scan_attribute ha, scan_startRange, scan_range hin, List.append_nil]
  exact scan_endRange (by rw [List.reverse_reverse, range?_atLeast hb]) rest

theorem scan_atMost {attr bound : String} (ha : IsAttribute attr) (hb : Numeric bound.toList)
    (rest : List Char) :
    scan .between (attr.toList ++ ":[* TO ".toList ++ bound.toList ++ ']' :: rest) =
      (scan .between rest).map (.test (.atMost attr bound) :: ·) := by
  have hin : ∀ c ∈ "* TO ".toList ++ bound.toList, c ≠ ']' := by
    intro c hc
    rcases List.mem_append.mp hc with hc | hc
    · rintro rfl; revert hc; decide
    · exact (isNumberChar_ne (hb c hc)).2.2.1
  have hr : range? attr ("* TO ".toList ++ bound.toList) = some (.atMost attr bound) := by
    simp [range?]
  have htext : attr.toList ++ ":[* TO ".toList ++ bound.toList ++ ']' :: rest =
      attr.toList ++ ':' :: '[' :: (("* TO ".toList ++ bound.toList) ++ ']' :: rest) := by
    simp
  rw [htext, scan_attribute ha, scan_startRange, scan_range hin, List.append_nil]
  exact scan_endRange (by rw [List.reverse_reverse, hr]) rest

mutual

/-- The text of a legible statement is cut into its lexemes, whatever follows it. -/
theorem scan_write : (s : Statement) → s.Legible → (rest : List Char) →
    scan .between (s.write ++ rest) = (scan .between rest).map (s.lexemes ++ ·)
  | holds negated attr literal, ⟨ha, hl⟩, rest => by
    cases negated with
    | false => simpa [write, lexemes] using scan_holds ha hl rest
    | true =>
      have := scan_not (attr.toList ++ ':' :: '(' :: literal.toList ++ ')' :: rest)
      rw [scan_holds ha hl, Option.map_map] at this
      simpa [write, lexemes, Function.comp_def] using this
  | atLeast attr bound, ⟨ha, hb⟩, rest => by
    simpa [write, lexemes] using scan_atLeast ha hb rest
  | atMost attr bound, ⟨ha, hb⟩, rest => by
    simpa [write, lexemes] using scan_atMost ha hb rest
  | group connective members, ⟨hne, hm⟩, rest => by
    have := scan_writeJoined connective members hne hm (')' :: rest)
    simp [write, lexemes, scan_opening, scan_closing, this, Function.comp_def]

theorem scan_writeJoined (connective : Connective) : (members : List Statement) → members ≠ [] →
    AllLegible members → (rest : List Char) →
    scan .between (writeJoined connective members ++ rest) =
      (scan .between rest).map (lexemesJoined connective members ++ ·)
  | [], hne, _, _ => absurd rfl hne
  | [s], _, ⟨hs, _⟩, rest => by simpa only [writeJoined, lexemesJoined] using scan_write s hs rest
  | s :: t :: members, _, ⟨hs, hm⟩, rest => by
    have ht := scan_writeJoined connective (t :: members) (by simp) hm rest
    simp only [writeJoined, lexemesJoined, List.append_assoc]
    rw [scan_write s hs, scan_separator, ht]
    simp [Function.comp_def]

end

end Statement

end DocStore.Filter
