import DocStore.Proofs.Filter.Outline

/-!
# The marks in filter strings

The structure of a filter string is the sequence of its marks: parentheses, keywords and tests.
`scan` finds them in any text; a backslash quotes the character after it, and what is quoted makes
no mark. `Level` texts change no depth of parentheses. `Statement.Marked` says that the text of a
statement has the marks of its reading and is level, whatever its attributes and literals hold. It
follows from the tests in the statement (`marked_of_tests`), and a test is marked if its attribute
makes no mark (`marked_holds`, `marked_atLeast`, `marked_atMost`).
-/

namespace DocStore.Filter

inductive Mark where
  | opening
  | closing
  | keyword (connective : Connective)
  | value
  | range
  deriving DecidableEq

namespace Mark

def isTest : Mark → Bool
  | value | range => true
  | _ => false

/-- What a scan stands in. -/
inductive Place where
  /-- Outside of values, with the characters since the last blank or mark, the last first. A quoted
  character counts as a backslash. -/
  | outside (word : List Char)
  | literal
  | range

/-- What a character outside of values makes, and where it leads. -/
def next (word : List Char) (c : Char) : Option Mark × Place :=
  if c = '(' then
    if word.head? = some ':' then (some .value, .literal) else (some .opening, .outside [])
  else if c = ')' then (some .closing, .outside [])
  else if c = '[' ∧ word.head? = some ':' then (some .range, .range)
  else if c = ' ' then ((Lexeme.keyword? word.reverse).map .keyword, .outside [])
  else (none, .outside (c :: word))

/-- The marks in a text; none if a value or a quote is open at its end. -/
def scan : Place → List Char → Option (List Mark)
  | .outside _, [] => some []
  | .outside _, ['\\'] => none
  | .outside word, '\\' :: _ :: rest => scan (.outside ('\\' :: word)) rest
  | .outside word, c :: rest =>
    match next word c with
    | (some mark, place) => (scan place rest).map (mark :: ·)
    | (none, place) => scan place rest
  | .literal, '\\' :: _ :: rest => scan .literal rest
  | .literal, c :: rest => scan (if c = ')' then .outside [] else .literal) rest
  | .range, c :: rest => scan (if c = ']' then .outside [] else .range) rest
  | _, [] => none

def ofText? (s : String) : Option (List Mark) := scan (.outside []) s.toList

end Mark

/-- The attribute makes no mark: a scan of it alone finds nothing and leaves no quote open. -/
def IsInert (attr : String) : Prop := Mark.ofText? attr = some []

instance (attr : String) : Decidable (IsInert attr) := inferInstanceAs (Decidable (_ = _))

/-! ## Depth -/

/-- The depth of parentheses after a text, if they close what is open and no quote is left open. -/
def depth? : Nat → List Char → Option Nat
  | d, [] => some d
  | _, ['\\'] => none
  | d, '\\' :: _ :: rest => depth? d rest
  | d, '(' :: rest => depth? (d + 1) rest
  | 0, ')' :: _ => none
  | d + 1, ')' :: rest => depth? d rest
  | d, _ :: rest => depth? d rest

/-- The parentheses are balanced, those that are quoted apart. -/
def Balanced (s : String) : Prop := depth? 0 s.toList = some 0

instance (s : String) : Decidable (Balanced s) := inferInstanceAs (Decidable (_ = _))

/-- The text changes no depth, whatever follows it. -/
def Level (s : List Char) : Prop := ∀ d rest, depth? d (s ++ rest) = depth? d rest

/-! ## Texts without marks -/

def isParen (c : Char) : Bool := c == '(' || c == ')'

theorem ne_of_not_isParen {c : Char} (h : isParen c = false) : c ≠ '(' ∧ c ≠ ')' := by
  simpa [isParen] using h

namespace Mark

theorem scan_of_next {word : List Char} {c : Char} {place : Place} (hc : c ≠ '\\')
    (h : next word c = (none, place)) (text : List Char) :
    scan (.outside word) (c :: text) = scan place text := by
  rw [scan, h]
  · exact fun h _ => hc h
  · exact fun _ _ h => absurd h hc

/-- A character that makes no mark is no parenthesis and leads to no value. -/
theorem next_eq_none {word : List Char} {c : Char} {place : Place}
    (h : next word c = (none, place)) :
    isParen c = false ∧ ∃ word', place = .outside word' := by
  unfold next at h
  split at h
  · split at h <;> cases h
  · rename_i hopening
    split at h
    · cases h
    · rename_i hclosing
      refine ⟨by simp [isParen, hopening, hclosing], ?_⟩
      split at h
      · cases h
      · split at h <;> exact ⟨_, (Prod.mk.inj h).2.symm⟩

/-- A scan passes a text without marks, in which there are no parentheses, and is still outside of
values. -/
theorem scan_inert {place : Place} {word text : List Char} (hplace : place = .outside word)
    (h : scan place text = some []) : isFreeOf isParen text = true ∧
      ∃ word', ∀ rest, scan place (text ++ rest) = scan (.outside word') rest := by
  fun_induction scan place text generalizing word with
  | case1 => exact ⟨rfl, _, fun _ => rfl⟩
  | case2 => cases h
  | case3 word d text ih => exact ih rfl h
  | case4 word c text _ _ mark place _ ih =>
    obtain ⟨marks, _, hnil⟩ := Option.map_eq_some_iff.mp h
    cases hnil
  | case5 word c text hone hmore place hnext ih =>
    have hc : c ≠ '\\' := by
      rintro rfl
      cases text with
      | nil => exact hone rfl rfl
      | cons d text => exact hmore d text rfl rfl
    obtain ⟨hparen, word', rfl⟩ := next_eq_none hnext
    obtain ⟨hfree, word'', hrest⟩ := ih rfl h
    refine ⟨by rw [isFreeOf_cons hc hparen, hfree], word'', fun rest => ?_⟩
    rw [List.cons_append, scan_of_next hc hnext, hrest]
  | case6 | case7 | case8 => cases hplace
  | case9 => cases h

theorem scan_literal_cons {c : Char} (hc : c ≠ '\\') (text : List Char) :
    scan .literal (c :: text) = scan (if c = ')' then .outside [] else .literal) text := by
  rw [scan]
  exact fun _ _ h => absurd h hc

theorem scan_literal {literal : List Char} (h : isFreeOf isParen literal = true)
    (rest : List Char) : scan .literal (literal ++ ')' :: rest) = scan (.outside []) rest := by
  have hend : scan .literal (')' :: rest) = scan (.outside []) rest :=
    scan_literal_cons (by decide) rest
  fun_induction isFreeOf isParen literal with
  | case1 => exact hend
  | case2 c =>
    simp only [Bool.and_eq_true, bne_iff_ne, Bool.not_eq_true'] at h
    rw [List.singleton_append, scan_literal_cons h.1, if_neg (ne_of_not_isParen h.2).2, hend]
  | case3 d literal ih => exact ih h
  | case4 c d literal hc ih =>
    simp only [Bool.and_eq_true, Bool.not_eq_true'] at h
    rw [List.cons_append, scan_literal_cons hc, if_neg (ne_of_not_isParen h.1).2]
    exact ih h.2

theorem scan_range {inside : List Char} (h : ∀ c ∈ inside, c ≠ ']') (rest : List Char) :
    scan .range (inside ++ ']' :: rest) = scan (.outside []) rest := by
  induction inside with
  | nil => simp [scan]
  | cons c inside ih =>
    obtain ⟨hc, hinside⟩ := List.forall_mem_cons.mp h
    simpa [scan, hc] using ih hinside

end Mark

/-! ## Level texts -/

theorem depth?_cons {c : Char} (hc : c ≠ '\\') (hparen : isParen c = false) (d : Nat)
    (text : List Char) : depth? d (c :: text) = depth? d text := by
  have hne := ne_of_not_isParen hparen
  cases d <;> simp [depth?, hc, hne]

theorem level_of_isFreeOf {s : List Char} (h : isFreeOf isParen s = true) : Level s := by
  intro d rest
  fun_induction isFreeOf isParen s with
  | case1 => rfl
  | case2 c =>
    simp only [Bool.and_eq_true, bne_iff_ne, Bool.not_eq_true'] at h
    exact depth?_cons h.1 h.2 d rest
  | case3 e s ih => simpa [depth?] using ih h
  | case4 c e s hc ih =>
    simp only [Bool.and_eq_true, Bool.not_eq_true'] at h
    rw [List.cons_append, depth?_cons hc h.1]
    exact ih h.2

theorem Level.append {s t : List Char} (hs : Level s) (ht : Level t) : Level (s ++ t) := by
  intro d rest
  rw [List.append_assoc, hs, ht]

theorem Level.parens {s : List Char} (h : Level s) : Level ('(' :: (s ++ [')'])) := by
  intro d rest
  rw [List.cons_append, List.append_assoc, depth?, h]
  rfl

/-! ## Marks of readings -/

namespace Mark

/-- The marks of parts, with a keyword between each two of them. -/
def joined (connective : Connective) : List (List Mark) → List Mark
  | [] => []
  | [marks] => marks
  | marks :: rest => marks ++ .keyword connective :: joined connective rest

end Mark

namespace Reading

mutual

def marks : Reading → List Mark
  | .test (.equals _ _) => [.value]
  | .test (.atLeast _ _) => [.range]
  | .test (.atMost _ _) => [.range]
  | .not r => .keyword .not :: r.marks
  | .group keywords parts => .opening :: marksJoined keywords parts ++ [.closing]

def marksJoined : List Connective → List Reading → List Mark
  | _, [] => []
  | keywords, r :: rest =>
    r.marks ++ (keywords.take 1).map .keyword ++ marksJoined keywords.tail rest

end

theorem marksJoined_replicate (connective : Connective) (parts : List Reading) :
    marksJoined (List.replicate (parts.length - 1) connective) parts =
      Mark.joined connective (parts.map marks) := by
  induction parts with
  | nil => rfl
  | cons r rest ih =>
    cases rest with
    | nil => simp [marksJoined, Mark.joined]
    | cons q rest =>
      simp only [List.length_cons, Nat.add_sub_cancel] at ih ⊢
      rw [marksJoined, List.replicate_succ, List.tail_cons, ih]
      simp [Mark.joined]

theorem marks_joined (connective : Connective) (parts : List Reading) :
    (Reading.joined connective parts).marks =
      .opening :: Mark.joined connective (parts.map marks) ++ [.closing] := by
  rw [joined, marks, marksJoined_replicate]

end Reading

namespace Statement

/-- The text of the statement has the marks of its reading and is level, whatever follows it. -/
structure Marked (s : Statement) : Prop where
  scan : ∀ rest, Mark.scan (.outside []) (s.write ++ rest) =
    (Mark.scan (.outside []) rest).map (s.reading.marks ++ ·)
  level : Level s.write

section

variable {members : List Statement} (h : ∀ s ∈ members, s.Marked)
include h

theorem marks_writeJoined (connective : Connective) (rest : List Char) :
    Mark.scan (.outside []) (writeJoined connective members ++ rest) =
      (Mark.scan (.outside []) rest).map
        (Mark.joined connective (members.map fun s => s.reading.marks) ++ ·) := by
  induction members with
  | nil => simp [writeJoined, Mark.joined]
  | cons s members ih =>
    obtain ⟨hs, hmembers⟩ := List.forall_mem_cons.mp h
    cases members with
    | nil => simpa [writeJoined, Mark.joined] using hs.scan rest
    | cons t members =>
      have hseparator : ∀ text, Mark.scan (.outside []) (separator connective ++ text) =
          (Mark.scan (.outside []) text).map (.keyword connective :: ·) := by
        intro text
        cases connective <;> rfl
      rw [writeJoined, List.append_assoc, List.append_assoc, hs.scan, hseparator, ih hmembers]
      · simp [Mark.joined, Function.comp_def]
      · exact List.cons_ne_nil t members

theorem level_writeJoined (connective : Connective) : Level (writeJoined connective members) := by
  induction members with
  | nil => exact fun _ _ => rfl
  | cons s members ih =>
    obtain ⟨hs, hmembers⟩ := List.forall_mem_cons.mp h
    cases members with
    | nil => exact hs.level
    | cons t members =>
      have hseparator : Level (separator connective) := by
        cases connective <;> exact level_of_isFreeOf (by decide)
      exact (hs.level.append hseparator).append (ih hmembers)

theorem marked_group (connective : Connective) : (group connective members).Marked where
  scan rest := by
    have hopening : ∀ text, Mark.scan (.outside []) ('(' :: text) =
        (Mark.scan (.outside []) text).map (.opening :: ·) := fun _ => rfl
    have hclosing : Mark.scan (.outside []) (')' :: rest) =
        (Mark.scan (.outside []) rest).map (.closing :: ·) := rfl
    rw [write, List.append_assoc, List.cons_append, hopening, List.singleton_append,
      marks_writeJoined h, hclosing, reading, Reading.marks_joined, readings_eq_map, List.map_map]
    simp [Function.comp_def]
  level := (level_writeJoined h connective).parens

end

mutual

def tests : Statement → List Statement
  | .group _ members => testsOf members
  | s => [s]

def testsOf : List Statement → List Statement
  | [] => []
  | s :: rest => s.tests ++ testsOf rest

end

mutual

/-- A statement is marked if the tests in it are. -/
theorem marked_of_tests : (s : Statement) → (∀ t ∈ s.tests, t.Marked) → s.Marked
  | .holds _ _ _, h | .atLeast _ _, h | .atMost _ _, h => h _ (List.mem_singleton_self _)
  | .group connective members, h => marked_group (marked_of_testsOf members h) connective

theorem marked_of_testsOf : (members : List Statement) → (∀ t ∈ testsOf members, t.Marked) →
    ∀ s ∈ members, s.Marked
  | [], _ => fun _ h => nomatch h
  | s :: rest, h => by
    rw [testsOf, List.forall_mem_append] at h
    exact List.forall_mem_cons.mpr ⟨marked_of_tests s h.1, marked_of_testsOf rest h.2⟩

end

mutual

/-- The marks of tests in a statement are those of its tests. -/
theorem filter_marks : (s : Statement) → s.reading.marks.filter Mark.isTest =
    s.tests.flatMap fun t => t.reading.marks.filter Mark.isTest
  | .holds _ _ _ | .atLeast _ _ | .atMost _ _ => by simp [tests]
  | .group connective members => by
    rw [reading, Reading.marks_joined, readings_eq_map, List.map_map, tests, ← filter_marksOf
      connective members]
    simp [Mark.isTest, Function.comp_def]

theorem filter_marksOf (connective : Connective) : (members : List Statement) →
    (Mark.joined connective (members.map fun s => s.reading.marks)).filter Mark.isTest =
      (testsOf members).flatMap fun t => t.reading.marks.filter Mark.isTest
  | [] => rfl
  | [s] => by
    rw [List.map_singleton, Mark.joined, filter_marks s, testsOf, testsOf, List.append_nil]
  | s :: t :: rest => by
    rw [testsOf, List.flatMap_append, ← filter_marks s, ← filter_marksOf connective (t :: rest)]
    simp [Mark.joined, Mark.isTest]

end

end Statement

/-! ## Marked tests -/

section

variable {attr : String} (h : IsInert attr)
include h

theorem level_of_isInert : Level attr.toList := level_of_isFreeOf (Mark.scan_inert rfl h).1

theorem scan_attribute_value (text : List Char) :
    Mark.scan (.outside []) (attr.toList ++ ':' :: '(' :: text) =
      (Mark.scan .literal text).map (.value :: ·) := by
  obtain ⟨_, word, hrest⟩ := Mark.scan_inert rfl h
  rw [hrest, Mark.scan_of_next (by decide) rfl]
  rfl

theorem scan_attribute_range {inside : List Char} (hinside : ∀ c ∈ inside, c ≠ ']')
    (rest : List Char) :
    Mark.scan (.outside []) (attr.toList ++ ':' :: '[' :: (inside ++ ']' :: rest)) =
      (Mark.scan (.outside []) rest).map (.range :: ·) := by
  obtain ⟨_, word, hrest⟩ := Mark.scan_inert rfl h
  rw [hrest, Mark.scan_of_next (by decide) rfl, ← Mark.scan_range hinside]
  rfl

theorem marked_holds (negated : Bool) {literal : String}
    (hliteral : isFreeOf isParen literal.toList = true) :
    (Statement.holds negated attr literal).Marked where
  scan rest := by
    have hvalue : Mark.scan (.outside [])
        (attr.toList ++ ':' :: '(' :: (literal.toList ++ ')' :: rest)) =
          (Mark.scan (.outside []) rest).map (.value :: ·) := by
      rw [scan_attribute_value h, Mark.scan_literal hliteral]
    have hnot : ∀ text, Mark.scan (.outside []) ("NOT ".toList ++ text) =
        (Mark.scan (.outside []) text).map (.keyword .not :: ·) := fun _ => rfl
    cases negated with
    | false => simpa [Statement.write, Statement.reading, Reading.marks] using hvalue
    | true =>
      have hnegated := hnot (attr.toList ++ ':' :: '(' :: (literal.toList ++ ')' :: rest))
      rw [hvalue, Option.map_map] at hnegated
      simpa [Statement.write, Statement.reading, Reading.marks, Function.comp_def] using hnegated
  level := by
    have hnot : Level (if negated then "NOT ".toList else []) := by
      cases negated <;> exact level_of_isFreeOf (by decide)
    have hcolon : Level [':'] := level_of_isFreeOf (by decide)
    have hvalue := hcolon.append (level_of_isFreeOf hliteral).parens
    simpa [Statement.write] using (hnot.append (level_of_isInert h)).append hvalue

end

/-- The characters of ranges: those of numbers, blanks, `TO` and an asterisk. -/
def isRangeChar (c : Char) : Bool := isNumberChar c || " TO*".toList.contains c

theorem isRangeChar_of_numeric {bound : String} (h : Numeric bound.toList) :
    ∀ c ∈ bound.toList, isRangeChar c = true := fun c hc => by rw [isRangeChar, h c hc, Bool.true_or]

section

variable {attr : String} (h : IsInert attr)
include h

theorem marked_range {s : Statement} {inside : List Char}
    (hwrite : s.write = attr.toList ++ ':' :: '[' :: (inside ++ [']']))
    (hmarks : s.reading.marks = [.range])
    (hinside : ∀ c ∈ inside, isRangeChar c = true) : s.Marked where
  scan rest := by
    have hbracket : ∀ c ∈ inside, c ≠ ']' := by
      rintro c hc rfl
      exact absurd (hinside _ hc) (by decide)
    have hrange := scan_attribute_range h hbracket rest
    rw [hwrite, hmarks]
    simpa using hrange
  level := by
    have hfree : isFreeOf isParen inside = true := by
      refine isFreeOf_of_forall fun c hc => ⟨?_, ?_⟩
      · rintro rfl
        exact absurd (hinside _ hc) (by decide)
      · rw [isParen, Bool.or_eq_false_iff, beq_eq_false_iff_ne, beq_eq_false_iff_ne]
        constructor <;> rintro rfl <;> exact absurd (hinside _ hc) (by decide)
    have hopening : Level [':', '['] := level_of_isFreeOf (by decide)
    have hclosing : Level [']'] := level_of_isFreeOf (by decide)
    have hbrackets := hopening.append ((level_of_isFreeOf hfree).append hclosing)
    rw [hwrite]
    simpa using (level_of_isInert h).append hbrackets

theorem marked_atLeast {bound : String} (hbound : Numeric bound.toList) :
    (Statement.atLeast attr bound).Marked := by
  have hwrite : (Statement.atLeast attr bound).write =
      attr.toList ++ ':' :: '[' :: ((bound.toList ++ " TO *".toList) ++ [']']) := by
    simp [Statement.write]
  exact marked_range h hwrite rfl (List.forall_mem_append.mpr
    ⟨isRangeChar_of_numeric hbound, List.all_eq_true.mp (by decide)⟩)

theorem marked_atMost {bound : String} (hbound : Numeric bound.toList) :
    (Statement.atMost attr bound).Marked := by
  have hwrite : (Statement.atMost attr bound).write =
      attr.toList ++ ':' :: '[' :: (("* TO ".toList ++ bound.toList) ++ [']']) := by
    simp [Statement.write]
  exact marked_range h hwrite rfl (List.forall_mem_append.mpr
    ⟨List.all_eq_true.mp (by decide), isRangeChar_of_numeric hbound⟩)

end

end DocStore.Filter
