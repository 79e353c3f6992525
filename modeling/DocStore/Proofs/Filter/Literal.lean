import DocStore.Filter.Bound
import DocStore.Filter.Escape

/-!
# Literals and bounds inside filter strings

`isFreeOf p s`: a reader that takes a backslash together with the character after it finds no
character with `p` in `s` and no backslash at its end. Escaped literals are free of reserved
characters (`isFreeOf_escape`), and `unescape` gives the literal back (`unescape_escape`). Numbers
are written with number characters alone (`numeric_numberText`), so they are free of all others and
are their own unescaped form. `isClosed` is the case of the closing parenthesis.
-/

namespace DocStore.Filter

/-- Drops every quoting backslash. -/
def unescape : List Char → List Char
  | [] => []
  | [c] => [c]
  | c :: d :: rest => if c = '\\' then d :: unescape rest else c :: unescape (d :: rest)

/-- No closing parenthesis and no final backslash is left unquoted. -/
def isClosed : List Char → Bool
  | [] => true
  | [c] => c != '\\' && c != ')'
  | c :: d :: rest => if c = '\\' then isClosed rest else c != ')' && isClosed (d :: rest)

/-- No character with the property and no final backslash is left unquoted. -/
def isFreeOf (p : Char → Bool) : List Char → Bool
  | [] => true
  | [c] => c != '\\' && !p c
  | c :: d :: rest => if c = '\\' then isFreeOf p rest else !p c && isFreeOf p (d :: rest)

theorem isClosed_eq (s : List Char) : isClosed s = isFreeOf (· == ')') s := by
  fun_induction isClosed s with
  | case1 => rfl
  | case2 c => rfl
  | case3 d rest ih => rw [ih]; rfl
  | case4 c d rest hc ih => rw [isFreeOf, if_neg hc, ih]; rfl

theorem isFreeOf_cons {p : Char → Bool} {c : Char} {s : List Char} (h : c ≠ '\\')
    (h' : p c = false) : isFreeOf p (c :: s) = isFreeOf p s := by
  cases s <;> simp [isFreeOf, h, h']

theorem isFreeOf_of_forall {p : Char → Bool} {s : List Char}
    (h : ∀ c ∈ s, c ≠ '\\' ∧ p c = false) : isFreeOf p s = true := by
  induction s with
  | nil => rfl
  | cons c s ih =>
    obtain ⟨hc, hs⟩ := List.forall_mem_cons.mp h
    rw [isFreeOf_cons hc.1 hc.2, ih hs]

/-! ## Escaped literals -/

theorem escapeChars_eq_self {s : List Char} (h : needsEscaping s = false) : escapeChars s = s := by
  fun_induction escapeChars s with
  | case1 => rfl
  | case2 c d rest hp => simp [needsEscaping, hasPair, hp] at h
  | case3 c d rest hp hr => simp [needsEscaping, hr] at h
  | case4 c d rest hp hr ih =>
    rw [ih]
    simp only [needsEscaping, hasPair, List.any_cons, Bool.or_eq_false_iff] at h ⊢
    exact ⟨h.1.2, h.2.2⟩
  | case5 c hr => simp [needsEscaping, hr] at h
  | case6 c hr => rfl

/-- The shortcut for literals without reserved characters makes no difference. -/
theorem toList_escape (s : String) : (escape s).toList = escapeChars s.toList := by
  unfold escape
  split
  · rw [String.toList_ofList]
  · rename_i h
    rw [escapeChars_eq_self (by simpa using h)]

theorem ne_of_not_reserved {c : Char} (h : ¬ isReservedChar c = true) : c ≠ '\\' := by
  rintro rfl
  exact h (by decide)

theorem unescape_cons {c : Char} {s : List Char} (h : c ≠ '\\') :
    unescape (c :: s) = c :: unescape s := by
  cases s <;> simp [unescape, h]

theorem not_reserved_of_isPairChar {c : Char} (h : isPairChar c = true) :
    ¬ isReservedChar c = true := by
  simp only [isPairChar, Bool.or_eq_true, beq_iff_eq] at h
  rcases h with rfl | rfl <;> decide

/-- What is reserved is quoted. -/
theorem isFreeOf_escapeChars {p : Char → Bool} (hp : ∀ c, p c = true → isReservedChar c = true)
    (s : List Char) : isFreeOf p (escapeChars s) = true := by
  have hfree : ∀ c, ¬ isReservedChar c = true → p c = false := fun c hc => by
    simpa using fun h => hc (hp c h)
  fun_induction escapeChars s with
  | case1 => rfl
  | case2 c d rest hpair ih =>
    simp only [Bool.and_eq_true] at hpair
    have hc := not_reserved_of_isPairChar hpair.1
    simp only [isFreeOf, ↓reduceIte]
    rw [isFreeOf_cons (ne_of_not_reserved hc) (hfree c hc), ih]
  | case3 c d rest _ hr ih => simpa only [isFreeOf, ↓reduceIte] using ih
  | case4 c d rest _ hr ih => rw [isFreeOf_cons (ne_of_not_reserved hr) (hfree c hr), ih]
  | case5 c hr => simp [isFreeOf]
  | case6 c hr =>
    rw [isFreeOf_cons (ne_of_not_reserved hr) (hfree c hr)]
    rfl

theorem isFreeOf_escape {p : Char → Bool} (hp : ∀ c, p c = true → isReservedChar c = true)
    (s : String) : isFreeOf p (escape s).toList = true := by
  rw [toList_escape, isFreeOf_escapeChars hp]

theorem isClosed_escape (s : String) : isClosed (escape s).toList = true := by
  rw [isClosed_eq]
  exact isFreeOf_escape (fun c hc => by rw [beq_iff_eq.mp hc]; decide) s

theorem unescape_escapeChars (s : List Char) : unescape (escapeChars s) = s := by
  fun_induction escapeChars s with
  | case1 => rfl
  | case2 c d rest hp ih =>
    simp only [Bool.and_eq_true, beq_iff_eq] at hp
    simp only [unescape, ↓reduceIte]
    rw [unescape_cons (ne_of_not_reserved (not_reserved_of_isPairChar hp.1)), ih, ← hp.2]
  | case3 c d rest hp hr ih => simp only [unescape, ↓reduceIte, ih]
  | case4 c d rest hp hr ih => rw [unescape_cons (ne_of_not_reserved hr), ih]
  | case5 c hr => simp [unescape]
  | case6 c hr => rfl

theorem unescape_escape (s : String) : unescape (escape s).toList = s.toList := by
  rw [toList_escape, unescape_escapeChars]

/-! ## Numbers -/

/-- The characters that numbers are written with. -/
def isNumberChar (c : Char) : Bool := c.isDigit || "-+.eNainf".toList.contains c

def Numeric (s : List Char) : Prop := ∀ c ∈ s, isNumberChar c = true

theorem numeric_of_all {s : List Char} (h : s.all isNumberChar = true) : Numeric s :=
  List.all_eq_true.mp h

theorem Numeric.append {s t : List Char} (hs : Numeric s) (ht : Numeric t) : Numeric (s ++ t) := by
  intro c hc
  rcases List.mem_append.mp hc with h | h
  · exact hs c h
  · exact ht c h

theorem Numeric.cons {c : Char} {s : List Char} (hc : isNumberChar c = true) (hs : Numeric s) :
    Numeric (c :: s) := List.forall_mem_cons.mpr ⟨hc, hs⟩

theorem Numeric.take {s : List Char} (h : Numeric s) (n : Nat) : Numeric (s.take n) :=
  fun c hc => h c (List.mem_of_mem_take hc)

theorem Numeric.drop {s : List Char} (h : Numeric s) (n : Nat) : Numeric (s.drop n) :=
  fun c hc => h c (List.mem_of_mem_drop hc)

theorem numeric_digitChars (n : Nat) : Numeric (Decimal.digitChars n) := by
  intro c hc
  have hd : c.isDigit = true := Nat.isDigit_of_mem_toDigits (by decide) (by decide) hc
  simp [isNumberChar, hd]

theorem numeric_zeros (n : Nat) : Numeric (Decimal.zeros n) := by
  intro c hc
  rw [(List.mem_replicate.mp hc).2]; decide

theorem numeric_positional {digits : List Char} (h : Numeric digits) (exponent : Int) :
    Numeric (Decimal.positional digits exponent) := by
  unfold Decimal.positional
  simp only
  split
  · exact (h.append (numeric_zeros _)).append (numeric_of_all (by decide))
  · split
    · exact (h.take _).append (.cons (by decide) (h.drop _))
    · exact .append (.cons (by decide) (.cons (by decide) (numeric_zeros _))) h

theorem numeric_scientific {digits : List Char} (h : Numeric digits) (width : Nat)
    (exponent : Int) : Numeric (Decimal.scientific width digits exponent) := by
  have he : Numeric (Decimal.exponentText width exponent) := by
    refine .append (.cons ?_ (numeric_zeros _)) (numeric_digitChars _)
    split <;> decide
  refine .append ((h.take 1).append ?_) (.cons (by decide) he)
  split
  · exact fun c hc => by cases hc
  · exact .cons (by decide) (h.drop 1)

theorem numeric_writeDecimal (layout : Decimal.Layout) (d : Decimal) :
    Numeric (layout.writeDecimal d) := by
  unfold Decimal.Layout.writeDecimal
  simp only
  split
  · exact numeric_positional (numeric_digitChars _) _
  · exact numeric_scientific (numeric_digitChars _) _ _

theorem numeric_write (layout : Decimal.Layout) (x : Binary64) : Numeric (layout.write x) := by
  have hbody : Numeric (if x.isInfinite then ['i', 'n', 'f'] else if x.isZero then ['0', '.', '0']
      else layout.writeDecimal (Decimal.shortest layout.tie x)) := by
    split
    · exact numeric_of_all (by decide)
    · split
      · exact numeric_of_all (by decide)
      · exact numeric_writeDecimal _ _
  unfold Decimal.Layout.write
  split
  · exact numeric_of_all (by decide)
  · simp only
    split
    · exact .cons (by decide) hbody
    · exact hbody

theorem numeric_doubleText (x : Binary64) : Numeric (doubleText x).toList := by
  rw [doubleText, String.toList_ofList]
  exact numeric_write _ _

theorem numeric_numberText (n : Number) : Numeric (numberText n).toList := by
  cases n with
  | integer i =>
    rw [numberText, String.toList_ofList, Decimal.integerChars]
    split
    · exact .cons (by decide) (numeric_digitChars _)
    · exact numeric_digitChars _
  | double x => exact numeric_doubleText x

/-- Number characters are none of the marks of a filter string. -/
theorem isNumberChar_ne {c : Char} (h : isNumberChar c = true) :
    c ≠ '\\' ∧ c ≠ ')' ∧ c ≠ ']' ∧ c ≠ ' ' ∧ c ≠ '*' := by
  refine ⟨?_, ?_, ?_, ?_, ?_⟩ <;> rintro rfl <;> exact absurd h (by decide)

theorem Numeric.isFreeOf {p : Char → Bool} (hp : ∀ c, isNumberChar c = true → p c = false)
    {s : List Char} (h : Numeric s) : Filter.isFreeOf p s = true :=
  isFreeOf_of_forall fun c hc => ⟨(isNumberChar_ne (h c hc)).1, hp c (h c hc)⟩

theorem Numeric.isClosed {s : List Char} (h : Numeric s) : isClosed s = true := by
  rw [isClosed_eq]
  exact h.isFreeOf fun c hc => beq_eq_false_iff_ne.mpr (isNumberChar_ne hc).2.1

theorem Numeric.unescape {s : List Char} (h : Numeric s) : unescape s = s := by
  induction s with
  | nil => rfl
  | cons c s ih =>
    obtain ⟨hc, hs⟩ := List.forall_mem_cons.mp h
    rw [unescape_cons (isNumberChar_ne hc).1, ih hs]

end DocStore.Filter
