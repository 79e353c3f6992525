import DocStore.Decimal.Layout
import DocStore.Proofs.Binary64.Order
import DocStore.Proofs.Json.Numbers
import DocStore.Proofs.Json.Scan

/-!
# Texts of numbers are literals

`IsLiteral` is the form of a number literal without its sign: digits, of which only a zero alone
starts with a zero, then maybe a point with digits and maybe an exponent. Natural numbers are
written so (`isLiteral_digitChars`), and in every layout so are decimals other than zero
(`isLiteral_writeDecimal`) and finite doubles (`Layout.exists_literal`): the shortest decimal of a
double is zero only if the double is (`shortest_ne_zero`). So the text of a number that a JSON value
can have is one token (`Token.scan_number`).
-/

namespace DocStore.Decimal

/-! ## Digits -/

/-- One digit or more. -/
structure Digits (ds : List Char) : Prop where
  ne_nil : ds ≠ []
  isDigit : ∀ c ∈ ds, c.isDigit = true

theorem isDigit_of_mem_zeros {n : Nat} {c : Char} (h : c ∈ zeros n) : c.isDigit = true := by
  rw [List.eq_of_mem_replicate h]
  rfl

theorem Digits.append {ds es : List Char} (h : Digits ds) (hes : ∀ c ∈ es, c.isDigit = true) :
    Digits (ds ++ es) where
  ne_nil := List.append_ne_nil_of_left_ne_nil h.ne_nil es
  isDigit c hc := (List.mem_append.mp hc).elim (h.isDigit c) (hes c)

theorem Digits.zeros_append {ds : List Char} (h : Digits ds) (n : Nat) :
    Digits (zeros n ++ ds) where
  ne_nil := List.append_ne_nil_of_right_ne_nil _ h.ne_nil
  isDigit c hc := (List.mem_append.mp hc).elim isDigit_of_mem_zeros (h.isDigit c)

theorem Digits.take {ds : List Char} (h : Digits ds) {n : Nat} (hn : 0 < n) :
    Digits (ds.take n) where
  ne_nil hnil := (List.take_eq_nil_iff.mp hnil).elim (by omega) h.ne_nil
  isDigit c hc := h.isDigit c (List.mem_of_mem_take hc)

theorem Digits.drop {ds : List Char} (h : Digits ds) {n : Nat} (hn : n < ds.length) :
    Digits (ds.drop n) where
  ne_nil hnil := absurd (List.drop_eq_nil_iff.mp hnil) (by omega)
  isDigit c hc := h.isDigit c (List.mem_of_mem_drop hc)

theorem digits_digitChars (n : Nat) : Digits (digitChars n) where
  ne_nil := Nat.toDigits_ne_nil
  isDigit _ := Token.isDigit_of_mem_digitChars

theorem head?_digitChars {n : Nat} (hn : n ≠ 0) : (digitChars n).head? ≠ some '0' := by
  obtain ⟨c, cs, hcs, hc⟩ := Token.digitChars_head hn
  rw [hcs, List.head?_cons]
  exact fun h => hc (Option.some.inj h)

theorem Digits.head?_append {ds : List Char} (h : Digits ds) (es : List Char) :
    (ds ++ es).head? = ds.head? := by
  obtain ⟨c, cs, rfl⟩ := List.exists_cons_of_ne_nil h.ne_nil
  rfl

/-! ## Literals -/

/-- Digits before the point. -/
structure Whole (ds : List Char) : Prop where
  digits : Digits ds
  leading : ds = ['0'] ∨ ds.head? ≠ some '0'

/-- A point and digits, or nothing. -/
inductive Fraction : List Char → Prop
  | none : Fraction []
  | some {ds : List Char} : Digits ds → Fraction ('.' :: ds)

/-- An exponent with its sign, or nothing. -/
inductive Exponent : List Char → Prop
  | none : Exponent []
  | some {sign : Char} {ds : List Char} : sign = '-' ∨ sign = '+' → Digits ds →
      Exponent ('e' :: sign :: ds)

/-- A number literal without its sign. -/
def IsLiteral (s : List Char) : Prop :=
  ∃ whole fraction exponent, s = whole ++ (fraction ++ exponent) ∧ Whole whole ∧
    Fraction fraction ∧ Exponent exponent

theorem digits_zero : Digits ['0'] where
  ne_nil := List.cons_ne_nil _ _
  isDigit c hc := by
    rw [List.mem_singleton.mp hc]
    rfl

theorem whole_zero : Whole ['0'] := ⟨digits_zero, .inl rfl⟩

theorem isLiteral_digitChars (n : Nat) : IsLiteral (digitChars n) := by
  refine ⟨digitChars n, [], [], by simp, ⟨digits_digitChars n, ?_⟩, .none, .none⟩
  by_cases hn : n = 0
  · left
    rw [hn]
    rfl
  · exact .inr (head?_digitChars hn)

section

variable {ds : List Char} (hds : Digits ds) (hhead : ds.head? ≠ some '0')
include hds hhead

theorem isLiteral_positional (exponent : Int) : IsLiteral (positional ds exponent) := by
  unfold positional
  dsimp only
  split
  · refine ⟨ds ++ zeros exponent.natAbs, ['.', '0'], [], by simp,
      ⟨hds.append fun _ => isDigit_of_mem_zeros, .inr ?_⟩, .some digits_zero, .none⟩
    rwa [hds.head?_append]
  · split
    · have hpos : 0 < (ds.length + exponent).toNat := by omega
      have hlt : (ds.length + exponent).toNat < ds.length := by omega
      refine ⟨_, _, [], by rw [List.append_nil], ⟨hds.take hpos, .inr ?_⟩, .some (hds.drop hlt),
        .none⟩
      rwa [List.head?_take, if_neg (by omega)]
    · refine ⟨['0'], '.' :: (zeros (ds.length + exponent).natAbs ++ ds), [], by simp, whole_zero,
        .some (hds.zeros_append _), .none⟩

theorem isLiteral_scientific (width : Nat) (exponent : Int) :
    IsLiteral (scientific width ds exponent) := by
  have hexponent : Exponent ('e' :: exponentText width exponent) := by
    unfold exponentText
    dsimp only
    refine .some ?_ ((digits_digitChars _).zeros_append _)
    split <;> simp
  have hwhole : Whole (ds.take 1) :=
    ⟨hds.take Nat.one_pos, .inr (by rwa [List.head?_take, if_neg Nat.one_ne_zero])⟩
  refine ⟨_, _, _, List.append_assoc .., hwhole, ?_, hexponent⟩
  split
  · exact .none
  · exact .some (hds.drop (by omega))

end

theorem isLiteral_writeDecimal (layout : Layout) {d : Decimal} (hd : d.digits ≠ 0) :
    IsLiteral (layout.writeDecimal d) := by
  unfold Layout.writeDecimal
  dsimp only
  split
  · exact isLiteral_positional (digits_digitChars _) (head?_digitChars hd) _
  · exact isLiteral_scientific (digits_digitChars _) (head?_digitChars hd) _ _

/-! ## Doubles -/

theorem digits_normalize_ne_zero {d : Decimal} (h : d.digits ≠ 0) : d.normalize.digits ≠ 0 := by
  fun_induction normalize d with
  | case1 d hd ih =>
    refine ih ?_
    dsimp only
    omega
  | case2 d hd => exact h

/-- What `nearestOn` finds rounds back. -/
theorem readsBack_of_nearestOn {tie : Tie} {x : Binary64} {exponent : Int} {d : Decimal}
    (h : nearestOn tie x exponent = some d) : readsBack x d = true := by
  unfold nearestOn at h
  dsimp only at h
  split at h
  · rename_i hlower hupper
    cases h
    split
    · exact hlower
    · exact hupper
  · rename_i hlower _
    cases h
    exact hlower
  · rename_i _ hupper
    cases h
    exact hupper
  · cases h

theorem ne_zero_of_readsBack {x : Binary64} {d : Decimal} (h : readsBack x d = true)
    (hx : x.isZero = false) : d.digits ≠ 0 := by
  intro hd
  have hp := congrArg Binary64.pattern (eq_of_beq h)
  rw [Binary64.ofDecimal, if_pos hd, Binary64.abs, Binary64.pattern_ofPattern _ (by decide),
    Binary64.pattern_ofPattern _ x.pattern_lt] at hp
  rw [Binary64.isZero, ← hp] at hx
  cases hx

theorem magnitude_ne_zero {x : Binary64} (hx : x.isZero = false) : x.magnitude ≠ 0 := by
  have hp : 0 < x.pattern := Nat.pos_of_ne_zero (ne_of_beq_false hx)
  have hlt := Binary64.magnitudeAt_strictMono hp
  rw [Binary64.magnitudeAt_zero] at hlt
  rw [Binary64.magnitude_eq]
  omega

theorem exact_ne_zero {x : Binary64} (hx : x.isZero = false) : (exact x).digits ≠ 0 := by
  rw [exact]
  generalize 1074 = k
  exact Nat.mul_ne_zero (magnitude_ne_zero hx) (Nat.pow_pos (by decide)).ne'

theorem shortest_ne_zero (tie : Tie) {x : Binary64} (hx : x.isZero = false) :
    (shortest tie x).digits ≠ 0 := by
  refine digits_normalize_ne_zero ?_
  cases hfound : (List.range 17).findSome?
      fun n => nearestOn tie x (leadingPlace x - (n + 1 : Nat)) with
  | none => exact exact_ne_zero hx
  | some d =>
    obtain ⟨n, _, hn⟩ := List.exists_of_findSome?_eq_some hfound
    exact ne_zero_of_readsBack (readsBack_of_nearestOn hn) hx

/-- A finite double is written as a literal after its sign. -/
theorem Layout.exists_literal (layout : Layout) {x : Binary64} (hx : x.isFinite = true) :
    ∃ s, IsLiteral s ∧ layout.write x = if x.isNegative then '-' :: s else s := by
  have hnan := Binary64.not_isNaN_of_isFinite hx
  have hinf := Binary64.not_isInfinite_of_isFinite hx
  unfold Layout.write
  simp only [hnan, hinf, Bool.false_eq_true, ↓reduceIte]
  refine ⟨_, ?_, rfl⟩
  cases hzero : x.isZero with
  | true => exact ⟨['0'], ['.', '0'], [], rfl, whole_zero, .some digits_zero, .none⟩
  | false => exact isLiteral_writeDecimal layout (shortest_ne_zero layout.tie hzero)

end DocStore.Decimal

namespace DocStore.Token

open Decimal (Digits Whole Fraction Exponent IsLiteral)

/-! ## Tokens -/

/-- The text does not go on with a digit. -/
def NoDigit (rest : List Char) : Prop := ∀ d ∈ rest.head?, d.isDigit = false

theorem spanDigits_of_digits {ds rest : List Char} (h : Digits ds) (hrest : NoDigit rest) :
    spanDigits (ds ++ rest) = (ds, rest) := by
  rw [spanDigits, List.takeWhile_append_of_pos h.isDigit, List.dropWhile_append_of_pos h.isDigit]
  cases rest with
  | nil => simp
  | cons d r => simp [hrest d rfl]

theorem noDigit_exponent {s : List Char} (h : Exponent s) : NoDigit s := by
  rintro d hd
  cases h with
  | none => cases hd
  | some _ _ => cases hd; rfl

theorem noDigit_fraction {s t : List Char} (h : Fraction s) (ht : Exponent t) :
    NoDigit (s ++ t) := by
  cases h with
  | none => exact noDigit_exponent ht
  | some _ =>
    rintro d hd
    cases hd
    rfl

theorem spanExponentDigits_of_digits (negative : Bool) {ds : List Char} (h : Digits ds) :
    ∃ e, spanExponentDigits negative ds = some (e, []) := by
  have hspan : spanDigits (ds ++ []) = (ds, []) :=
    spanDigits_of_digits h fun d hd => by cases hd
  rw [List.append_nil] at hspan
  obtain ⟨c, cs, rfl⟩ := List.exists_cons_of_ne_nil h.ne_nil
  rw [spanExponentDigits, hspan]
  exact ⟨_, rfl⟩

theorem spanExponent_of_exponent {s : List Char} (h : Exponent s) :
    ∃ e, spanExponent s = some (e, []) := by
  cases h with
  | none => exact ⟨none, rfl⟩
  | some hsign hds =>
    rw [spanExponent_letter (.inl rfl)]
    rcases hsign with rfl | rfl
    · rw [if_pos rfl]
      exact spanExponentDigits_of_digits true hds
    · rw [if_neg (by decide), if_pos rfl]
      exact spanExponentDigits_of_digits false hds

theorem spanFraction_of_fraction {s t : List Char} (h : Fraction s) (ht : Exponent t) :
    ∃ ds, spanFraction (s ++ t) = some (ds, t) := by
  cases h with
  | none =>
    refine ⟨[], ?_⟩
    cases ht with
    | none => rfl
    | some _ _ => rfl
  | @some ds hds =>
    obtain ⟨c, cs, hcs⟩ := List.exists_cons_of_ne_nil hds.ne_nil
    refine ⟨ds, ?_⟩
    rw [List.cons_append, spanFraction, spanDigits_of_digits hds (noDigit_exponent ht), hcs]

theorem spanWhole_of_whole {s t : List Char} (h : Whole s) (ht : NoDigit t) :
    spanWhole (s ++ t) = some (s, t) := by
  rcases h.leading with rfl | hhead
  · rfl
  · have hspan := spanDigits_of_digits h.digits ht
    obtain ⟨c, cs, rfl⟩ := List.exists_cons_of_ne_nil h.digits.ne_nil
    have hc : c ≠ '0' := fun hc => hhead (congrArg some hc)
    rw [List.cons_append] at hspan ⊢
    rw [spanWhole_of_ne hc, hspan, if_neg (List.cons_ne_nil c cs)]

theorem spanUnsigned_of_literal (negative : Bool) {s : List Char} (h : IsLiteral s) :
    ∃ lit, spanUnsigned negative s = some (lit, []) := by
  obtain ⟨whole, fraction, exponent, rfl, hwhole, hfraction, hexponent⟩ := h
  obtain ⟨ds, hds⟩ := spanFraction_of_fraction hfraction hexponent
  obtain ⟨e, he⟩ := spanExponent_of_exponent hexponent
  simp only [spanUnsigned, spanWhole_of_whole hwhole (noDigit_fraction hfraction hexponent), hds,
    he, bind, Option.bind_some, pure]
  exact ⟨_, rfl⟩

/-- A literal starts with a digit. -/
theorem head_of_literal {s : List Char} (h : IsLiteral s) :
    ∃ c s', s = c :: s' ∧ c.isDigit = true := by
  obtain ⟨whole, fraction, exponent, rfl, hwhole, -⟩ := h
  obtain ⟨c, cs, rfl⟩ := List.exists_cons_of_ne_nil hwhole.digits.ne_nil
  exact ⟨c, _, rfl, hwhole.digits.isDigit c List.mem_cons_self⟩

/-- A literal with or without a minus sign is one token. -/
theorem scan_literal (negative : Bool) {s : List Char} (h : IsLiteral s) :
    ∃ value, scan (if negative then '-' :: s else s) = some [.number value] := by
  obtain ⟨lit, hlit⟩ := spanUnsigned_of_literal negative h
  refine ⟨lit.value?, ?_⟩
  cases negative with
  | true =>
    have hspan : spanNumber ('-' :: s) = some (lit, []) := hlit
    have hnext := next?_of_number (.inr rfl) s
    rw [hspan] at hnext
    rw [if_pos rfl, scan_token (by decide) hnext, scan_nil]
    rfl
  | false =>
    obtain ⟨c, s', rfl, hc⟩ := head_of_literal h
    have hminus : c ≠ '-' := by rintro rfl; cases hc
    have hnext := next?_of_number (.inl hc) s'
    rw [spanNumber_of_ne hminus, hlit] at hnext
    rw [if_neg Bool.false_ne_true, scan_token (not_isBlank_of_isDigit hc) hnext, scan_nil]
    rfl

/-- The text of a number is one token. -/
theorem scan_number {n : Number} (h : n.inRange = true) :
    ∃ value, scan n.write = some [.number value] := by
  cases n with
  | integer i =>
    have htext : (Number.integer i).write =
        if decide (i < 0) then '-' :: Decimal.digitChars i.natAbs
        else Decimal.digitChars i.natAbs := by
      simp [Number.write, Decimal.integerChars]
    rw [htext]
    exact scan_literal _ (Decimal.isLiteral_digitChars _)
  | double x =>
    obtain ⟨s, hs, htext⟩ := Number.textLayout.exists_literal h
    rw [Number.write, htext]
    exact scan_literal _ hs

end DocStore.Token
