import DocStore.Proofs.Decimal.Literal
import Mathlib.Algebra.Order.Field.Basic
import Mathlib.Data.Rat.Cast.Order
import Mathlib.Tactic.FieldSimp
import Mathlib.Tactic.Ring

/-!
# Numerals

A `Numeral` is a number as its parts are written: maybe a minus sign, digits, maybe a point with
digits and maybe an exponent. A plain text shows only the minus sign of an exponent, a signed one
shows either sign. `read?` reads exactly these two texts of every numeral (`read?_eq_some_iff`), so
a text belongs to one numeral. `rewriteExponent` gives the exponent of a plain text its sign and at
least two digits. It writes the padded numeral (`rewriteExponent_plain`), and that has the same
value (`value_pad`).
-/

namespace DocStore

namespace Decimal

/-! ## Values -/

/-- The number that a decimal stands for. -/
def value (d : Decimal) : ℚ := d.digits * 10 ^ d.exponent

/-- Trailing zeros move into the exponent. -/
theorem value_normalize (d : Decimal) : d.normalize.value = d.value := by
  fun_induction normalize d with
  | case1 d hd ih =>
    have hdigits : d.digits = d.digits / 10 * 10 := by omega
    rw [ih, value, value, zpow_add_one₀ (by norm_num)]
    conv_rhs => rw [hdigits]
    push_cast
    ring
  | case2 d hd => rfl

theorem ofDigitChars_eq (n : Nat) (ds : List Char) :
    ofDigitChars n ds = Nat.ofDigitChars 10 ds n := rfl

theorem ofDigitChars_append (ds es : List Char) :
    ofDigitChars 0 (ds ++ es) = 10 ^ es.length * ofDigitChars 0 ds + ofDigitChars 0 es := by
  rw [ofDigitChars_eq, Nat.ofDigitChars_append, Nat.ofDigitChars_eq_ofDigitChars_zero]
  rfl

theorem length_zeros (n : Nat) : (zeros n).length = n := List.length_replicate

theorem ofDigitChars_zeros (n : Nat) : ofDigitChars 0 (zeros n) = 0 := by
  rw [ofDigitChars_eq, zeros, Nat.ofDigitChars_replicate_zero, Nat.mul_zero]

/-- Zeros in front of digits do not count. -/
theorem ofDigitChars_zeros_append (n : Nat) (ds : List Char) :
    ofDigitChars 0 (zeros n ++ ds) = ofDigitChars 0 ds := by
  rw [ofDigitChars_append, ofDigitChars_zeros, Nat.mul_zero, Nat.zero_add]

theorem ofDigitChars_digitChars (n : Nat) : ofDigitChars 0 (digitChars n) = n :=
  Nat.ofDigitChars_ten_toDigits

theorem Digits.not_mem {ds : List Char} (h : Digits ds) {c : Char} (hc : c.isDigit = false) :
    c ∉ ds := by
  intro hmem
  rw [h.isDigit c hmem] at hc
  cases hc

theorem Digits.exists_cons_ne {ds : List Char} (h : Digits ds) {c : Char}
    (hc : c.isDigit = false) : ∃ d ds', ds = d :: ds' ∧ d ≠ c := by
  obtain ⟨d, ds', rfl⟩ := List.exists_cons_of_ne_nil h.ne_nil
  exact ⟨d, ds', rfl, fun hd => h.not_mem hc (hd ▸ List.mem_cons_self)⟩

/-- Digits with zeros in front of them, up to a number of places. -/
def padded (width : Nat) (ds : List Char) : List Char := zeros (width - ds.length) ++ ds

theorem ofDigitChars_padded (width : Nat) (ds : List Char) :
    ofDigitChars 0 (padded width ds) = ofDigitChars 0 ds := ofDigitChars_zeros_append _ ds

theorem Digits.padded {ds : List Char} (h : Digits ds) (width : Nat) :
    Digits (Decimal.padded width ds) := h.zeros_append _

theorem le_length_padded (width : Nat) (ds : List Char) : width ≤ (padded width ds).length := by
  rw [padded, List.length_append, length_zeros]
  omega

end Decimal

open Decimal (Digits digits_digitChars padded)

structure Numeral where
  negative : Bool
  whole : List Char
  fraction : Option (List Char)
  exponent : Option (Bool × List Char)
  deriving DecidableEq

namespace Numeral

/-- Where digits stand, there is one or more. -/
structure WellFormed (n : Numeral) : Prop where
  whole : Digits n.whole
  fraction : ∀ ds ∈ n.fraction, Digits ds
  exponent : ∀ e ∈ n.exponent, Digits e.2

/-- The numeral has a point or an exponent. -/
def IsFractional (n : Numeral) : Prop := n.fraction ≠ none ∨ n.exponent ≠ none

/-! ## Texts -/

def minus (negative : Bool) : List Char := if negative then ['-'] else []

def sign (negative : Bool) : List Char := [if negative then '-' else '+']

/-- A point and the digits after it, if there are any. -/
def fractionChars : Option (List Char) → List Char
  | none => []
  | some ds => '.' :: ds

def mantissa (n : Numeral) : List Char :=
  minus n.negative ++ (n.whole ++ fractionChars n.fraction)

/-- An exponent whose sign is shown as `mark` says. -/
def exponentChars (mark : Bool → List Char) : Option (Bool × List Char) → List Char
  | none => []
  | some (negative, ds) => 'e' :: mark negative ++ ds

/-- The text that shows only the minus sign of an exponent. -/
def plain (n : Numeral) : List Char :=
  n.mantissa ++ exponentChars minus n.exponent

/-- The text that shows either sign of an exponent. -/
def signed (n : Numeral) : List Char :=
  n.mantissa ++ exponentChars sign n.exponent

/-- The same numeral with an exponent of at least `width` digits. -/
def pad (width : Nat) (n : Numeral) : Numeral :=
  { n with exponent := n.exponent.map fun e => (e.1, padded width e.2) }

theorem WellFormed.pad {n : Numeral} (h : n.WellFormed) (width : Nat) :
    (n.pad width).WellFormed where
  whole := h.whole
  fraction := h.fraction
  exponent e he := by
    obtain ⟨e', he', rfl⟩ := Option.map_eq_some_iff.mp he
    exact (h.exponent e' he').padded width

theorem le_length_of_mem_pad {n : Numeral} {width : Nat} {e : Bool × List Char}
    (he : e ∈ (n.pad width).exponent) : width ≤ e.2.length := by
  obtain ⟨e', _, rfl⟩ := Option.map_eq_some_iff.mp he
  exact Decimal.le_length_padded width e'.2

theorem isFractional_pad {n : Numeral} {width : Nat} :
    (n.pad width).IsFractional ↔ n.IsFractional := by
  simp only [IsFractional, pad, ne_eq, Option.map_eq_none_iff]

/-! ## Characters -/

section

variable {n : Numeral} (h : n.WellFormed)
include h

theorem e_not_mem_mantissa : 'e' ∉ n.mantissa := by
  have hsign : 'e' ∉ minus n.negative := by cases n.negative <;> decide
  have hwhole : 'e' ∉ n.whole := h.whole.not_mem (by decide)
  have hfraction : 'e' ∉ fractionChars n.fraction := by
    cases hf : n.fraction with
    | none => exact List.not_mem_nil
    | some ds =>
      exact List.not_mem_cons_of_ne_of_not_mem (by decide)
        ((h.fraction ds hf).not_mem (by decide))
  simp only [mantissa, List.mem_append, hsign, hwhole, hfraction, or_self, not_false_eq_true]

theorem point_mem_mantissa_iff : '.' ∈ n.mantissa ↔ n.fraction ≠ none := by
  have hsign : '.' ∉ minus n.negative := by cases n.negative <;> decide
  have hwhole : '.' ∉ n.whole := h.whole.not_mem (by decide)
  rw [mantissa, List.mem_append, List.mem_append]
  cases n.fraction <;> simp [fractionChars, hsign, hwhole]

theorem e_mem_signed_iff : 'e' ∈ n.signed ↔ n.exponent ≠ none := by
  rw [signed, List.mem_append, or_iff_right (e_not_mem_mantissa h)]
  cases n.exponent <;> simp [exponentChars]

theorem point_mem_signed_iff : '.' ∈ n.signed ↔ n.fraction ≠ none := by
  have hexponent : '.' ∉ exponentChars sign n.exponent := by
    cases he : n.exponent with
    | none => exact List.not_mem_nil
    | some e =>
      have hsign : '.' ∉ 'e' :: sign e.1 := by cases e.1 <;> decide
      exact List.not_mem_append hsign ((h.exponent e he).not_mem (by decide))
  rw [signed, List.mem_append, or_iff_left hexponent, point_mem_mantissa_iff h]

/-- Points and exponents can be seen in the text. -/
theorem isFractional_iff : n.IsFractional ↔ '.' ∈ n.signed ∨ 'e' ∈ n.signed := by
  rw [point_mem_signed_iff h, e_mem_signed_iff h, IsFractional]

end

/-! ## Rewriting exponents -/

/-- Whether a minus sign stands first, and what follows it. -/
def splitMinus : List Char → Bool × List Char
  | '-' :: text => (true, text)
  | text => (false, text)

theorem splitMinus_of_ne {c : Char} (h : c ≠ '-') (text : List Char) :
    splitMinus (c :: text) = (false, c :: text) := by
  rw [splitMinus]
  rintro _ ⟨⟩
  exact h rfl

theorem splitMinus_minus (negative : Bool) {ds : List Char} (h : Digits ds) (text : List Char) :
    splitMinus (minus negative ++ (ds ++ text)) = (negative, ds ++ text) := by
  obtain ⟨c, cs, rfl, hc⟩ := h.exists_cons_ne (show '-'.isDigit = false by decide)
  cases negative with
  | true => rfl
  | false => exact splitMinus_of_ne hc _

/-- The text with a sign and at least two digits in its exponent, if it has one. -/
def rewriteExponent (text : List Char) : List Char :=
  match text.dropWhile (· != 'e') with
  | [] => text
  | _ :: exponent =>
    let (negative, digits) := splitMinus exponent
    text.takeWhile (· != 'e') ++ 'e' :: sign negative ++ padded 2 digits

/-- Only the exponent is padded: before it stands no `e`. -/
theorem rewriteExponent_plain {n : Numeral} (h : n.WellFormed) :
    rewriteExponent n.plain = (n.pad 2).signed := by
  have hmantissa : ∀ c ∈ n.mantissa, (c != 'e') = true :=
    fun c hc => bne_iff_ne.mpr fun he => e_not_mem_mantissa h (he ▸ hc)
  rw [rewriteExponent, plain, List.dropWhile_append_of_pos hmantissa,
    List.takeWhile_append_of_pos hmantissa, signed]
  cases he : n.exponent with
  | none => simp only [pad, he, mantissa, exponentChars, Option.map_none, List.dropWhile_nil]
  | some e =>
    have hminus := splitMinus_minus e.1 (h.exponent e he) []
    rw [List.append_nil] at hminus
    simp only [pad, he, mantissa, exponentChars, Option.map_some, List.cons_append,
      List.dropWhile_cons, List.takeWhile_cons, bne_self_eq_false, Bool.false_eq_true, ↓reduceIte,
      hminus, List.append_nil, List.append_assoc]

/-! ## Reading -/

/-- The digits that a text starts with, at least one, and what follows them. -/
def digits? (text : List Char) : Option (List Char × List Char) :=
  match Token.spanDigits text with
  | ([], _) => none
  | (ds, rest) => some (ds, rest)

/-- The digits after a point, if the text starts with one, and what follows them. -/
def fraction? : List Char → Option (Option (List Char) × List Char)
  | '.' :: text => (digits? text).map fun (ds, rest) => (some ds, rest)
  | text => some (none, text)

/-- Whether a minus sign stands first, and what follows either sign. -/
def splitSign : List Char → Bool × List Char
  | '+' :: text => (false, text)
  | text => splitMinus text

/-- The exponent that is the whole text, with either sign or none; nothing is no exponent. -/
def exponent? : List Char → Option (Option (Bool × List Char))
  | [] => some none
  | 'e' :: text =>
    let (negative, text) := splitSign text
    match digits? text with
    | some (ds, []) => some (some (negative, ds))
    | _ => none
  | _ => none

def read? (text : List Char) : Option Numeral := do
  let (negative, text) := splitMinus text
  let (whole, text) ← digits? text
  let (fraction, text) ← fraction? text
  let exponent ← exponent? text
  some ⟨negative, whole, fraction, exponent⟩

theorem digits?_append {ds rest : List Char} (h : Digits ds) (hrest : Token.NoDigit rest) :
    digits? (ds ++ rest) = some (ds, rest) := by
  obtain ⟨c, cs, rfl⟩ := List.exists_cons_of_ne_nil h.ne_nil
  rw [digits?, Token.spanDigits_of_digits h hrest]

theorem digits?_of_digits {ds : List Char} (h : Digits ds) : digits? ds = some (ds, []) := by
  have hspan : digits? (ds ++ []) = some (ds, []) := digits?_append h (by rintro _ ⟨⟩)
  rwa [List.append_nil] at hspan

section

variable {mark : Bool → List Char}

theorem noDigit_exponentChars (e : Option (Bool × List Char)) :
    Token.NoDigit (exponentChars mark e) := by
  cases e <;> rintro _ ⟨⟩
  rfl

/-- A point and digits are read up to the exponent. -/
theorem fraction?_append {n : Numeral} (h : n.WellFormed) :
    fraction? (fractionChars n.fraction ++ exponentChars mark n.exponent) =
      some (n.fraction, exponentChars mark n.exponent) := by
  cases hf : n.fraction with
  | none => cases n.exponent <;> rfl
  | some ds =>
    simp only [fractionChars, List.cons_append, fraction?,
      digits?_append (h.fraction ds hf) (noDigit_exponentChars n.exponent), Option.map_some]

/-- A text is read as its numeral if its exponent is. -/
theorem read?_append {n : Numeral} (h : n.WellFormed)
    (he : exponent? (exponentChars mark n.exponent) = some n.exponent) :
    read? (n.mantissa ++ exponentChars mark n.exponent) = some n := by
  have hrest : Token.NoDigit (fractionChars n.fraction ++ exponentChars mark n.exponent) := by
    cases n.fraction with
    | none => exact noDigit_exponentChars n.exponent
    | some ds =>
      rintro _ ⟨⟩
      rfl
  rw [mantissa, List.append_assoc, List.append_assoc, read?]
  simp only [splitMinus_minus n.negative h.whole, digits?_append h.whole hrest, fraction?_append h,
    he, bind, Option.bind_some]

end

theorem splitSign_minus (negative : Bool) {ds : List Char} (h : Digits ds) :
    splitSign (minus negative ++ ds) = (negative, ds) := by
  have hminus := splitMinus_minus negative h []
  rw [List.append_nil] at hminus
  rw [← hminus, splitSign]
  intro text htext
  obtain ⟨c, cs, rfl, hc⟩ := h.exists_cons_ne (show '+'.isDigit = false by decide)
  cases negative with
  | true => cases htext
  | false => exact hc (List.cons.inj htext).1

theorem splitSign_sign (negative : Bool) (ds : List Char) :
    splitSign (sign negative ++ ds) = (negative, ds) := by
  cases negative <;> rfl

theorem exponent?_of_splitSign {negative : Bool} {text ds : List Char} (h : Digits ds)
    (hsign : splitSign text = (negative, ds)) :
    exponent? ('e' :: text) = some (some (negative, ds)) := by
  simp only [exponent?, hsign, digits?_of_digits h]

theorem read?_plain {n : Numeral} (h : n.WellFormed) : read? n.plain = some n := by
  refine read?_append h ?_
  cases he : n.exponent with
  | none => rfl
  | some e => exact exponent?_of_splitSign (h.exponent e he) (splitSign_minus e.1 (h.exponent e he))

theorem read?_signed {n : Numeral} (h : n.WellFormed) : read? n.signed = some n := by
  refine read?_append h ?_
  cases he : n.exponent with
  | none => rfl
  | some e => exact exponent?_of_splitSign (h.exponent e he) (splitSign_sign e.1 e.2)

/-! ### Only texts of numerals are read -/

theorem eq_of_splitMinus {text rest : List Char} {negative : Bool}
    (h : splitMinus text = (negative, rest)) : text = minus negative ++ rest := by
  unfold splitMinus at h
  split at h <;> cases h <;> rfl

theorem eq_of_splitSign {text rest : List Char} {negative : Bool}
    (h : splitSign text = (negative, rest)) :
    text = minus negative ++ rest ∨ text = sign negative ++ rest := by
  unfold splitSign at h
  split at h
  · cases h
    exact .inr rfl
  · exact .inl (eq_of_splitMinus h)

theorem eq_of_digits? {text ds rest : List Char} (h : digits? text = some (ds, rest)) :
    Digits ds ∧ text = ds ++ rest := by
  unfold digits? at h
  split at h
  · cases h
  · rename_i hne hspan
    cases h
    rw [Token.spanDigits, Prod.mk.injEq] at hspan
    obtain ⟨rfl, rfl⟩ := hspan
    exact ⟨⟨hne, List.all_eq_true.mp List.all_takeWhile⟩, List.takeWhile_append_dropWhile.symm⟩

theorem eq_of_fraction? {text rest : List Char} {fraction : Option (List Char)}
    (h : fraction? text = some (fraction, rest)) :
    (∀ ds ∈ fraction, Digits ds) ∧ text = fractionChars fraction ++ rest := by
  unfold fraction? at h
  split at h
  · obtain ⟨⟨ds, rest'⟩, hdigits, heq⟩ := Option.map_eq_some_iff.mp h
    cases heq
    obtain ⟨hds, rfl⟩ := eq_of_digits? hdigits
    exact ⟨by rintro _ ⟨⟩; exact hds, rfl⟩
  · cases h
    exact ⟨by rintro _ ⟨⟩, rfl⟩

theorem eq_of_exponent? {text : List Char} {exponent : Option (Bool × List Char)}
    (h : exponent? text = some exponent) :
    (∀ e ∈ exponent, Digits e.2) ∧
      (text = exponentChars minus exponent ∨ text = exponentChars sign exponent) := by
  unfold exponent? at h
  split at h
  · cases h
    exact ⟨by rintro _ ⟨⟩, .inl rfl⟩
  · dsimp only at h
    split at h
    · rename_i text _ ds hdigits
      cases h
      obtain ⟨hds, hrest⟩ := eq_of_digits? hdigits
      rw [List.append_nil] at hrest
      have hsplit : splitSign text = ((splitSign text).1, ds) := Prod.ext rfl hrest
      exact ⟨by rintro _ ⟨⟩; exact hds,
        (eq_of_splitSign hsplit).imp (congrArg ('e' :: ·)) (congrArg ('e' :: ·))⟩
    · cases h
  · cases h

/-- A text that is read is one of the two texts of its numeral. -/
theorem eq_of_read? {text : List Char} {n : Numeral} (h : read? text = some n) :
    n.WellFormed ∧ (text = n.plain ∨ text = n.signed) := by
  simp only [read?, bind, Option.bind_eq_some_iff] at h
  obtain ⟨⟨whole, afterWhole⟩, hwhole, ⟨fraction, afterPoint⟩, hfraction, exponent, hexponent,
    hn⟩ := h
  cases hn
  obtain ⟨hwholeDigits, hwholeText⟩ := eq_of_digits? hwhole
  obtain ⟨hfractionDigits, hfractionText⟩ := eq_of_fraction? hfraction
  obtain ⟨hexponentDigits, hexponentText⟩ := eq_of_exponent? hexponent
  dsimp only at hwholeText hfractionText hexponentText
  have hsign : text =
      minus (splitMinus text).1 ++ (whole ++ (fractionChars fraction ++ afterPoint)) :=
    eq_of_splitMinus (Prod.ext rfl (by rw [hwholeText, hfractionText]))
  refine ⟨⟨hwholeDigits, hfractionDigits, hexponentDigits⟩, ?_⟩
  generalize (splitMinus text).1 = negative at hsign
  subst hsign
  simp only [plain, signed, mantissa, List.append_assoc, List.append_cancel_left_eq]
  exact hexponentText

theorem read?_eq_some_iff {text : List Char} {n : Numeral} :
    read? text = some n ↔ n.WellFormed ∧ (text = n.plain ∨ text = n.signed) := by
  refine ⟨eq_of_read?, ?_⟩
  rintro ⟨hn, rfl | rfl⟩
  · exact read?_plain hn
  · exact read?_signed hn

/-! ## Values -/

def exponentValue : Option (Bool × List Char) → Int
  | none => 0
  | some (negative, ds) =>
    if negative then -(Decimal.ofDigitChars 0 ds : Int) else Decimal.ofDigitChars 0 ds

/-- The digits without the point, and what the point and the exponent leave of an exponent. -/
def decimal (n : Numeral) : Decimal where
  digits := Decimal.ofDigitChars 0 (n.whole ++ n.fraction.getD [])
  exponent := exponentValue n.exponent - (n.fraction.getD []).length

def value (n : Numeral) : ℚ := n.decimal.value

def signedValue (n : Numeral) : ℚ := if n.negative then -n.value else n.value

theorem exponentValue_padded (width : Nat) (e : Option (Bool × List Char)) :
    exponentValue (e.map fun e => (e.1, padded width e.2)) = exponentValue e := by
  cases e with
  | none => rfl
  | some e => simp only [Option.map_some, exponentValue, Decimal.ofDigitChars_padded]

theorem value_pad (width : Nat) (n : Numeral) : (n.pad width).value = n.value := by
  rw [value, value, decimal, decimal, pad, exponentValue_padded]

end Numeral

end DocStore
