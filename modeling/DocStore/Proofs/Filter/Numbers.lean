import DocStore.Filter.Bound
import DocStore.Proofs.Decimal.Shortest

/-!
# Numbers keep their value in filter strings

A double is printed plainly first, and then its exponent is rewritten. `PrintsDoubles` is all that
is needed of the plain text: it belongs to a numeral with a point or an exponent that is rounded to
the double. `numberText_keeps_value` follows the text of a number from there: it is read as a
numeral of the same value, `Numeral.ReadsAs` gives the number back and no other, and so the text
tells integers from doubles and every number from every other one.
-/

namespace DocStore

open Binary64 (IsNearest)

namespace Numeral

/-- The number that a numeral is read as: an integer if it has neither point nor exponent, else the
nearest double of its sign. -/
inductive ReadsAs (n : Numeral) : Number → Prop
  | integer {i : Int} : ¬n.IsFractional → n.signedValue = i → n.ReadsAs (.integer i)
  | double {x : Binary64} : n.IsFractional → x.isNaN = false → x.isNegative = n.negative →
      IsNearest n.value x.pattern → n.ReadsAs (.double x)

theorem ReadsAs.unique {n : Numeral} {a b : Number} (ha : n.ReadsAs a) (hb : n.ReadsAs b) :
    a = b := by
  cases ha with
  | integer hn hi =>
    cases hb with
    | integer _ hj => rw [Int.cast_injective (hi.symm.trans hj)]
    | double hn' _ _ _ => exact absurd hn' hn
  | @double x hn hnan hsign hx =>
    cases hb with
    | integer hn' _ => exact absurd hn hn'
    | @double y _ hnan' hsign' hy =>
      have hpattern : x.pattern = y.pattern := hx.unique hy (Binary64.pattern_le_infinity hnan)
        (Binary64.pattern_le_infinity hnan')
      rw [← x.ofPattern_eq, ← y.ofPattern_eq, hsign, hsign', hpattern]

theorem ReadsAs.isFractional_iff {n : Numeral} {a : Number} (h : n.ReadsAs a) :
    n.IsFractional ↔ ∃ x, a = .double x := by
  cases h with
  | integer hn _ => simp [hn]
  | double hn _ _ _ => simp [hn]

/-- Padding the exponent does not change what is read. -/
theorem ReadsAs.pad {n : Numeral} {a : Number} (h : n.ReadsAs a) (width : Nat) :
    (n.pad width).ReadsAs a := by
  cases h with
  | integer hn hi =>
    refine .integer (mt isFractional_pad.mp hn) ?_
    rwa [signedValue, value_pad]
  | double hn hnan hsign hx =>
    refine .double (isFractional_pad.mpr hn) hnan hsign ?_
    rwa [value_pad]

def ofInt (i : Int) : Numeral := ⟨decide (i < 0), Decimal.digitChars i.natAbs, none, none⟩

theorem wellFormed_ofInt (i : Int) : (ofInt i).WellFormed :=
  ⟨Decimal.digits_digitChars _, by rintro _ ⟨⟩, by rintro _ ⟨⟩⟩

theorem signed_ofInt (i : Int) : (ofInt i).signed = Decimal.integerChars i := by
  rw [signed, mantissa, ofInt, Decimal.integerChars]
  by_cases hi : i < 0 <;> simp [hi, minus, fractionChars, exponentChars]

theorem readsAs_ofInt (i : Int) : (ofInt i).ReadsAs (.integer i) := by
  refine .integer (by simp [IsFractional, ofInt]) ?_
  have hvalue : (ofInt i).value = (i.natAbs : ℚ) := by
    simp [value, Decimal.value, decimal, ofInt, exponentValue, Decimal.ofDigitChars_digitChars]
  rw [signedValue, hvalue, ofInt]
  by_cases hi : i < 0
  · rw [if_pos (decide_eq_true hi), ← Int.cast_natCast, ← Int.cast_neg]
    congr 1
    omega
  · rw [if_neg (by simpa using hi), ← Int.cast_natCast]
    congr 1
    omega

end Numeral

namespace Filter

open Numeral (rewriteExponent read? read?_signed read?_plain)

/-- Finite doubles are printed as plain numerals that are rounded to them. -/
def PrintsDoubles (print : Binary64 → List Char) : Prop :=
  ∀ x : Binary64, x.isFinite = true →
    ∃ n : Numeral, n.WellFormed ∧ print x = n.plain ∧ n.ReadsAs (.double x)

/-- The text of a number from the printed double. -/
def textFrom (print : Binary64 → List Char) : Number → List Char
  | .integer value => Decimal.integerChars value
  | .double value => rewriteExponent (print value)

def plainText (x : Binary64) : List Char := (numberLayout.numeral x).plain

theorem printsDoubles_plainText : PrintsDoubles plainText := fun x hx =>
  ⟨numberLayout.numeral x, numberLayout.wellFormed_numeral x, rfl,
    .double (numberLayout.isFractional_numeral x) (Binary64.not_isNaN_of_isFinite hx)
      (numberLayout.negative_numeral x).symm (numberLayout.isNearest_numeral hx)⟩

theorem toList_numberText {n : Number} (h : n.inRange = true) :
    (numberText n).toList = textFrom plainText n := by
  cases n with
  | integer i => rw [numberText, String.toList_ofList, textFrom]
  | double x =>
    rw [numberText, doubleText, String.toList_ofList, numberLayout.write_eq h, textFrom, plainText,
      Numeral.rewriteExponent_plain (numberLayout.wellFormed_numeral x)]
    rfl

section

variable {print : Binary64 → List Char} (hprint : PrintsDoubles print)
include hprint

/-- The text of a number is a numeral that is read as this number. -/
theorem exists_numeral {n : Number} (h : n.inRange = true) :
    ∃ m : Numeral, m.WellFormed ∧ (∀ e ∈ m.exponent, 2 ≤ e.2.length) ∧
      textFrom print n = m.signed ∧ m.ReadsAs n := by
  cases n with
  | integer i =>
    exact ⟨.ofInt i, Numeral.wellFormed_ofInt i, by rintro _ ⟨⟩, (Numeral.signed_ofInt i).symm,
      Numeral.readsAs_ofInt i⟩
  | double x =>
    obtain ⟨n, hn, htext, hreads⟩ := hprint x h
    refine ⟨n.pad 2, hn.pad 2, fun _ => Numeral.le_length_of_mem_pad, ?_, hreads.pad 2⟩
    rw [textFrom, htext, Numeral.rewriteExponent_plain hn]

end

/-- Numbers keep their value. The text of a number is the rewritten one of a double that is printed
plainly, and for every way to print doubles plainly: the text of a number is a numeral that is read
as this number alone; it has the value that the plain text has; only doubles have a point or an
exponent; and different numbers have different texts. -/
theorem numberText_keeps_value :
    PrintsDoubles plainText ∧
      (∀ n : Number, n.inRange = true → (numberText n).toList = textFrom plainText n) ∧
      ∀ print, PrintsDoubles print →
        (∀ n : Number, n.inRange = true → ∃ m : Numeral,
          m.WellFormed ∧ (∀ e ∈ m.exponent, 2 ≤ e.2.length) ∧ textFrom print n = m.signed ∧
            read? (textFrom print n) = some m ∧ ∀ k, m.ReadsAs k ↔ k = n) ∧
        (∀ x : Binary64, x.isFinite = true → ∃ n m : Numeral,
          read? (print x) = some n ∧ read? (textFrom print (.double x)) = some m ∧
            m.negative = n.negative ∧ m.value = n.value) ∧
        (∀ n : Number, n.inRange = true →
          (('.' ∈ textFrom print n ∨ 'e' ∈ textFrom print n) ↔ ∃ x, n = .double x)) ∧
        ∀ a b : Number, a.inRange = true → b.inRange = true →
          textFrom print a = textFrom print b → a = b := by
  refine ⟨printsDoubles_plainText, fun _ => toList_numberText, fun print hprint =>
    ⟨fun n hn => ?_, fun x hx => ?_, fun n hn => ?_, fun a b ha hb htext => ?_⟩⟩
  · obtain ⟨m, hm, hwidth, htext, hreads⟩ := exists_numeral hprint hn
    refine ⟨m, hm, hwidth, htext, by rw [htext, read?_signed hm], fun k => ⟨fun hk => ?_, ?_⟩⟩
    · exact hk.unique hreads
    · rintro rfl
      exact hreads
  · obtain ⟨n, hn, htext, _⟩ := hprint x hx
    refine ⟨n, n.pad 2, by rw [htext, read?_plain hn], ?_, rfl, Numeral.value_pad 2 n⟩
    rw [textFrom, htext, Numeral.rewriteExponent_plain hn, read?_signed (hn.pad 2)]
  · obtain ⟨m, hm, _, htext, hreads⟩ := exists_numeral hprint hn
    rw [htext, ← Numeral.isFractional_iff hm, hreads.isFractional_iff]
  · obtain ⟨m, hm, _, hmtext, hmreads⟩ := exists_numeral hprint ha
    obtain ⟨m', hm', _, hmtext', hmreads'⟩ := exists_numeral hprint hb
    have hread : some m = some m' := by
      rw [← read?_signed hm, ← read?_signed hm', ← hmtext, ← hmtext', htext]
    cases hread
    exact hmreads.unique hmreads'

def tenMillionth : Binary64 := ⟨0x3E7AD7F29ABCAF48⟩

/-- An exponent of one digit, and the two zeros. -/
theorem numberText_keeps_value_tenMillionth :
    PrintsDoubles plainText ∧ (Number.double tenMillionth).inRange = true ∧
      plainText tenMillionth = ['1', 'e', '-', '7'] ∧
      numberText (.double tenMillionth) = "1e-07" ∧
      (∃ m : Numeral, m.signed = "1e-07".toList ∧ read? "1e-07".toList = some m ∧
        ∀ k, m.ReadsAs k ↔ k = .double tenMillionth) ∧
      numberText (.double .zero) ≠ numberText (.double Binary64.zero.neg) := by
  obtain ⟨hprint, htext, hprints⟩ := numberText_keeps_value
  obtain ⟨hnumeral, _, _, hinjective⟩ := hprints plainText hprint
  have hx : (Number.double tenMillionth).inRange = true := by decide
  have hwritten : numberText (.double tenMillionth) = "1e-07" := by decide +kernel
  refine ⟨hprint, hx, by decide +kernel, hwritten, ?_, fun h => ?_⟩
  · obtain ⟨m, _, _, hm, hread, hreads⟩ := hnumeral _ hx
    rw [← htext _ hx, hwritten] at hm hread
    exact ⟨m, hm.symm, hread, hreads⟩
  · have hzeros : Number.double .zero = .double Binary64.zero.neg := by
      refine hinjective _ _ (by decide) (by decide) ?_
      rw [← htext _ (by decide), ← htext _ (by decide), h]
    exact absurd hzeros (by decide)

end Filter

end DocStore
