import DocStore.Proofs.Binary64.Nearest
import DocStore.Proofs.Decimal.Numeral

/-!
# Shortest decimals round back

The shortest decimal of a finite double is rounded to that double (`isNearest_shortest`), because
the decimals that `shortest` tries are read back before one is taken and the exact value stands
last. `Layout.numeral` is what a layout writes of a finite double, in parts: the text is the signed
text of this numeral with padded exponent (`Layout.write_eq`), and its value is that of the shortest
decimal (`Layout.value_numeral`).
-/

namespace DocStore.Binary64

theorem pattern_roundRatio (negative : Bool) (n d : Nat) :
    (roundRatio negative n d).pattern = roundRank n d := by
  rw [roundRatio_eq, ← roundRank, pattern_ofPattern]
  exact Nat.lt_of_le_of_lt (roundRank_le_infinity n d) (by decide)

/-- Units of the smallest double cancel. -/
theorem natCast_mul_one_div (n : Nat) : ((n * one : Nat) : ℚ) / one = n := by
  rw [Nat.cast_mul, mul_div_cancel_right₀ _ one_pos_rat.ne']

/-- A decimal is read as zero or infinity, or as the quotient that it is, rounded. -/
theorem pattern_ofDecimal (negative : Bool) (d : Decimal) :
    (ofDecimal negative d.digits d.exponent).pattern = 0 ∨
      (ofDecimal negative d.digits d.exponent).pattern = infinityPattern ∨
      ∃ n k : Nat, 0 < k ∧ (n : ℚ) / k / one = d.value ∧
        (ofDecimal negative d.digits d.exponent).pattern = roundRank n k := by
  have hzero : (ofPattern negative 0).pattern = 0 := pattern_ofPattern negative (by decide)
  unfold ofDecimal
  dsimp only
  split
  · exact .inl hzero
  · split
    · exact .inr (.inl (pattern_ofPattern negative (by decide)))
    · split
      · exact .inl hzero
      · split
        · rename_i hneg
          refine .inr (.inr ⟨d.digits * one, 10 ^ d.exponent.natAbs, Nat.pow_pos (by decide), ?_,
            pattern_roundRatio ..⟩)
          rw [div_right_comm, natCast_mul_one_div, Decimal.value,
            show d.exponent = -(d.exponent.natAbs : Int) by omega, zpow_neg, zpow_natCast,
            Int.natAbs_neg, Int.natAbs_natCast, Nat.cast_pow, div_eq_mul_inv, Nat.cast_ofNat]
        · rename_i hneg
          refine .inr (.inr ⟨d.digits * 10 ^ d.exponent.natAbs * one, 1, Nat.one_pos, ?_,
            pattern_roundRatio ..⟩)
          rw [Nat.cast_one, div_one, natCast_mul_one_div, Decimal.value,
            show d.exponent = (d.exponent.natAbs : Int) by omega, zpow_natCast,
            Int.natAbs_natCast, Nat.cast_mul, Nat.cast_pow, Nat.cast_ofNat]

/-- A decimal that is read as a finite double other than zero is read as the nearest one. -/
theorem isNearest_ofDecimal {negative : Bool} {d : Decimal} {x : Binary64}
    (h : ofDecimal negative d.digits d.exponent = x) (hx : x.isFinite = true)
    (hzero : x.isZero = false) : IsNearest d.value x.pattern := by
  subst h
  rcases pattern_ofDecimal negative d with hp | hp | ⟨n, k, hk, hvalue, hp⟩
  · exact absurd hp (ne_of_beq_false hzero)
  · exact absurd hp (Nat.ne_of_lt (of_decide_eq_true hx))
  · rw [hp, ← hvalue]
    exact isNearest_roundRank hk

end DocStore.Binary64

namespace DocStore.Decimal

open Binary64 (IsNearest)

/-! ## Shortest decimals -/

/-- The powers of two and five make one of ten. -/
theorem value_exact (x : Binary64) : (exact x).value = Binary64.magnitudeOf x.pattern := by
  rw [value, exact, Binary64.magnitudeOf, Binary64.one_eq, ← Binary64.magnitude_eq]
  dsimp only
  generalize he : (-1074 : Int) = e
  generalize hk : 1074 = k
  rw [show e = -(k : Int) by omega, zpow_neg, zpow_natCast, Nat.pow_eq,
    show (10 : ℚ) = 5 * 2 by norm_num, mul_pow]
  push_cast
  field_simp

section

variable {x : Binary64} (hx : x.isFinite = true) (hzero : x.isZero = false)
include hx hzero

theorem isNearest_of_readsBack {d : Decimal} (h : readsBack x d = true) :
    IsNearest d.value x.pattern := by
  have habs : x.abs.pattern = x.pattern := Binary64.pattern_ofPattern false x.pattern_lt
  rw [← habs]
  refine Binary64.isNearest_ofDecimal (eq_of_beq h) ?_ ?_
  · rwa [Binary64.isFinite, habs]
  · rwa [Binary64.isZero, habs]

theorem isNearest_shortest (tie : Tie) : IsNearest (shortest tie x).value x.pattern := by
  rw [shortest, value_normalize]
  cases hfound : (List.range 17).findSome?
      fun n => nearestOn tie x (leadingPlace x - (n + 1 : Nat)) with
  | none =>
    rw [Option.getD_none, value_exact]
    exact Binary64.isNearest_magnitudeOf x.pattern
  | some d =>
    obtain ⟨n, _, hn⟩ := List.exists_of_findSome?_eq_some hfound
    exact isNearest_of_readsBack hx hzero (readsBack_of_nearestOn hn)

end

/-! ## Numerals of layouts -/

/-- The numeral of a decimal without an exponent, with a point in the place that `exponent` gives
it. -/
def positionalNumeral (negative : Bool) (digits : List Char) (exponent : Int) : Numeral :=
  let before := digits.length + exponent
  if 0 ≤ exponent then ⟨negative, digits ++ zeros exponent.natAbs, some ['0'], none⟩
  else if 0 < before then
    ⟨negative, digits.take before.toNat, some (digits.drop before.toNat), none⟩
  else ⟨negative, ['0'], some (zeros before.natAbs ++ digits), none⟩

/-- The numeral of a decimal with one digit before the point and an exponent. -/
def scientificNumeral (negative : Bool) (digits : List Char) (exponent : Int) : Numeral where
  negative := negative
  whole := digits.take 1
  fraction := if digits.length ≤ 1 then none else some (digits.drop 1)
  exponent := some (exponent < 0, digitChars exponent.natAbs)

namespace Layout

def decimalNumeral (layout : Layout) (negative : Bool) (d : Decimal) : Numeral :=
  let digits := digitChars d.digits
  let leading := d.exponent + digits.length - 1
  if layout.least ≤ leading ∧ leading ≤ layout.greatest then
    positionalNumeral negative digits d.exponent
  else scientificNumeral negative digits leading

def numeral (layout : Layout) (x : Binary64) : Numeral :=
  if x.isZero then ⟨x.isNegative, ['0'], some ['0'], none⟩
  else layout.decimalNumeral x.isNegative (shortest layout.tie x)

end Layout

section

variable {ds : List Char}

theorem signed_positionalNumeral (negative : Bool) (ds : List Char) (width : Nat) (exponent : Int) :
    ((positionalNumeral negative ds exponent).pad width).signed =
      Numeral.minus negative ++ positional ds exponent := by
  unfold positionalNumeral positional Numeral.pad Numeral.signed Numeral.mantissa
  dsimp only
  split
  · simp [Numeral.fractionChars, Numeral.exponentChars]
  · split <;> simp [Numeral.fractionChars, Numeral.exponentChars]

theorem signed_scientificNumeral (negative : Bool) (ds : List Char) (width : Nat) (exponent : Int) :
    ((scientificNumeral negative ds exponent).pad width).signed =
      Numeral.minus negative ++ scientific width ds exponent := by
  have hfraction : Numeral.fractionChars (scientificNumeral negative ds exponent).fraction =
      if ds.length ≤ 1 then [] else '.' :: ds.drop 1 := by
    dsimp only [scientificNumeral]
    split <;> rfl
  rw [scientific, ← hfraction, exponentText, Numeral.signed, Numeral.mantissa, Numeral.pad]
  simp [scientificNumeral, Numeral.exponentChars, Numeral.sign, padded]

theorem wellFormed_positionalNumeral (negative : Bool) (h : Digits ds) (exponent : Int) :
    (positionalNumeral negative ds exponent).WellFormed := by
  unfold positionalNumeral
  dsimp only
  split
  · refine ⟨h.append fun _ => isDigit_of_mem_zeros, ?_, by rintro _ ⟨⟩⟩
    rintro _ ⟨⟩
    exact digits_zero
  · split
    · refine ⟨h.take (by omega), ?_, by rintro _ ⟨⟩⟩
      rintro _ ⟨⟩
      exact h.drop (by omega)
    · refine ⟨digits_zero, ?_, by rintro _ ⟨⟩⟩
      rintro _ ⟨⟩
      exact h.zeros_append _

theorem wellFormed_scientificNumeral (negative : Bool) (h : Digits ds) (exponent : Int) :
    (scientificNumeral negative ds exponent).WellFormed where
  whole := h.take Nat.one_pos
  fraction es hes := by
    dsimp only [scientificNumeral] at hes
    split at hes
    · cases hes
    · cases hes
      exact h.drop (by omega)
  exponent e he := by
    cases he
    exact digits_digitChars _

/-- A point among the digits makes the exponent less by the number of digits after it. -/
theorem value_positionalNumeral (negative : Bool) (ds : List Char) (exponent : Int) :
    (positionalNumeral negative ds exponent).value = value ⟨ofDigitChars 0 ds, exponent⟩ := by
  unfold positionalNumeral
  dsimp only
  split
  · rename_i hexponent
    have hpow : (10 : ℚ) ^ exponent = 10 ^ exponent.natAbs := by
      rw [show exponent = (exponent.natAbs : Int) by omega, zpow_natCast, Int.natAbs_natCast]
    have hdigits : ofDigitChars 0 (ds ++ zeros exponent.natAbs ++ ['0']) =
        10 ^ exponent.natAbs * ofDigitChars 0 ds * 10 := by
      rw [ofDigitChars_append, ofDigitChars_append, ofDigitChars_zeros, length_zeros, Nat.add_zero]
      exact Nat.mul_comm ..
    simp only [Numeral.value, Numeral.decimal, Option.getD_some, hdigits, value, hpow,
      Numeral.exponentValue, List.length_singleton]
    push_cast
    ring
  · split
    · rename_i hbefore
      simp only [Numeral.value, Numeral.decimal, Option.getD_some, List.take_append_drop,
        Numeral.exponentValue, List.length_drop]
      congr 2
      omega
    · rename_i hbefore
      have hdigits (n : Nat) : ofDigitChars 0 (['0'] ++ (zeros n ++ ds)) = ofDigitChars 0 ds :=
        ofDigitChars_zeros_append (n + 1) ds
      simp only [Numeral.value, Numeral.decimal, Option.getD_some, hdigits,
        Numeral.exponentValue, List.length_append, length_zeros]
      congr 2
      omega

theorem value_scientificNumeral (negative : Bool) (h : Digits ds) (exponent : Int) :
    (scientificNumeral negative ds exponent).value =
      value ⟨ofDigitChars 0 ds, exponent + 1 - ds.length⟩ := by
  have hexponent : Numeral.exponentValue (some (decide (exponent < 0), digitChars exponent.natAbs))
      = exponent := by
    simp only [Numeral.exponentValue, ofDigitChars_digitChars, decide_eq_true_eq]
    omega
  have hfraction : (scientificNumeral negative ds exponent).fraction.getD [] = ds.drop 1 := by
    dsimp only [scientificNumeral]
    split
    · rename_i hle
      rw [Option.getD_none, List.drop_eq_nil_of_le hle]
    · rfl
  have hlength : 0 < ds.length := List.length_pos_iff.mpr h.ne_nil
  rw [Numeral.value, Numeral.decimal, hfraction]
  simp only [scientificNumeral, hexponent, List.take_append_drop, List.length_drop]
  congr 2
  omega

end

namespace Layout

variable (layout : Layout) (x : Binary64)

theorem wellFormed_numeral : (layout.numeral x).WellFormed := by
  unfold numeral decimalNumeral
  dsimp only
  split
  · exact ⟨digits_zero, by rintro _ ⟨⟩; exact digits_zero, by rintro _ ⟨⟩⟩
  · split
    · exact wellFormed_positionalNumeral _ (digits_digitChars _) _
    · exact wellFormed_scientificNumeral _ (digits_digitChars _) _

theorem negative_numeral : (layout.numeral x).negative = x.isNegative := by
  unfold numeral decimalNumeral positionalNumeral scientificNumeral
  dsimp only
  repeat' split
  all_goals rfl

theorem isFractional_numeral : (layout.numeral x).IsFractional := by
  unfold numeral decimalNumeral positionalNumeral scientificNumeral Numeral.IsFractional
  dsimp only
  repeat' split
  all_goals simp

theorem signed_decimalNumeral (negative : Bool) (d : Decimal) :
    ((layout.decimalNumeral negative d).pad layout.exponentWidth).signed =
      Numeral.minus negative ++ layout.writeDecimal d := by
  unfold decimalNumeral writeDecimal
  dsimp only
  split
  · exact signed_positionalNumeral ..
  · exact signed_scientificNumeral ..

theorem value_decimalNumeral (negative : Bool) (d : Decimal) :
    (layout.decimalNumeral negative d).value = d.value := by
  unfold decimalNumeral
  dsimp only
  split
  · rw [value_positionalNumeral, ofDigitChars_digitChars]
  · rw [value_scientificNumeral _ (digits_digitChars _), ofDigitChars_digitChars]
    congr 2
    omega

variable {x} (hx : x.isFinite = true)
include hx

/-- The numeral of a double is rounded to it. -/
theorem isNearest_numeral : Binary64.IsNearest (layout.numeral x).value x.pattern := by
  cases hzero : x.isZero with
  | true =>
    have hvalue : (layout.numeral x).value = Binary64.magnitudeOf x.pattern := by
      rw [eq_of_beq hzero, Binary64.magnitudeOf, Binary64.magnitudeAt_zero, Nat.cast_zero, zero_div,
        numeral, if_pos hzero, Numeral.value, value]
      exact mul_eq_zero_of_left Nat.cast_zero _
    rw [hvalue]
    exact Binary64.isNearest_magnitudeOf x.pattern
  | false =>
    rw [numeral, hzero, if_neg Bool.false_ne_true, value_decimalNumeral]
    exact isNearest_shortest hx hzero layout.tie

/-- The text of a finite double is that of its numeral. -/
theorem write_eq : layout.write x = ((layout.numeral x).pad layout.exponentWidth).signed := by
  have hnan := Binary64.not_isNaN_of_isFinite hx
  have hinf := Binary64.not_isInfinite_of_isFinite hx
  have hsign (body : List Char) : (if x.isNegative then '-' :: body else body) =
      Numeral.minus x.isNegative ++ body := by
    cases x.isNegative <;> rfl
  rw [write, hnan, hinf, if_neg Bool.false_ne_true, if_neg Bool.false_ne_true, hsign, numeral]
  by_cases hzero : x.isZero = true
  · rw [if_pos hzero, if_pos hzero]
    exact (signed_positionalNumeral x.isNegative ['0'] _ 0).symm
  · rw [if_neg hzero, if_neg hzero, signed_decimalNumeral]

end Layout

end DocStore.Decimal
