import DocStore.Proofs.Binary64.Rounded
import Mathlib.Data.Int.ConditionallyCompleteOrder
import Mathlib.Data.Int.SuccPred
import Mathlib.Order.Monotone.Basic
import Mathlib.Order.SuccPred.Basic

/-!
# The order of doubles

`magnitudeAt` is the magnitude that a pattern stands for and `valueAt` the value of the doubles of a
rank. Both grow strictly, each step by the gap that the exponent field gives, so doubles are ordered
as their ranks are (`scaled_lt_iff`). `rank_nextUp` and `rank_nextDown` say that the neighbours of a
double have the ranks next to its own.
-/

namespace DocStore.Binary64

/-! ## Magnitudes of patterns -/

/-- The distance from the magnitude of a pattern to that of the next one. -/
def gapAt (pattern : Nat) : Nat := 2 ^ (pattern / 2 ^ 52 - 1)

/-- The magnitude that a pattern stands for. That of infinity stands where the next double would. -/
def magnitudeAt (pattern : Nat) : Nat :=
  (if pattern / 2 ^ 52 = 0 then pattern % 2 ^ 52 else 2 ^ 52 + pattern % 2 ^ 52) * gapAt pattern

theorem magnitude_eq (x : Binary64) : x.magnitude = magnitudeAt x.pattern := rfl

theorem gapAt_pos (p : Nat) : 0 < gapAt p := Nat.two_pow_pos _

theorem gapAt_le {p q : Nat} (h : p ≤ q) : gapAt p ≤ gapAt q :=
  Nat.pow_le_pow_right (by omega) (Nat.sub_le_sub_right (Nat.div_le_div_right h) 1)

theorem magnitudeAt_zero : magnitudeAt 0 = 0 := by decide

theorem magnitudeAt_succ (p : Nat) : magnitudeAt (p + 1) = magnitudeAt p + gapAt p := by
  unfold magnitudeAt gapAt
  by_cases hcarry : (p + 1) % 2 ^ 52 = 0
  · have hdiv : (p + 1) / 2 ^ 52 = p / 2 ^ 52 + 1 := by omega
    have hmod : p % 2 ^ 52 = 2 ^ 52 - 1 := by omega
    rw [hcarry, hdiv, hmod]
    by_cases hsub : p / 2 ^ 52 = 0
    · rw [hsub]; decide
    · obtain ⟨k, hk⟩ : ∃ k, p / 2 ^ 52 = k + 1 := ⟨p / 2 ^ 52 - 1, by omega⟩
      rw [if_neg (by omega), if_neg hsub, hk, Nat.add_sub_cancel, Nat.add_sub_cancel, Nat.pow_succ]
      omega
  · have hdiv : (p + 1) / 2 ^ 52 = p / 2 ^ 52 := by omega
    have hmod : (p + 1) % 2 ^ 52 = p % 2 ^ 52 + 1 := by omega
    rw [hdiv, hmod]
    split
    · rw [Nat.add_mul, Nat.one_mul]
    · rw [← Nat.add_assoc, Nat.add_mul _ 1, Nat.one_mul]

theorem magnitudeAt_strictMono : StrictMono magnitudeAt :=
  strictMono_nat_of_lt_succ fun p => by
    have hsucc := magnitudeAt_succ p
    have hpos := gapAt_pos p
    omega

/-- A significand of at most 53 bits in its place. -/
theorem magnitudeAt_place {p t : Nat} (ht : t ≤ 2 ^ 53) (hp : p = 0 ∨ 2 ^ 52 ≤ t) :
    magnitudeAt (p * 2 ^ 52 + t) = t * 2 ^ p := by
  unfold magnitudeAt gapAt
  by_cases hsub : t < 2 ^ 52
  · have hzero : p = 0 := by omega
    subst hzero
    have hdiv : (0 * 2 ^ 52 + t) / 2 ^ 52 = 0 := by omega
    have hmod : (0 * 2 ^ 52 + t) % 2 ^ 52 = t := by omega
    rw [hdiv, hmod, if_pos rfl]
  · by_cases hfull : t = 2 ^ 53
    · subst hfull
      have hdiv : (p * 2 ^ 52 + 2 ^ 53) / 2 ^ 52 = p + 2 := by omega
      have hmod : (p * 2 ^ 52 + 2 ^ 53) % 2 ^ 52 = 0 := by omega
      rw [hdiv, hmod, if_neg (by omega), show p + 2 - 1 = p + 1 by omega, Nat.pow_succ]
      omega
    · have hdiv : (p * 2 ^ 52 + t) / 2 ^ 52 = p + 1 := by omega
      have hmod : (p * 2 ^ 52 + t) % 2 ^ 52 = t - 2 ^ 52 := by omega
      rw [hdiv, hmod, if_neg (by omega), show p + 1 - 1 = p by omega,
        show 2 ^ 52 + (t - 2 ^ 52) = t by omega]

/-- Every number of at most 53 bits is a magnitude, and so are its multiples by powers of two. -/
theorem exists_magnitudeAt {a : Nat} (ha : a ≤ 2 ^ 53) (p : Nat) :
    ∃ q, magnitudeAt q = a * 2 ^ p := by
  induction p generalizing a with
  | zero => exact ⟨0 * 2 ^ 52 + a, magnitudeAt_place ha (.inl rfl)⟩
  | succ p ih =>
    by_cases hfull : 2 ^ 52 ≤ a
    · exact ⟨(p + 1) * 2 ^ 52 + a, magnitudeAt_place ha (.inr hfull)⟩
    · obtain ⟨q, hq⟩ := ih (show 2 * a ≤ 2 ^ 53 by omega)
      exact ⟨q, by rw [hq, Nat.pow_succ, Nat.mul_comm 2 a, Nat.mul_assoc, Nat.mul_comm 2]⟩

/-- A magnitude is at most `2⁵³` times the gap below it. -/
theorem magnitudeAt_le (p : Nat) : magnitudeAt p ≤ 2 ^ 53 * gapAt (p - 1) := by
  cases p with
  | zero => rw [magnitudeAt_zero]; exact Nat.zero_le _
  | succ q =>
    have hsig : (if q / 2 ^ 52 = 0 then q % 2 ^ 52 else 2 ^ 52 + q % 2 ^ 52) + 1 ≤ 2 ^ 53 := by
      split <;> omega
    rw [magnitudeAt_succ, magnitudeAt, ← Nat.succ_mul]
    exact Nat.mul_le_mul_right _ hsig

/-! ## Patterns and ranks -/

theorem pattern_lt (x : Binary64) : x.pattern < 2 ^ 63 := Nat.mod_lt _ (by decide)

theorem pattern_eq (x : Binary64) : x.pattern = x.rank.natAbs := by
  unfold rank
  split <;> omega

theorem isFinite_iff (x : Binary64) : x.isFinite = true ↔ x.rank.natAbs < infinityPattern := by
  rw [isFinite, pattern_eq, decide_eq_true_iff]

theorem isNaN_iff (x : Binary64) : x.isNaN = true ↔ infinityPattern < x.rank.natAbs := by
  rw [isNaN, pattern_eq, decide_eq_true_iff]

theorem not_isNaN_of_rank {x : Binary64} (h : x.rank.natAbs ≤ infinityPattern) :
    x.isNaN = false := by
  rw [← Bool.not_eq_true, isNaN_iff]
  omega

theorem not_isNaN_of_isFinite {x : Binary64} (h : x.isFinite = true) : x.isNaN = false :=
  not_isNaN_of_rank (Nat.le_of_lt ((isFinite_iff x).mp h))

theorem not_isInfinite_of_isFinite {x : Binary64} (h : x.isFinite = true) :
    x.isInfinite = false := by
  rw [isFinite, decide_eq_true_eq] at h
  rw [isInfinite, beq_eq_false_iff_ne]
  omega

theorem pattern_le_infinity {x : Binary64} (h : x.isNaN = false) : x.pattern ≤ infinityPattern := by
  rw [isNaN, decide_eq_false_iff_not] at h
  exact Nat.le_of_not_lt h

theorem isNegative_ofPattern (negative : Bool) {p : Nat} (h : p < 2 ^ 63) :
    (ofPattern negative p).isNegative = negative := by
  have h63 : Nat.pow 2 63 = 9223372036854775808 := by decide
  have h64 : (2 : Nat) ^ 64 = 18446744073709551616 := by decide
  simp only [isNegative, word, ofPattern, UInt64.toNat_ofNat', h63, h64]
  cases negative <;> simp only [Bool.false_eq_true, if_false, if_true, decide_eq_false_iff_not,
    decide_eq_true_eq] <;> omega

theorem rank_ofPattern (negative : Bool) {p : Nat} (h : p < 2 ^ 63) :
    (ofPattern negative p).rank = if negative then -(p : Int) else p := by
  rw [rank, isNegative_ofPattern negative h, pattern_ofPattern negative h]

theorem word_eq (x : Binary64) :
    x.word = (if x.isNegative then Nat.pow 2 63 else 0) + x.pattern := by
  have h63 : Nat.pow 2 63 = 9223372036854775808 := by decide
  have hword : x.word < 2 ^ 64 := x.bits.toNat_lt
  simp only [isNegative, pattern, h63, decide_eq_true_eq]
  split <;> omega

/-- The pattern of a word with a sign in front. -/
theorem eq_ofPattern {bits : UInt64} (negative : Bool) {p : Nat} (hp : p < 2 ^ 63)
    (h : bits.toNat = (if negative then Nat.pow 2 63 else 0) + p) :
    (⟨bits⟩ : Binary64) = ofPattern negative p := by
  have h63 : Nat.pow 2 63 = 9223372036854775808 := by decide
  rw [ofPattern, mk.injEq, ← UInt64.toNat_inj, UInt64.toNat_ofNat', h, Nat.mod_eq_of_lt]
  rw [h63]
  split <;> omega

/-- A double is its sign and its pattern. -/
theorem ofPattern_eq (x : Binary64) : ofPattern x.isNegative x.pattern = x :=
  (eq_ofPattern _ x.pattern_lt (word_eq x)).symm

/-- Only the two zeros share a rank. -/
theorem eq_iff_rank {x y : Binary64} (hne : y.rank ≠ 0) : x = y ↔ x.rank = y.rank := by
  refine ⟨congrArg rank, fun h => ?_⟩
  have hsign : x.isNegative = y.isNegative := by
    unfold rank at h hne
    cases hx : x.isNegative <;> cases hy : y.isNegative
    · rfl
    · simp only [hx, hy, Bool.false_eq_true, ↓reduceIte] at h hne
      omega
    · simp only [hx, hy, Bool.false_eq_true, ↓reduceIte] at h hne
      omega
    · rfl
  rw [← ofPattern_eq x, ← ofPattern_eq y, hsign, pattern_eq, pattern_eq, h]

theorem rank_neg (x : Binary64) : x.neg.rank = -x.rank := by
  rw [neg, rank_ofPattern _ x.pattern_lt, rank]
  cases x.isNegative <;> simp

theorem isFinite_neg (x : Binary64) : x.neg.isFinite = x.isFinite := by
  rw [Bool.eq_iff_iff, isFinite_iff, isFinite_iff, rank_neg, Int.natAbs_neg]

/-! ## Values of ranks -/

/-- The value of the doubles of a rank, in units of `2⁻¹⁰⁷⁴`. -/
def valueAt (rank : Int) : Int :=
  if rank < 0 then -(magnitudeAt rank.natAbs : Int) else magnitudeAt rank.natAbs

theorem valueAt_natCast (p : Nat) : valueAt p = magnitudeAt p := by
  rw [valueAt, if_neg (by omega), Int.natAbs_natCast]

theorem valueAt_neg (r : Int) : valueAt (-r) = -valueAt r := by
  unfold valueAt
  rw [Int.natAbs_neg]
  by_cases hzero : r = 0
  · subst hzero; decide
  · split <;> split <;> omega

theorem scaled_eq (x : Binary64) : x.scaled = valueAt x.rank := by
  rw [scaled, rank, magnitude_eq]
  split
  · rw [valueAt_neg, valueAt_natCast]
  · rw [valueAt_natCast]

theorem scaled_neg (x : Binary64) : x.neg.scaled = -x.scaled := by
  rw [scaled_eq, scaled_eq, rank_neg, valueAt_neg]

theorem valueAt_natCast_succ (p : Nat) : valueAt (p + 1 : Nat) = valueAt p + gapAt p := by
  rw [valueAt_natCast, valueAt_natCast, magnitudeAt_succ, Int.natCast_add]

/-- From a rank to the next one the value grows by the smaller of the gaps beside it, or by more. -/
theorem valueAt_add_le (r : Int) : valueAt r + gapAt (r.natAbs - 1) ≤ valueAt (r + 1) := by
  by_cases hr : 0 ≤ r
  · obtain ⟨p, rfl⟩ := Int.eq_ofNat_of_zero_le hr
    have hgap : gapAt ((p : Int).natAbs - 1) ≤ gapAt p := gapAt_le (by omega)
    rw [show (p : Int) + 1 = (p + 1 : Nat) by omega, valueAt_natCast_succ]
    omega
  · obtain ⟨p, hp⟩ := Int.eq_ofNat_of_zero_le (show 0 ≤ -(r + 1) by omega)
    rw [show r.natAbs - 1 = p by omega, show r + 1 = -(p : Int) by omega,
      show r = -((p + 1 : Nat) : Int) by omega, valueAt_neg, valueAt_neg, valueAt_natCast_succ]
    omega

theorem valueAt_le_sub (r : Int) : valueAt (r - 1) ≤ valueAt r - gapAt (r.natAbs - 1) := by
  have h := valueAt_add_le (-r)
  rw [show -r + 1 = -(r - 1) by omega, valueAt_neg, valueAt_neg, Int.natAbs_neg] at h
  omega

theorem valueAt_strictMono : StrictMono valueAt :=
  strictMono_int_of_lt_succ fun r => by
    have hgap := valueAt_add_le r
    have hpos := gapAt_pos (r.natAbs - 1)
    omega

/-- Doubles are ordered as their ranks are. -/
theorem scaled_lt_iff (x y : Binary64) : x.scaled < y.scaled ↔ x.rank < y.rank := by
  rw [scaled_eq, scaled_eq, valueAt_strictMono.lt_iff_lt]

/-- `x` lies at or below `y`; no double lies beside NaN. -/
def le (x y : Binary64) : Bool := !x.isNaN && !y.isNaN && decide (x.rank ≤ y.rank)

theorem le_iff {x y : Binary64} (hx : x.isNaN = false) (hy : y.isNaN = false) :
    x.le y = true ↔ x.rank ≤ y.rank := by
  simp [le, hx, hy]

theorem lt_iff {x y : Binary64} (hx : x.isNaN = false) (hy : y.isNaN = false) :
    x.lt y = true ↔ x.rank < y.rank := by
  simp [lt, hx, hy]

/-! ## Neighbours -/

theorem rank_infinity : infinity.rank = infinityPattern := by decide

def greatest : Binary64 := ofPattern false (infinityPattern - 1)

theorem rank_greatest : greatest.rank = infinityPattern - 1 := by decide

section

variable {x : Binary64}

theorem nextUp_of_isZero (hzero : x.isZero = true) : x.nextUp = ofPattern false 1 := by
  rw [isZero, beq_iff_eq] at hzero
  have hnan : x.isNaN = false := by
    rw [isNaN, hzero]
    rfl
  have hne : x ≠ infinity := by
    rintro rfl
    exact absurd hzero (by decide)
  simp only [nextUp, hnan, isZero, hzero, Bool.false_or, beq_iff_eq, hne, ↓reduceIte]
  rfl

/-- The word of a negative double that is not zero gets less by one, down to that of `-0.0`. -/
theorem nextUp_of_isNegative (hnan : x.isNaN = false) (hzero : x.isZero = false)
    (hneg : x.isNegative = true) : x.nextUp = ofPattern true (x.pattern - 1) := by
  have h63 : Nat.pow 2 63 = 9223372036854775808 := by decide
  have hne : x ≠ infinity := by
    rintro rfl
    exact absurd hneg (by decide)
  have hpos : x.pattern ≠ 0 := ne_of_beq_false hzero
  have hlt := x.pattern_lt
  have hword := word_eq x
  rw [if_pos hneg, h63] at hword
  have hpred : (x.bits - 1).toNat = x.word - 1 := by
    rw [UInt64.toNat_sub_of_le _ _ (by rw [UInt64.le_iff_toNat_le]; simp [← word.eq_def]; omega)]
    rfl
  simp only [nextUp, hnan, hzero, hneg, Bool.false_or, beq_iff_eq, hne, ↓reduceIte,
    Bool.false_eq_true]
  exact eq_ofPattern true (by omega) (by rw [hpred, if_pos rfl, h63]; omega)

/-- The word of a positive double gets more by one, up to that of infinity. -/
theorem nextUp_of_not_isNegative (hnan : x.isNaN = false) (hne : x ≠ infinity)
    (hzero : x.isZero = false) (hneg : x.isNegative = false) :
    x.nextUp = ofPattern false (x.pattern + 1) := by
  have hinf : infinityPattern = 9218868437227405312 := by decide
  have hle := pattern_le_infinity hnan
  have hword := word_eq x
  rw [if_neg (Bool.eq_false_iff.mp hneg)] at hword
  have hsucc : (x.bits + 1).toNat = x.word + 1 := by
    rw [UInt64.toNat_add, ← word.eq_def]
    exact Nat.mod_eq_of_lt (by simp; omega)
  simp only [nextUp, hnan, hzero, hneg, Bool.false_or, beq_iff_eq, hne, ↓reduceIte,
    Bool.false_eq_true]
  exact eq_ofPattern false (by omega) (by rw [hsucc, if_neg (by decide)]; omega)

theorem rank_nextUp_of_ne (hnan : x.isNaN = false) (hne : x ≠ infinity) :
    x.nextUp.rank = x.rank + 1 := by
  have hlt := x.pattern_lt
  have hle := pattern_le_infinity hnan
  have hinf : infinityPattern < 2 ^ 63 - 1 := by decide
  cases hzero : x.isZero with
  | true =>
    have hrank : x.rank = 0 := by
      rw [isZero, beq_iff_eq, pattern_eq] at hzero
      omega
    rw [nextUp_of_isZero hzero, hrank]
    decide
  | false =>
    have hpos : x.pattern ≠ 0 := ne_of_beq_false hzero
    cases hneg : x.isNegative with
    | true =>
      rw [nextUp_of_isNegative hnan hzero hneg, rank_ofPattern _ (by omega), rank, if_pos hneg,
        if_pos rfl]
      omega
    | false =>
      rw [nextUp_of_not_isNegative hnan hne hzero hneg, rank_ofPattern _ (by omega), rank, hneg]
      simp only [Bool.false_eq_true, ↓reduceIte]
      omega

theorem ne_infinity_of_isFinite (hx : x.isFinite = true) : x ≠ infinity := by
  rintro rfl
  exact absurd hx (by decide)

theorem rank_nextUp (hx : x.isFinite = true) : x.nextUp.rank = x.rank + 1 :=
  rank_nextUp_of_ne (not_isNaN_of_isFinite hx) (ne_infinity_of_isFinite hx)

theorem rank_nextDown (hx : x.isFinite = true) : x.nextDown.rank = x.rank - 1 := by
  rw [nextDown, rank_neg, rank_nextUp (by rwa [isFinite_neg]), rank_neg]
  omega

end

end DocStore.Binary64
