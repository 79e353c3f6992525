import DocStore.Proofs.Binary64.Order
import Mathlib.Order.WithBot

/-!
# Neighbours of doubles

`number?` is the number that a double stands for, infinities included. Comparing doubles compares
these numbers (`lt_iff_below`, `same_iff`). `nextUp` and `nextDown` go to the nearest number on
either side: no double lies between, from the greatest double the way leads to infinity, and back
the way leads to the same number (`nextUp_nextDown_adjacent`). On the way the word of a double gets
more or less by one without wrapping around, and only from zero the sign changes.
-/

namespace DocStore.Binary64

/-- The number that a double stands for, in units of `2⁻¹⁰⁷⁴`; NaN stands for none. -/
def number? (x : Binary64) : Option (WithBot (WithTop Int)) :=
  if x.isNaN then none
  else if x.isInfinite then some (if x.isNegative then ⊥ else ⊤)
  else some (x.scaled : WithTop Int)

/-- The number of `x` is less than that of `y`. -/
def Below (x y : Binary64) : Prop := ∃ a ∈ x.number?, ∃ b ∈ y.number?, a < b

/-- `x` lies below `y`, and no double lies between them. -/
structure Adjacent (x y : Binary64) : Prop where
  below : x.Below y
  nothing_between : ∀ z, ¬(x.Below z ∧ z.Below y)

/-! ## Numbers of ranks -/

/-- The number of the doubles of a rank. -/
def numberAt (rank : Int) : WithBot (WithTop Int) :=
  if infinityPattern ≤ rank then ⊤
  else if rank ≤ -infinityPattern then ⊥
  else (valueAt rank : WithTop Int)

theorem number?_eq {x : Binary64} (h : x.isNaN = false) : x.number? = some (numberAt x.rank) := by
  have hle := pattern_le_infinity h
  have hpattern := pattern_eq x
  have hinf : 0 < infinityPattern := by decide
  rw [number?, h, if_neg Bool.false_ne_true]
  unfold numberAt
  split
  · rename_i hinfinite
    rw [isInfinite, beq_iff_eq] at hinfinite
    cases hneg : x.isNegative with
    | true =>
      have hrank : x.rank = -(x.pattern : Int) := by rw [rank, if_pos hneg]
      rw [if_pos rfl, if_neg (by omega), if_pos (by omega)]
    | false =>
      have hrank : x.rank = x.pattern := by rw [rank, if_neg (by rw [hneg]; decide)]
      rw [if_neg Bool.false_ne_true, if_pos (by omega)]
  · rename_i hfinite
    rw [isInfinite, beq_iff_eq] at hfinite
    rw [if_neg (by omega), if_neg (by omega), scaled_eq]

theorem numberAt_lt {r s : Int} (hr : -infinityPattern ≤ r) (hs : s ≤ infinityPattern)
    (h : r < s) : numberAt r < numberAt s := by
  have hinf : 0 < infinityPattern := by decide
  unfold numberAt
  rw [if_neg (by omega), if_neg (show ¬s ≤ -(infinityPattern : Int) by omega)]
  split
  · split
    · exact bot_lt_top
    · exact WithBot.bot_lt_coe _
  · split
    · exact WithBot.coe_lt_coe.mpr (WithTop.coe_lt_top _)
    · exact WithBot.coe_lt_coe.mpr (WithTop.coe_lt_coe.mpr (valueAt_strictMono h))

theorem numberAt_strictMonoOn :
    StrictMonoOn numberAt (Set.Icc (-infinityPattern : Int) infinityPattern) :=
  fun _ hr _ hs h => numberAt_lt hr.1 hs.2 h

theorem rank_mem_Icc {x : Binary64} (h : x.isNaN = false) :
    x.rank ∈ Set.Icc (-infinityPattern : Int) infinityPattern := by
  have hle := pattern_le_infinity h
  rw [pattern_eq] at hle
  exact ⟨by omega, by omega⟩

theorem number?_of_isNaN {x : Binary64} (h : x.isNaN = true) : x.number? = none := by
  rw [number?, if_pos h]

/-- Doubles are compared as the numbers that they stand for. -/
theorem lt_iff_below (x y : Binary64) : x.lt y = true ↔ x.Below y := by
  unfold Below
  cases hx : x.isNaN with
  | true => simp [lt, hx, number?_of_isNaN]
  | false =>
    cases hy : y.isNaN with
    | true => simp [lt, hy, number?_of_isNaN]
    | false =>
      rw [lt_iff hx hy, number?_eq hx, number?_eq hy,
        ← numberAt_strictMonoOn.lt_iff_lt (rank_mem_Icc hx) (rank_mem_Icc hy)]
      simp

theorem same_iff (x y : Binary64) :
    x.same y = true ↔ ∃ a, x.number? = some a ∧ y.number? = some a := by
  cases hx : x.isNaN with
  | true => simp [same, hx, number?_of_isNaN]
  | false =>
    cases hy : y.isNaN with
    | true => simp [same, hy, number?_of_isNaN]
    | false =>
      have heq := numberAt_strictMonoOn.injOn.eq_iff (rank_mem_Icc hx) (rank_mem_Icc hy)
      simp [same, hx, hy, number?_eq, ← heq, eq_comm]

/-! ## Steps -/

section

variable {x y : Binary64}

/-- Doubles of ranks next to each other are neighbours: only the two zeros share a rank, and they
are no numbers apart. -/
theorem adjacent_of_rank (hx : x.isNaN = false) (hy : y.isNaN = false)
    (h : y.rank = x.rank + 1) : x.Adjacent y where
  below := (lt_iff_below x y).mp ((lt_iff hx hy).mpr (by omega))
  nothing_between z := by
    rintro ⟨hxz, hzy⟩
    have hz : z.isNaN = false := by
      obtain ⟨_, _, b, hb, _⟩ := hxz
      rw [← Bool.not_eq_true]
      intro hnan
      rw [number?_of_isNaN hnan] at hb
      cases hb
    rw [← lt_iff_below, lt_iff hx hz] at hxz
    rw [← lt_iff_below, lt_iff hz hy] at hzy
    omega

theorem isNegative_neg (x : Binary64) : x.neg.isNegative = !x.isNegative :=
  isNegative_ofPattern _ x.pattern_lt

theorem pattern_neg (x : Binary64) : x.neg.pattern = x.pattern :=
  pattern_ofPattern _ x.pattern_lt

theorem isNaN_neg (x : Binary64) : x.neg.isNaN = x.isNaN := by
  rw [isNaN, isNaN, pattern_neg]

theorem isZero_neg (x : Binary64) : x.neg.isZero = x.isZero := by
  rw [isZero, isZero, pattern_neg]

theorem neg_neg (x : Binary64) : x.neg.neg = x := by
  rw [neg, isNegative_neg, pattern_neg, Bool.not_not, ofPattern_eq]

theorem neg_ofPattern (negative : Bool) {p : Nat} (h : p < 2 ^ 63) :
    (ofPattern negative p).neg = ofPattern (!negative) p := by
  rw [neg, isNegative_ofPattern negative h, pattern_ofPattern negative h]

theorem neg_ne_infinity (h : x ≠ infinity.neg) : x.neg ≠ infinity := by
  rintro hinf
  rw [← hinf, neg_neg] at h
  exact h rfl

theorem word_ofPattern (negative : Bool) {p : Nat} (h : p < 2 ^ 63) :
    (ofPattern negative p).word = (if negative then 2 ^ 63 else 0) + p := by
  rw [word_eq, isNegative_ofPattern negative h, pattern_ofPattern negative h]
  rfl

theorem nextDown_of_isZero (hzero : x.isZero = true) : x.nextDown = ofPattern true 1 := by
  rw [nextDown, nextUp_of_isZero (by rwa [isZero_neg])]
  decide

theorem nextDown_of_not_isNegative (hnan : x.isNaN = false) (hzero : x.isZero = false)
    (hneg : x.isNegative = false) : x.nextDown = ofPattern false (x.pattern - 1) := by
  have hlt := x.pattern_lt
  rw [nextDown, nextUp_of_isNegative (by rwa [isNaN_neg]) (by rwa [isZero_neg])
    (by rw [isNegative_neg, hneg]; rfl), pattern_neg, neg_ofPattern _ (by omega)]
  rfl

theorem nextDown_of_isNegative (hnan : x.isNaN = false) (hne : x ≠ infinity.neg)
    (hzero : x.isZero = false) (hneg : x.isNegative = true) :
    x.nextDown = ofPattern true (x.pattern + 1) := by
  have hle := pattern_le_infinity hnan
  have hinf : infinityPattern < 2 ^ 63 - 1 := by decide
  rw [nextDown, nextUp_of_not_isNegative (by rwa [isNaN_neg]) (neg_ne_infinity hne)
    (by rwa [isZero_neg]) (by rw [isNegative_neg, hneg]; rfl), pattern_neg,
    neg_ofPattern _ (by omega)]
  rfl

theorem isNaN_nextUp (hx : x.isNaN = false) : x.nextUp.isNaN = false := by
  by_cases hne : x = infinity
  · subst hne
    decide
  · refine not_isNaN_of_rank ?_
    have hlt : x.rank ≠ infinityPattern := fun h => hne ((eq_iff_rank (by decide)).mpr h)
    obtain ⟨hlow, hup⟩ := rank_mem_Icc hx
    rw [rank_nextUp_of_ne hx hne]
    omega

theorem isNaN_nextDown (hx : x.isNaN = false) : x.nextDown.isNaN = false := by
  rw [nextDown, isNaN_neg]
  exact isNaN_nextUp (by rwa [isNaN_neg])

/-- `y` is one step above `x` among the words, on the same side of zero. -/
structure Step (x y : Binary64) : Prop where
  sign : y.isNegative = x.isNegative
  word : if x.isNegative then y.word + 1 = x.word else y.word = x.word + 1

theorem step_ofPattern (negative : Bool) {p q : Nat} (hp : p < 2 ^ 63) (hq : q < 2 ^ 63)
    (h : if negative then q + 1 = p else q = p + 1) :
    Step (ofPattern negative p) (ofPattern negative q) where
  sign := by rw [isNegative_ofPattern _ hp, isNegative_ofPattern _ hq]
  word := by
    rw [isNegative_ofPattern _ hp, word_ofPattern _ hp, word_ofPattern _ hq]
    cases negative <;> simp only [Bool.false_eq_true, ↓reduceIte] at h ⊢ <;> omega

theorem step_nextUp (hnan : x.isNaN = false) (hne : x ≠ infinity) (hzero : x.isZero = false) :
    Step x x.nextUp := by
  have hlt := x.pattern_lt
  have hpos : x.pattern ≠ 0 := ne_of_beq_false hzero
  have hle := pattern_le_infinity hnan
  have hinf : infinityPattern < 2 ^ 63 - 1 := by decide
  cases hneg : x.isNegative with
  | true =>
    have h := step_ofPattern true hlt (show x.pattern - 1 < 2 ^ 63 by omega) (by simp; omega)
    rwa [← nextUp_of_isNegative hnan hzero hneg, ← hneg, ofPattern_eq] at h
  | false =>
    have h := step_ofPattern false hlt (show x.pattern + 1 < 2 ^ 63 by omega) rfl
    rwa [← nextUp_of_not_isNegative hnan hne hzero hneg, ← hneg, ofPattern_eq] at h

theorem step_nextDown (hnan : x.isNaN = false) (hne : x ≠ infinity.neg)
    (hzero : x.isZero = false) : Step x.nextDown x := by
  have hlt := x.pattern_lt
  have hpos : x.pattern ≠ 0 := ne_of_beq_false hzero
  have hle := pattern_le_infinity hnan
  have hinf : infinityPattern < 2 ^ 63 - 1 := by decide
  cases hneg : x.isNegative with
  | true =>
    have h := step_ofPattern true (show x.pattern + 1 < 2 ^ 63 by omega) hlt rfl
    rwa [← nextDown_of_isNegative hnan hne hzero hneg, ← hneg, ofPattern_eq] at h
  | false =>
    have h := step_ofPattern false (show x.pattern - 1 < 2 ^ 63 by omega) hlt (by simp; omega)
    rwa [← nextDown_of_not_isNegative hnan hzero hneg, ← hneg, ofPattern_eq] at h

end

/-! ## Neighbours of finite doubles -/

section

variable {x : Binary64}

theorem isFinite_nextUp (hx : x.isFinite = true) (hne : x ≠ greatest) :
    x.nextUp.isFinite = true := by
  have hrank : x.rank ≠ infinityPattern - 1 := fun h => hne ((eq_iff_rank (by decide)).mpr h)
  have hsucc := rank_nextUp hx
  rw [isFinite_iff] at hx ⊢
  omega

theorem isFinite_nextDown (hx : x.isFinite = true) (hne : x ≠ greatest.neg) :
    x.nextDown.isFinite = true := by
  have hne' : x.neg ≠ greatest := by
    rintro h
    rw [← h, neg_neg] at hne
    exact hne rfl
  rw [nextDown, isFinite_neg]
  exact isFinite_nextUp (by rwa [isFinite_neg]) hne'

theorem adjacent_nextUp (hx : x.isFinite = true) : x.Adjacent x.nextUp :=
  adjacent_of_rank (not_isNaN_of_isFinite hx) (isNaN_nextUp (not_isNaN_of_isFinite hx))
    (rank_nextUp hx)

theorem nextDown_adjacent (hx : x.isFinite = true) : x.nextDown.Adjacent x :=
  adjacent_of_rank (isNaN_nextDown (not_isNaN_of_isFinite hx)) (not_isNaN_of_isFinite hx)
    (by rw [rank_nextDown hx]; omega)

theorem same_of_rank {y : Binary64} (hx : x.isNaN = false) (hy : y.isNaN = false)
    (h : x.rank = y.rank) : x.same y = true := by
  simp [same, hx, hy, h]

/-- Down again from the double above. This holds of minus infinity too. -/
theorem nextDown_nextUp_same (h : x.nextUp.isFinite = true) : x.nextUp.nextDown.same x = true := by
  have hnan : x.isNaN = false := by
    rw [← Bool.not_eq_true]
    intro hnan
    have hself : x.nextUp = x := by rw [nextUp, hnan, Bool.true_or, if_pos rfl]
    rw [hself] at h
    rw [not_isNaN_of_isFinite h] at hnan
    cases hnan
  have hne : x ≠ infinity := by
    rintro rfl
    exact absurd h (by decide)
  refine same_of_rank (isNaN_nextDown (not_isNaN_of_isFinite h)) hnan ?_
  rw [rank_nextDown h, rank_nextUp_of_ne hnan hne]
  omega

theorem same_neg (x y : Binary64) : x.neg.same y.neg = x.same y := by
  have hrank : x.neg.rank = y.neg.rank ↔ x.rank = y.rank := by
    rw [rank_neg, rank_neg]
    omega
  simp only [same, isNaN_neg, hrank]

theorem nextUp_nextDown_same (h : x.nextDown.isFinite = true) :
    x.nextDown.nextUp.same x = true := by
  rw [nextDown, isFinite_neg] at h
  have hback := nextDown_nextUp_same h
  rwa [← same_neg, nextDown, neg_neg, neg_neg] at hback

end

/-- The order and the equality of doubles are those of the numbers that they stand for. In it
`nextUp` and `nextDown` are the neighbours of a finite double; they are finite but for those beyond
the greatest doubles, which are infinite, and each leads back to the number that the other came
from. They are never NaN. From either zero they go to the least double of either sign, and from
elsewhere to a word one more or one less of the same sign. -/
theorem nextUp_nextDown_adjacent :
    (∀ x y : Binary64, (x.lt y = true ↔ x.Below y) ∧
      (x.same y = true ↔ ∃ a, x.number? = some a ∧ y.number? = some a)) ∧
    (∀ x : Binary64, x.isFinite = true →
      (x.lt x.nextUp = true ∧ x.Adjacent x.nextUp ∧ (x ≠ greatest → x.nextUp.isFinite = true)) ∧
      (x.nextDown.lt x = true ∧ x.nextDown.Adjacent x ∧
        (x ≠ greatest.neg → x.nextDown.isFinite = true))) ∧
    greatest.nextUp = infinity ∧ greatest.neg.nextDown = infinity.neg ∧
    (∀ x : Binary64,
      (x.nextUp.isFinite = true → x.nextUp.nextDown.same x = true) ∧
      (x.nextDown.isFinite = true → x.nextDown.nextUp.same x = true)) ∧
    ∀ x : Binary64, x.isNaN = false →
      x.nextUp.isNaN = false ∧ x.nextDown.isNaN = false ∧
      (x.isZero = true → x.nextUp.word = 1 ∧ x.nextDown.word = 2 ^ 63 + 1) ∧
      (x.isZero = false →
        (x ≠ infinity → Step x x.nextUp) ∧ (x ≠ infinity.neg → Step x.nextDown x)) := by
  refine ⟨fun x y => ⟨lt_iff_below x y, same_iff x y⟩, fun x hx => ⟨?_, ?_⟩, by decide, by decide,
    fun x => ⟨nextDown_nextUp_same, nextUp_nextDown_same⟩, fun x hnan => ?_⟩
  · have hadjacent := adjacent_nextUp hx
    exact ⟨(lt_iff_below _ _).mpr hadjacent.below, hadjacent, isFinite_nextUp hx⟩
  · have hadjacent := nextDown_adjacent hx
    exact ⟨(lt_iff_below _ _).mpr hadjacent.below, hadjacent, isFinite_nextDown hx⟩
  · refine ⟨isNaN_nextUp hnan, isNaN_nextDown hnan, fun hzero => ?_, fun hzero => ?_⟩
    · rw [nextUp_of_isZero hzero, nextDown_of_isZero hzero]
      decide
    · exact ⟨fun hne => step_nextUp hnan hne hzero, fun hne => step_nextDown hnan hne hzero⟩

def greatestNegative : Binary64 := ⟨0x8000000000000001⟩

/-- From there the way up leads to `-0.0` and on to the least positive double. -/
theorem nextUp_nextDown_adjacent_zero :
    greatestNegative.nextUp = zero.neg ∧ greatestNegative.Adjacent zero.neg ∧
      Step greatestNegative zero.neg ∧ zero.neg.nextUp = ⟨1⟩ ∧ zero.neg.Adjacent ⟨1⟩ ∧
      zero.neg.nextUp.nextDown.same zero.neg = true ∧ greatest.Adjacent infinity := by
  obtain ⟨-, hfinite, hgreatest, -, hback, hsteps⟩ := nextUp_nextDown_adjacent
  have hleast : greatestNegative.nextUp = zero.neg := by decide
  have hzero : zero.neg.nextUp = ⟨1⟩ := by decide
  refine ⟨hleast, hleast ▸ (hfinite greatestNegative (by decide)).1.2.1,
    hleast ▸ ((hsteps greatestNegative (by decide)).2.2.2 (by decide)).1 (by decide), hzero,
    hzero ▸ (hfinite zero.neg (by decide)).1.2.1, (hback zero.neg).1 (by decide),
    hgreatest ▸ (hfinite greatest (by decide)).1.2.1⟩

end DocStore.Binary64
