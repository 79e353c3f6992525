import DocStore.Proofs.Binary64.Order

/-!
# Rounding keeps the order

Rounding a quotient does not pass a double on either side of it (`roundPattern_le`,
`le_roundPattern`). In ranks: a sum between two doubles is rounded to one of them or to a double
between them (`rank_add_between`), and a double is rounded to itself. With that the integers of at
most 53 bits are doubles (`scaled_ofInt`).
-/

namespace DocStore.Binary64

/-- The pattern that a quotient is rounded to, before it is cut off at infinity. -/
def roundPattern (n d : Nat) : Nat :=
  placeExponent n d * 2 ^ 52 + nearestEven n (d * 2 ^ placeExponent n d)

theorem roundRatio_eq (negative : Bool) (n d : Nat) :
    roundRatio negative n d = ofPattern negative (min (roundPattern n d) infinityPattern) := rfl

theorem nearestEven_ge (n d : Nat) : n / d ≤ nearestEven n d := by
  unfold nearestEven
  dsimp only
  split
  · omega
  · split <;> omega

/-- Rounding to an integer does not pass an integer above the quotient. -/
theorem nearestEven_le_of_le {n d k : Nat} (hd : 0 < d) (h : n ≤ d * k) : nearestEven n d ≤ k := by
  have hdiv : n / d ≤ k := Nat.div_le_of_le_mul h
  by_cases hk : n / d = k
  · have hmod : n % d = 0 := by
      have := Nat.div_add_mod n d
      rw [hk] at this
      omega
    unfold nearestEven
    dsimp only
    rw [hmod, if_pos (by omega)]
    exact hdiv
  · have := nearestEven_le n d
    omega

theorem le_nearestEven_of_le {n d k : Nat} (hd : 0 < d) (h : d * k ≤ n) : k ≤ nearestEven n d :=
  Nat.le_trans ((Nat.le_div_iff_mul_le hd).mpr (by rwa [Nat.mul_comm])) (nearestEven_ge n d)

/-- The place is the least one: below it, the significand would not have 53 bits. -/
theorem place_le {n d : Nat} (h : 0 < placeExponent n d) :
    d * 2 ^ (placeExponent n d + 52) ≤ n := by
  have hn : n ≠ 0 := by
    rintro rfl
    simp [placeExponent, Nat.log2_zero] at h
  have hlow : 2 ^ n.log2 ≤ n := Nat.log2_self_le hn
  have hup : d < 2 ^ (d.log2 + 1) := Nat.lt_log2_self
  unfold placeExponent at h ⊢
  dsimp only at h ⊢
  split
  · rename_i hcorrect
    rw [if_pos hcorrect] at h
    calc d * 2 ^ (n.log2 - (d.log2 + 52) - 1 + 52)
        ≤ 2 ^ (d.log2 + 1) * 2 ^ (n.log2 - (d.log2 + 52) - 1 + 52) :=
          Nat.mul_le_mul_right _ (Nat.le_of_lt hup)
      _ = 2 ^ n.log2 := by rw [← Nat.pow_add]; congr 1; omega
      _ ≤ n := hlow
  · rename_i hcorrect
    rw [if_neg hcorrect] at h
    exact Nat.le_of_not_lt fun hlt => hcorrect ⟨h, hlt⟩

/-- A magnitude is a multiple of a unit, or has too few bits for it. -/
theorem magnitudeAt_multiple (q p : Nat) :
    (∃ k, magnitudeAt q = k * 2 ^ p) ∨ (0 < p ∧ magnitudeAt q < 2 ^ (p + 52)) := by
  by_cases hp : p ≤ q / 2 ^ 52 - 1
  · left
    refine ⟨(if q / 2 ^ 52 = 0 then q % 2 ^ 52 else 2 ^ 52 + q % 2 ^ 52) *
      2 ^ (q / 2 ^ 52 - 1 - p), ?_⟩
    rw [Nat.mul_assoc, ← Nat.pow_add, Nat.sub_add_cancel hp]
    rfl
  · right
    refine ⟨by omega, ?_⟩
    calc magnitudeAt q < magnitudeAt (q + 1) := magnitudeAt_strictMono (Nat.lt_succ_self q)
      _ ≤ 2 ^ 53 * gapAt q := magnitudeAt_le (q + 1)
      _ = 2 ^ (53 + (q / 2 ^ 52 - 1)) := (Nat.pow_add ..).symm
      _ ≤ 2 ^ (p + 52) := Nat.pow_le_pow_right (by omega) (by omega)

section

variable {n d q : Nat}

theorem significand_bounds (hd : 0 < d) :
    nearestEven n (d * 2 ^ placeExponent n d) ≤ 2 ^ 53 ∧
      (placeExponent n d = 0 ∨ 2 ^ 52 ≤ nearestEven n (d * 2 ^ placeExponent n d)) := by
  have hunit : 0 < d * 2 ^ placeExponent n d := Nat.mul_pos hd (Nat.two_pow_pos _)
  constructor
  · refine nearestEven_le_of_le hunit ?_
    rw [Nat.mul_assoc, ← Nat.pow_add]
    exact Nat.le_of_lt (lt_place n hd)
  · by_cases hp : placeExponent n d = 0
    · exact .inl hp
    · refine .inr (le_nearestEven_of_le hunit ?_)
      rw [Nat.mul_assoc, ← Nat.pow_add]
      exact place_le (by omega)

theorem magnitudeAt_roundPattern (hd : 0 < d) :
    magnitudeAt (roundPattern n d) =
      nearestEven n (d * 2 ^ placeExponent n d) * 2 ^ placeExponent n d :=
  magnitudeAt_place (significand_bounds hd).1 (significand_bounds hd).2

theorem roundPattern_le_place {k : Nat} (hn : n < 2 ^ k) (hd : 0 < d) :
    roundPattern n d ≤ (k - 53) * 2 ^ 52 + 2 ^ 53 :=
  Nat.add_le_add (Nat.mul_le_mul_right _ (placeExponent_le hn d)) (significand_bounds hd).1

/-- A quotient is not rounded past a double above it. -/
theorem roundPattern_le (hd : 0 < d) (h : n ≤ d * magnitudeAt q) : roundPattern n d ≤ q := by
  rw [← magnitudeAt_strictMono.le_iff_le, magnitudeAt_roundPattern hd]
  rcases magnitudeAt_multiple q (placeExponent n d) with ⟨k, hk⟩ | ⟨hp, hlt⟩
  · rw [hk]
    refine Nat.mul_le_mul_right _ (nearestEven_le_of_le (Nat.mul_pos hd (Nat.two_pow_pos _)) ?_)
    rwa [hk, Nat.mul_comm k, ← Nat.mul_assoc] at h
  · have hplace := place_le hp
    have hfew := Nat.mul_lt_mul_of_pos_left hlt hd
    omega

theorem le_roundPattern (hd : 0 < d) (h : d * magnitudeAt q ≤ n) : q ≤ roundPattern n d := by
  rw [← magnitudeAt_strictMono.le_iff_le, magnitudeAt_roundPattern hd]
  rcases magnitudeAt_multiple q (placeExponent n d) with ⟨k, hk⟩ | ⟨hp, hlt⟩
  · rw [hk]
    refine Nat.mul_le_mul_right _ (le_nearestEven_of_le (Nat.mul_pos hd (Nat.two_pow_pos _)) ?_)
    rwa [hk, Nat.mul_comm k, ← Nat.mul_assoc] at h
  · have hsig := (significand_bounds (n := n) hd).2.resolve_left (by omega)
    calc magnitudeAt q ≤ 2 ^ (placeExponent n d + 52) := Nat.le_of_lt hlt
      _ = 2 ^ 52 * 2 ^ placeExponent n d := by rw [Nat.add_comm, Nat.pow_add]
      _ ≤ _ := Nat.mul_le_mul_right _ hsig

end

/-! ## Ranks of rounded sums -/

/-- The double nearest to a whole number of units. -/
def roundUnits (s : Int) : Binary64 := roundRatio (s < 0) s.natAbs 1

/-- The rank of a rounded quotient without its sign. -/
def roundRank (n d : Nat) : Nat := min (roundPattern n d) infinityPattern

theorem roundRank_le_infinity (n d : Nat) : roundRank n d ≤ infinityPattern := Nat.min_le_right _ _

theorem roundRank_le_pattern (n d : Nat) : roundRank n d ≤ roundPattern n d := Nat.min_le_left _ _

theorem rank_roundRatio (negative : Bool) (n d : Nat) :
    (roundRatio negative n d).rank =
      if negative then -(roundRank n d : Int) else roundRank n d := by
  have hinf : infinityPattern < 2 ^ 63 := by decide
  have hle := roundRank_le_infinity n d
  rw [roundRatio_eq, ← roundRank, rank_ofPattern _ (by omega)]

theorem le_roundRank {n : Nat} {r : Int} (hr : r ≤ infinityPattern) (h : valueAt r ≤ n) :
    r ≤ roundRank n 1 := by
  by_cases hneg : r < 0
  · omega
  · obtain ⟨q, rfl⟩ := Int.eq_ofNat_of_zero_le (show 0 ≤ r by omega)
    rw [valueAt_natCast] at h
    have hq : q ≤ roundPattern n 1 := le_roundPattern Nat.one_pos (by omega)
    unfold roundRank
    omega

theorem roundRank_le {n : Nat} {r : Int} (h : (n : Int) ≤ valueAt r) : roundRank n 1 ≤ r := by
  have hr : 0 ≤ r := by
    rw [← valueAt_strictMono.le_iff_le, show valueAt 0 = 0 by decide]
    omega
  obtain ⟨q, rfl⟩ := Int.eq_ofNat_of_zero_le hr
  rw [valueAt_natCast] at h
  have hq : roundPattern n 1 ≤ q := roundPattern_le Nat.one_pos (by omega)
  unfold roundRank
  omega

theorem rank_roundUnits (s : Int) :
    (roundUnits s).rank =
      if s < 0 then -(roundRank s.natAbs 1 : Int) else roundRank s.natAbs 1 := by
  rw [roundUnits, rank_roundRatio]
  simp only [decide_eq_true_eq]

section

variable {s r : Int}

/-- A sum is not rounded past a double below it. -/
theorem le_rank_roundUnits (hr : r ≤ infinityPattern) (h : valueAt r ≤ s) :
    r ≤ (roundUnits s).rank := by
  rw [rank_roundUnits]
  split
  · have hneg : (s.natAbs : Int) ≤ valueAt (-r) := by rw [valueAt_neg]; omega
    have := roundRank_le hneg
    omega
  · exact le_roundRank hr (by omega)

theorem rank_roundUnits_le (hr : -infinityPattern ≤ r) (h : s ≤ valueAt r) :
    (roundUnits s).rank ≤ r := by
  rw [rank_roundUnits]
  split
  · have hneg : valueAt (-r) ≤ s.natAbs := by rw [valueAt_neg]; omega
    have := le_roundRank (show -r ≤ infinityPattern by omega) hneg
    omega
  · exact roundRank_le (by omega)

theorem rank_roundUnits_valueAt (hr : r.natAbs ≤ infinityPattern) :
    (roundUnits (valueAt r)).rank = r :=
  Int.le_antisymm (rank_roundUnits_le (by omega) (Int.le_refl _))
    (le_rank_roundUnits (by omega) (Int.le_refl _))

end

theorem rank_add_eq (x y : Binary64) :
    (x.add y).rank = (roundUnits (x.scaled + y.scaled)).rank := by
  unfold add
  dsimp only
  split
  · rename_i hzero
    rw [hzero, rank_ofPattern _ (by decide)]
    cases x.isNegative <;> cases y.isNegative <;> decide
  · rfl

/-- A sum between two doubles is rounded to one of them or to a double between them. -/
theorem rank_add_between {x y : Binary64} {a b : Int} (ha : a ≤ infinityPattern)
    (hb : -infinityPattern ≤ b) (hlow : valueAt a ≤ x.scaled + y.scaled)
    (hup : x.scaled + y.scaled ≤ valueAt b) : a ≤ (x.add y).rank ∧ (x.add y).rank ≤ b := by
  rw [rank_add_eq]
  exact ⟨le_rank_roundUnits ha hlow, rank_roundUnits_le hb hup⟩

/-! ## Integers -/

def units (i : Int) : Int := i * one

theorem one_eq : one = 2 ^ 1074 := by
  unfold one
  generalize 1074 = c
  exact Nat.pow_eq

theorem one_pos : 0 < one := by decide +kernel

theorem units_lt_units {i j : Int} : units i < units j ↔ i < j :=
  Int.mul_lt_mul_right (Int.natCast_pos.mpr one_pos)

theorem units_le_units {i j : Int} : units i ≤ units j ↔ i ≤ j :=
  Int.mul_le_mul_right (Int.natCast_pos.mpr one_pos)

theorem units_natAbs (i : Int) : (units i).natAbs = i.natAbs * one := by
  rw [units, Int.natAbs_mul, Int.natAbs_natCast]

theorem ofInt_eq (i : Int) : ofInt i = roundUnits (units i) := by
  have hneg : units i < 0 ↔ i < 0 := by
    have h := @units_lt_units i 0
    rwa [units.eq_def 0, Int.zero_mul] at h
  rw [ofInt, roundUnits, units_natAbs]
  simp only [hneg]

theorem units_natAbs_lt {i : Int} {k : Nat} (h : i.natAbs < 2 ^ k) :
    (units i).natAbs < 2 ^ (k + 1074) := by
  rw [units_natAbs, one_eq]
  generalize 1074 = c
  rw [Nat.pow_add]
  exact Nat.mul_lt_mul_of_pos_right h (Nat.two_pow_pos c)

/-- Integers of few bits are rounded to doubles far below infinity. -/
theorem rank_ofInt_natAbs_le {i : Int} {k : Nat} (h : i.natAbs < 2 ^ k) :
    (ofInt i).rank.natAbs ≤ (k + 1021) * 2 ^ 52 + 2 ^ 53 := by
  have hpattern := roundPattern_le_place (units_natAbs_lt h) Nat.one_pos
  have hrank := roundRank_le_pattern (units i).natAbs 1
  rw [ofInt_eq, rank_roundUnits]
  split <;> omega

/-- Integers of at most 53 bits are doubles. -/
theorem scaled_ofInt {i : Int} (h : i.natAbs ≤ 2 ^ 53) : (ofInt i).scaled = units i := by
  obtain ⟨q, hq⟩ : ∃ q, magnitudeAt q = (units i).natAbs := by
    obtain ⟨q, hq⟩ := exists_magnitudeAt h 1074
    exact ⟨q, by rw [units_natAbs, hq, one_eq]⟩
  have hle : q ≤ infinityPattern := by
    have hpattern := roundPattern_le_place (units_natAbs_lt (show i.natAbs < 2 ^ 54 by omega))
      Nat.one_pos
    have hself : q ≤ roundPattern (units i).natAbs 1 :=
      le_roundPattern Nat.one_pos (by rw [hq, Nat.one_mul])
    exact Nat.le_trans (Nat.le_trans hself hpattern) (by decide)
  obtain ⟨r, hr, hvalue⟩ : ∃ r : Int, r.natAbs ≤ infinityPattern ∧ valueAt r = units i := by
    rcases Int.natAbs_eq (units i) with hpos | hneg
    · exact ⟨q, by omega, by rw [valueAt_natCast, hq, ← hpos]⟩
    · exact ⟨-q, by omega, by rw [valueAt_neg, valueAt_natCast, hq, ← hneg]⟩
  rw [ofInt_eq, scaled_eq, ← hvalue, rank_roundUnits_valueAt hr]

end DocStore.Binary64
