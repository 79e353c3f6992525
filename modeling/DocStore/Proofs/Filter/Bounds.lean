import DocStore.Proofs.Binary64.Rounding
import DocStore.Proofs.Filter.Outline
import DocStore.Proofs.Filter.Leaf
import DocStore.Proofs.Json.Numbers

/-!
# Exclusive bounds

The moved bound of a double is always its neighbour (`rank_exclusiveLowerBound`,
`rank_exclusiveUpperBound`): the shift is too small to pass it, and where the shift is lost the
neighbour is taken. So `$gt` and `$lte` divide the doubles between them, and so do `$lt` and `$gte`
(`ranges_partition`). Integers are rounded to a double before the bound is moved. Up to `2⁵³` the
bounds are exact on them too; beyond, the integers between two neighbouring doubles are left out
(`integer_bounds`, `not_all_integers_exact`).
-/

namespace DocStore

open Binary64

/-- The range that a relation of order asks for holds the double. -/
def Relation.admits (relation : Relation) (n : Number) (x : Binary64) : Bool :=
  if Filter.isLower relation then (relation.limit n).le x else x.le (relation.limit n)

namespace Filter

/-! ## The shift -/

/-- The relative shift is at most half a unit of the last place. -/
theorem boundShift_le : 2 ^ 53 * boundShift.magnitude ≤ one := by decide +kernel

theorem boundShift_nonneg : boundShift.isNegative = false := by decide +kernel

def shift (x : Binary64) : Binary64 := x.abs.mul boundShift

theorem scaled_shift (x : Binary64) :
    (shift x).scaled =
      magnitudeAt (roundRank (magnitudeAt x.pattern * boundShift.magnitude) one) := by
  have hpattern := x.pattern_lt
  rw [shift, mul, boundShift_nonneg, Binary64.abs, isNegative_ofPattern false hpattern,
    magnitude_eq, pattern_ofPattern false hpattern, scaled_eq, rank_roundRatio,
    if_neg (by decide), valueAt_natCast]

theorem scaled_shift_nonneg (x : Binary64) : 0 ≤ (shift x).scaled := by
  rw [scaled_shift]
  exact Int.natCast_nonneg _

theorem scaled_shift_le (x : Binary64) : (shift x).scaled ≤ gapAt (x.rank.natAbs - 1) := by
  rw [scaled_shift, ← pattern_eq]
  obtain ⟨k, hk⟩ : ∃ k, magnitudeAt k = gapAt (x.pattern - 1) := by
    obtain ⟨k, hk⟩ := exists_magnitudeAt (show 1 ≤ 2 ^ 53 by omega) ((x.pattern - 1) / 2 ^ 52 - 1)
    exact ⟨k, by rw [hk, Nat.one_mul, gapAt]⟩
  have hproduct : magnitudeAt x.pattern * boundShift.magnitude ≤ one * magnitudeAt k := by
    calc magnitudeAt x.pattern * boundShift.magnitude
        ≤ 2 ^ 53 * gapAt (x.pattern - 1) * boundShift.magnitude :=
          Nat.mul_le_mul_right _ (magnitudeAt_le _)
      _ = 2 ^ 53 * boundShift.magnitude * gapAt (x.pattern - 1) := Nat.mul_right_comm ..
      _ ≤ one * gapAt (x.pattern - 1) := Nat.mul_le_mul_right _ boundShift_le
      _ = one * magnitudeAt k := by rw [hk]
  have hround : roundRank (magnitudeAt x.pattern * boundShift.magnitude) one ≤ k :=
    Nat.le_trans (roundRank_le_pattern _ _) (roundPattern_le Binary64.one_pos hproduct)
  rw [← hk, Int.ofNat_le]
  exact magnitudeAt_strictMono.monotone hround

section

variable {x : Binary64}

/-- Moved up, a double stays where it is or becomes the next one. -/
theorem rank_add_shift (h : x.isFinite = true) :
    x.rank ≤ (x.add (shift x)).rank ∧ (x.add (shift x)).rank ≤ x.rank + 1 := by
  have hfinite := (isFinite_iff x).mp h
  have hnonneg := scaled_shift_nonneg x
  have hle := scaled_shift_le x
  have hgap := valueAt_add_le x.rank
  rw [← scaled_eq] at hgap
  exact rank_add_between (by omega) (by omega) (by rw [← scaled_eq]; omega) (by omega)

theorem rank_sub_shift (h : x.isFinite = true) :
    x.rank - 1 ≤ (x.sub (shift x)).rank ∧ (x.sub (shift x)).rank ≤ x.rank := by
  have hfinite := (isFinite_iff x).mp h
  have hnonneg := scaled_shift_nonneg x
  have hle := scaled_shift_le x
  have hgap := valueAt_le_sub x.rank
  rw [← scaled_eq] at hgap
  have hneg : (shift x).neg.scaled = -(shift x).scaled := scaled_neg _
  exact rank_add_between (by omega) (by omega) (by omega) (by rw [← scaled_eq]; omega)

end

/-! ## Bounds and neighbours -/

section

variable {n : Number}

theorem rank_exclusiveLowerBound (h : n.toBinary64.isFinite = true) :
    (exclusiveLowerBound n).rank = n.toBinary64.rank + 1 := by
  have hfinite := (isFinite_iff _).mp h
  have hmoved := rank_add_shift h
  unfold exclusiveLowerBound
  dsimp only
  split
  · rename_i hlt
    rw [lt_iff (not_isNaN_of_isFinite h)
      (not_isNaN_of_rank (by rw [shift] at hmoved; omega))] at hlt
    rw [shift] at hmoved
    omega
  · exact rank_nextUp h

theorem rank_exclusiveUpperBound (h : n.toBinary64.isFinite = true) :
    (exclusiveUpperBound n).rank = n.toBinary64.rank - 1 := by
  have hfinite := (isFinite_iff _).mp h
  have hmoved := rank_sub_shift h
  unfold exclusiveUpperBound
  dsimp only
  split
  · rename_i hlt
    rw [lt_iff (not_isNaN_of_rank (by rw [shift] at hmoved; omega))
      (not_isNaN_of_isFinite h)] at hlt
    rw [shift] at hmoved
    omega
  · exact rank_nextDown h

theorem exclusiveLowerBound_le_iff (h : n.toBinary64.isFinite = true) {x : Binary64}
    (hx : x.isFinite = true) :
    (exclusiveLowerBound n).le x = true ↔ n.toBinary64.scaled < x.scaled := by
  have hfinite := (isFinite_iff _).mp h
  have hrank := rank_exclusiveLowerBound h
  rw [le_iff (not_isNaN_of_rank (by omega)) (not_isNaN_of_isFinite hx), scaled_lt_iff, hrank]
  omega

theorem le_exclusiveUpperBound_iff (h : n.toBinary64.isFinite = true) {x : Binary64}
    (hx : x.isFinite = true) :
    x.le (exclusiveUpperBound n) = true ↔ x.scaled < n.toBinary64.scaled := by
  have hfinite := (isFinite_iff _).mp h
  have hrank := rank_exclusiveUpperBound h
  rw [le_iff (not_isNaN_of_isFinite hx) (not_isNaN_of_rank (by omega)), scaled_lt_iff, hrank]
  omega

/-- Only above the greatest double the lower bound is infinite. -/
theorem exclusiveLowerBound_eq_infinity (h : n.toBinary64.isFinite = true) :
    exclusiveLowerBound n = infinity ↔ n.toBinary64 = greatest := by
  rw [eq_iff_rank (by decide), eq_iff_rank (by decide), rank_exclusiveLowerBound h, rank_infinity,
    rank_greatest]
  omega

theorem isFinite_exclusiveLowerBound (h : n.toBinary64.isFinite = true) :
    (exclusiveLowerBound n).isFinite = true ↔ n.toBinary64 ≠ greatest := by
  have hfinite := (isFinite_iff _).mp h
  rw [isFinite_iff, ne_eq, eq_iff_rank (by decide), rank_exclusiveLowerBound h, rank_greatest]
  omega

theorem exclusiveUpperBound_eq_infinity (h : n.toBinary64.isFinite = true) :
    exclusiveUpperBound n = infinity.neg ↔ n.toBinary64 = greatest.neg := by
  rw [eq_iff_rank (by decide), eq_iff_rank (by decide), rank_exclusiveUpperBound h, rank_neg,
    rank_neg, rank_infinity, rank_greatest]
  omega

theorem isFinite_exclusiveUpperBound (h : n.toBinary64.isFinite = true) :
    (exclusiveUpperBound n).isFinite = true ↔ n.toBinary64 ≠ greatest.neg := by
  have hfinite := (isFinite_iff _).mp h
  rw [isFinite_iff, ne_eq, eq_iff_rank (by decide), rank_exclusiveUpperBound h, rank_neg,
    rank_greatest]
  omega

/-- No double lies between a number and its lower bound. -/
theorem scaled_exclusiveLowerBound_le (h : n.toBinary64.isFinite = true) {x : Binary64}
    (hx : n.toBinary64.scaled < x.scaled) : (exclusiveLowerBound n).scaled ≤ x.scaled := by
  rw [scaled_lt_iff] at hx
  rw [scaled_eq, scaled_eq, valueAt_strictMono.le_iff_le, rank_exclusiveLowerBound h]
  omega

theorem le_scaled_exclusiveUpperBound (h : n.toBinary64.isFinite = true) {x : Binary64}
    (hx : x.scaled < n.toBinary64.scaled) : x.scaled ≤ (exclusiveUpperBound n).scaled := by
  rw [scaled_lt_iff] at hx
  rw [scaled_eq, scaled_eq, valueAt_strictMono.le_iff_le, rank_exclusiveUpperBound h]
  omega

end

/-! ## Ranges of doubles -/

theorem comparison_number (options : Options) (attr : String) {relation : Relation}
    (hr : relation.isRange = true) (n : Number) :
    comparison options attr relation (.number n) =
      if (relation.limit n).isFinite then
        .ok (if isLower relation then .atLeast attr (boundText relation n)
          else .atMost attr (boundText relation n))
      else .error (.rangeOperand relation (String.ofList n.write)) := by
  have hbound : bound? relation n =
      if (relation.limit n).isFinite then some (boundText relation n) else none := by
    cases relation <;> rfl
  unfold comparison range
  dsimp only
  rw [if_pos hr, hbound]
  cases (relation.limit n).isFinite <;> rfl

theorem boundText_double (relation : Relation) (v : Binary64) :
    boundText relation (.double v) = doubleText (relation.limit (.double v)) := by
  cases relation <;> rfl

theorem isFinite_limit {v : Binary64} (hv : v.isFinite = true) (relation : Relation) :
    (relation.limit (.double v)).isFinite = true ↔
      ¬ (relation = .greater ∧ v = greatest ∨ relation = .less ∧ v = greatest.neg) := by
  have hn : (Number.double v).toBinary64.isFinite = true := hv
  cases relation with
  | greater => simpa [Relation.limit, Number.toBinary64] using isFinite_exclusiveLowerBound hn
  | less => simpa [Relation.limit, Number.toBinary64] using isFinite_exclusiveUpperBound hn
  | _ => simpa [Relation.limit] using hn

theorem admits_greater {v x : Binary64} (hv : v.isFinite = true) (hx : x.isFinite = true) :
    Relation.greater.admits (.double v) x = !Relation.lessOrEqual.admits (.double v) x := by
  have hn : (Number.double v).toBinary64.isFinite = true := hv
  have hle : x.le v = true ↔ ¬ v.scaled < x.scaled := by
    rw [le_iff (not_isNaN_of_isFinite hx) (not_isNaN_of_isFinite hv), scaled_lt_iff]
    omega
  rw [Bool.eq_iff_iff, Bool.not_eq_true', ← Bool.not_eq_true]
  show (exclusiveLowerBound (.double v)).le x = true ↔ ¬ x.le v = true
  rw [exclusiveLowerBound_le_iff hn hx, hle, not_not]
  rfl

theorem admits_less {v x : Binary64} (hv : v.isFinite = true) (hx : x.isFinite = true) :
    Relation.less.admits (.double v) x = !Relation.greaterOrEqual.admits (.double v) x := by
  have hn : (Number.double v).toBinary64.isFinite = true := hv
  have hle : v.le x = true ↔ ¬ x.scaled < v.scaled := by
    rw [le_iff (not_isNaN_of_isFinite hv) (not_isNaN_of_isFinite hx), scaled_lt_iff]
    omega
  rw [Bool.eq_iff_iff, Bool.not_eq_true', ← Bool.not_eq_true]
  show x.le (exclusiveUpperBound (.double v)) = true ↔ ¬ v.le x = true
  rw [le_exclusiveUpperBound_iff hn hx, hle, not_not]
  rfl

/-- The ranges of `$gt` and `$lte` for a double hold every double once between them, and so do
those of `$lt` and `$gte`. An exclusive range is refused only if its bound is infinite, at the
greatest and at the least double. -/
theorem ranges_partition {v : Binary64} (hv : v.isFinite = true) :
    (∀ x : Binary64, x.isFinite = true →
      ((exclusiveLowerBound (.double v)).le x = true ↔ v.scaled < x.scaled) ∧
      (x.le (exclusiveUpperBound (.double v)) = true ↔ x.scaled < v.scaled) ∧
      Relation.greater.admits (.double v) x = !Relation.lessOrEqual.admits (.double v) x ∧
      Relation.less.admits (.double v) x = !Relation.greaterOrEqual.admits (.double v) x) ∧
    (exclusiveLowerBound (.double v) = infinity ↔ v = greatest) ∧
    (exclusiveUpperBound (.double v) = infinity.neg ↔ v = greatest.neg) ∧
    ∀ (options : Options) (attr : String) (relation : Relation), relation.isRange = true →
      comparison options attr relation (.number (.double v)) =
        if relation = .greater ∧ v = greatest ∨ relation = .less ∧ v = greatest.neg then
          .error (.rangeOperand relation (String.ofList (Number.double v).write))
        else if isLower relation then
          .ok (.atLeast attr (doubleText (relation.limit (.double v))))
        else .ok (.atMost attr (doubleText (relation.limit (.double v)))) := by
  have hn : (Number.double v).toBinary64.isFinite = true := hv
  refine ⟨fun x hx => ⟨exclusiveLowerBound_le_iff hn hx, le_exclusiveUpperBound_iff hn hx,
    admits_greater hv hx, admits_less hv hx⟩, exclusiveLowerBound_eq_infinity hn,
    exclusiveUpperBound_eq_infinity hn, fun options attr relation hr => ?_⟩
  rw [comparison_number options attr hr, boundText_double, apply_ite Except.ok]
  by_cases hlimit : relation = .greater ∧ v = greatest ∨ relation = .less ∧ v = greatest.neg
  · rw [if_pos hlimit, if_neg fun h => (isFinite_limit hv relation).mp h hlimit]
  · rw [if_neg hlimit, if_pos ((isFinite_limit hv relation).mpr hlimit)]

def minusOne : Binary64 := ⟨0xBFF0000000000000⟩

theorem ranges_partition_minusOne :
    minusOne.isFinite = true ∧ (⟨0xBFEFFFFFFFFFFFFF⟩ : Binary64).isFinite = true ∧
      (exclusiveLowerBound (.double minusOne)).le ⟨0xBFEFFFFFFFFFFFFF⟩ = true ∧
      Relation.lessOrEqual.admits (.double minusOne) ⟨0xBFEFFFFFFFFFFFFF⟩ = false ∧
      comparison {} "a" .less (.number (.double minusOne)) =
        .ok (.atMost "a" "-1.0000000000000002") := by
  have hv : minusOne.isFinite = true := by decide
  have hx : (⟨0xBFEFFFFFFFFFFFFF⟩ : Binary64).isFinite = true := by decide
  obtain ⟨hranges, _, _, hwritten⟩ := ranges_partition hv
  obtain ⟨hlower, _, hsplit, _⟩ := hranges _ hx
  have habove : (exclusiveLowerBound (.double minusOne)).le ⟨0xBFEFFFFFFFFFFFFF⟩ = true :=
    hlower.mpr (by decide +kernel)
  refine ⟨hv, hx, habove, ?_, ?_⟩
  · rw [← Bool.not_eq_true', ← hsplit]
    exact habove
  · have htext : doubleText (Relation.less.limit (.double minusOne)) = "-1.0000000000000002" := by
      decide +kernel
    rw [hwritten {} "a" .less rfl, if_neg (by decide), if_neg (by decide), htext]

/-! ## Integers -/

section

variable {n m : Int}

theorem natAbs_lt_of_integerRange (h : Number.integerRange n = true) : n.natAbs < 2 ^ 65 := by
  simp only [Number.integerRange, Bool.and_eq_true, decide_eq_true_eq] at h
  omega

theorem isFinite_integer (h : Number.integerRange n = true) :
    (Number.integer n).toBinary64.isFinite = true :=
  Number.isFinite_toBinary64 h

/-- The rank of an integer of 64 bits is far from that of infinity. -/
theorem rank_integer_natAbs_lt (h : Number.integerRange n = true) :
    (ofInt n).rank.natAbs + 1 < infinityPattern := by
  have hle := rank_ofInt_natAbs_le (natAbs_lt_of_integerRange h)
  have hinf : infinityPattern = 9218868437227405312 := by decide
  omega

theorem isFinite_integer_bounds (h : Number.integerRange n = true) :
    (exclusiveLowerBound (.integer n)).isFinite = true ∧
      (exclusiveUpperBound (.integer n)).isFinite = true := by
  have hrank := rank_integer_natAbs_lt h
  have hlower := rank_exclusiveLowerBound (isFinite_integer h)
  have hupper := rank_exclusiveUpperBound (isFinite_integer h)
  rw [Number.toBinary64] at hlower hupper
  rw [isFinite_iff, isFinite_iff]
  omega

/-- However an integer is rounded, its lower bound lies above it. -/
theorem units_lt_exclusiveLowerBound (h : Number.integerRange n = true) :
    units n < (exclusiveLowerBound (.integer n)).scaled := by
  have hrank := rank_integer_natAbs_lt h
  have hlower := rank_exclusiveLowerBound (isFinite_integer h)
  rw [Number.toBinary64] at hlower
  rw [scaled_eq, hlower]
  by_contra hle
  have hround := le_rank_roundUnits (show (ofInt n).rank + 1 ≤ infinityPattern by omega)
    (Int.not_lt.mp hle)
  rw [← ofInt_eq] at hround
  omega

theorem exclusiveUpperBound_lt_units (h : Number.integerRange n = true) :
    (exclusiveUpperBound (.integer n)).scaled < units n := by
  have hrank := rank_integer_natAbs_lt h
  have hupper := rank_exclusiveUpperBound (isFinite_integer h)
  rw [Number.toBinary64] at hupper
  rw [scaled_eq, hupper]
  by_contra hle
  have hround := rank_roundUnits_le (show -infinityPattern ≤ (ofInt n).rank - 1 by omega)
    (Int.not_lt.mp hle)
  rw [← ofInt_eq] at hround
  omega

/-- Where an integer is not rounded up, its lower bound admits what lies above a double above it. -/
theorem exclusiveLowerBound_le_units_iff (h : Number.integerRange n = true)
    (hdown : (ofInt n).scaled ≤ units n) :
    (exclusiveLowerBound (.integer n)).scaled ≤ units m ↔
      ∃ x : Binary64, x.isFinite = true ∧ units n < x.scaled ∧ x.scaled ≤ units m := by
  constructor
  · intro hle
    exact ⟨_, (isFinite_integer_bounds h).1, units_lt_exclusiveLowerBound h, hle⟩
  · rintro ⟨x, _, hx, hxm⟩
    exact Int.le_trans (scaled_exclusiveLowerBound_le (isFinite_integer h)
      (Int.lt_of_le_of_lt hdown hx)) hxm

theorem units_le_exclusiveUpperBound_iff (h : Number.integerRange n = true)
    (hup : units n ≤ (ofInt n).scaled) :
    units m ≤ (exclusiveUpperBound (.integer n)).scaled ↔
      ∃ x : Binary64, x.isFinite = true ∧ units m ≤ x.scaled ∧ x.scaled < units n := by
  constructor
  · intro hle
    exact ⟨_, (isFinite_integer_bounds h).2, hle, exclusiveUpperBound_lt_units h⟩
  · rintro ⟨x, _, hxm, hx⟩
    exact Int.le_trans hxm (le_scaled_exclusiveUpperBound (isFinite_integer h)
      (Int.lt_of_lt_of_le hx hup))

end

/-- How the exclusive bounds of an integer `n` stand to an integer `m`, in units of `2⁻¹⁰⁷⁴`. -/
structure IntegerBounds (n m : Int) : Prop where
  /-- What lies in the range of `$gt` lies above `n`. -/
  above : (exclusiveLowerBound (.integer n)).scaled ≤ units m → n < m
  /-- What lies in the range of `$lt` lies below `n`. -/
  below : units m ≤ (exclusiveUpperBound (.integer n)).scaled → m < n
  lower_exact : -2 ^ 53 ≤ n → n < 2 ^ 53 →
    ((exclusiveLowerBound (.integer n)).scaled ≤ units m ↔ n < m)
  upper_exact : -2 ^ 53 < n → n ≤ 2 ^ 53 →
    (units m ≤ (exclusiveUpperBound (.integer n)).scaled ↔ m < n)
  /-- Unless `n` is rounded up, the range of `$gt` reaches up from a double above `n`. -/
  lower_doubles : (ofInt n).scaled ≤ units n →
    ((exclusiveLowerBound (.integer n)).scaled ≤ units m ↔
      ∃ x : Binary64, x.isFinite = true ∧ units n < x.scaled ∧ x.scaled ≤ units m)
  /-- Unless `n` is rounded down, the range of `$lt` reaches down from a double below `n`. -/
  upper_doubles : units n ≤ (ofInt n).scaled →
    (units m ≤ (exclusiveUpperBound (.integer n)).scaled ↔
      ∃ x : Binary64, x.isFinite = true ∧ units m ≤ x.scaled ∧ x.scaled < units n)

/-- The exclusive ranges of an integer of 64 bits are written with finite bounds that exclude it. -/
theorem integer_bounds {n : Int} (h : Number.integerRange n = true) :
    (∀ m, IntegerBounds n m) ∧ ∀ (options : Options) (attr : String),
      comparison options attr .greater (.number (.integer n)) =
        .ok (.atLeast attr (doubleText (exclusiveLowerBound (.integer n)))) ∧
      comparison options attr .less (.number (.integer n)) =
        .ok (.atMost attr (doubleText (exclusiveUpperBound (.integer n)))) := by
  constructor
  · intro m
    have habove (hm : (exclusiveLowerBound (.integer n)).scaled ≤ units m) : n < m :=
      units_lt_units.mp (Int.lt_of_lt_of_le (units_lt_exclusiveLowerBound h) hm)
    have hbelow (hm : units m ≤ (exclusiveUpperBound (.integer n)).scaled) : m < n :=
      units_lt_units.mp (Int.lt_of_le_of_lt hm (exclusiveUpperBound_lt_units h))
    refine ⟨habove, hbelow, fun hlow hhigh => ⟨habove, fun hm => ?_⟩,
      fun hlow hhigh => ⟨hbelow, fun hm => ?_⟩, exclusiveLowerBound_le_units_iff h,
      units_le_exclusiveUpperBound_iff h⟩
    · have hself : (ofInt n).scaled = units n := scaled_ofInt (by omega)
      have hnext : (ofInt (n + 1)).scaled = units (n + 1) := scaled_ofInt (by omega)
      have hlt : (ofInt n).scaled < (ofInt (n + 1)).scaled := by
        rw [hself, hnext, units_lt_units]
        omega
      refine Int.le_trans (scaled_exclusiveLowerBound_le (isFinite_integer h) hlt) ?_
      rw [hnext, units_le_units]
      omega
    · have hself : (ofInt n).scaled = units n := scaled_ofInt (by omega)
      have hnext : (ofInt (n - 1)).scaled = units (n - 1) := scaled_ofInt (by omega)
      have hlt : (ofInt (n - 1)).scaled < (ofInt n).scaled := by
        rw [hself, hnext, units_lt_units]
        omega
      refine Int.le_trans ?_ (le_scaled_exclusiveUpperBound (isFinite_integer h) hlt)
      rw [hnext, units_le_units]
      omega
  · intro options attr
    obtain ⟨hlower, hupper⟩ := isFinite_integer_bounds h
    rw [comparison_number options attr rfl, comparison_number options attr rfl]
    exact ⟨if_pos hlower, if_pos hupper⟩

/-- A large identifier: the doubles beside it are `2` apart above it and `1` below it. -/
theorem integer_bounds_large :
    Number.integerRange (2 ^ 53) = true ∧
      (∃ x : Binary64, x.isFinite = true ∧ units (2 ^ 53) < x.scaled ∧
        x.scaled ≤ units (2 ^ 53 + 2)) ∧
      units (2 ^ 53 - 1) ≤ (exclusiveUpperBound (.integer (2 ^ 53))).scaled ∧
      comparison {} "a" .greater (.number (.integer (2 ^ 53))) =
        .ok (.atLeast "a" "9007199254740994.0") := by
  have h : Number.integerRange (2 ^ 53) = true := by decide
  obtain ⟨hbounds, hwritten⟩ := integer_bounds h
  have hrounded : (ofInt (2 ^ 53)).scaled ≤ units (2 ^ 53) := by decide +kernel
  have htext : doubleText (exclusiveLowerBound (.integer (2 ^ 53))) = "9007199254740994.0" := by
    decide +kernel
  refine ⟨h, ((hbounds (2 ^ 53 + 2)).lower_doubles hrounded).mp (by decide +kernel),
    ((hbounds (2 ^ 53 - 1)).upper_exact (by decide) (by decide)).mpr (by decide), ?_⟩
  rw [(hwritten {} "a").1, htext]

/-- It is not so that the bounds are exact on all integers: above `2⁵³` the next integer is no
double and is left out. -/
theorem not_all_integers_exact :
    ¬ ∀ n m : Int, Number.integerRange n = true → Number.integerRange m = true →
      ((exclusiveLowerBound (.integer n)).scaled ≤ units m ↔ n < m) ∧
        (units m ≤ (exclusiveUpperBound (.integer n)).scaled ↔ m < n) := by
  intro hall
  have hexact := (hall (2 ^ 53) (2 ^ 53 + 1) (by decide) (by decide)).1.mpr (by decide)
  revert hexact
  decide +kernel

end Filter

end DocStore
