import DocStore.Proofs.Binary64.Rounding
import Mathlib.Algebra.Order.Field.Basic
import Mathlib.Data.Rat.Cast.Order
import Mathlib.Tactic.FieldSimp
import Mathlib.Tactic.Linarith

/-!
# The nearest double

`IsNearest` says without computing anything which pattern a magnitude is rounded to: none is nearer,
and of two that are equally near it is the even one. The pattern of infinity counts as the double
that would come after the greatest. There is only one such pattern (`IsNearest.unique`), and
`roundRatio` finds it (`isNearest_roundPattern`).
-/

namespace DocStore.Binary64

/-- The magnitude of the doubles of a pattern. -/
def magnitudeOf (p : Nat) : ℚ := magnitudeAt p / one

/-- Rounding to nearest, ties to even, takes the magnitude `q` to the pattern `p`. -/
structure IsNearest (q : ℚ) (p : Nat) : Prop where
  nearest : ∀ r ≤ infinityPattern, |q - magnitudeOf p| ≤ |q - magnitudeOf r|
  even : ∀ r ≤ infinityPattern, r ≠ p → |q - magnitudeOf p| = |q - magnitudeOf r| → p % 2 = 0

theorem one_pos_rat : (0 : ℚ) < one := Nat.cast_pos.mpr one_pos

theorem magnitudeOf_strictMono : StrictMono magnitudeOf := fun _ _ h =>
  div_lt_div_of_pos_right (Nat.cast_lt.mpr (magnitudeAt_strictMono h)) one_pos_rat

theorem isNearest_magnitudeOf (p : Nat) : IsNearest (magnitudeOf p) p where
  nearest r _ := by
    rw [sub_self, abs_zero]
    exact abs_nonneg _
  even r _ hne h := by
    rw [sub_self, abs_zero, eq_comm, abs_eq_zero, sub_eq_zero] at h
    exact absurd (magnitudeOf_strictMono.injective h).symm hne

/-- Between two patterns that are equally near and even lies one that is nearer. -/
theorem IsNearest.not_lt {q : ℚ} {p p' : Nat} (h : IsNearest q p) (h' : IsNearest q p')
    (hp' : p' ≤ infinityPattern) : ¬p < p' := by
  intro hlt
  have hdist : |q - magnitudeOf p| = |q - magnitudeOf p'| :=
    le_antisymm (h.nearest p' hp') (h'.nearest p (by omega))
  have heven := h.even p' hp' (by omega) hdist
  have heven' := h'.even p (by omega) (by omega) hdist.symm
  have hlow := magnitudeOf_strictMono (show p < p + 1 by omega)
  have hup := magnitudeOf_strictMono (show p + 1 < p' by omega)
  have hnear := h.nearest (p + 1) (by omega)
  rcases abs_cases (q - magnitudeOf p) with ⟨h1, _⟩ | ⟨h1, _⟩ <;>
    rcases abs_cases (q - magnitudeOf p') with ⟨h2, _⟩ | ⟨h2, _⟩ <;>
      rcases abs_cases (q - magnitudeOf (p + 1)) with ⟨h3, _⟩ | ⟨h3, _⟩ <;> linarith

theorem IsNearest.unique {q : ℚ} {p p' : Nat} (h : IsNearest q p) (h' : IsNearest q p')
    (hp : p ≤ infinityPattern) (hp' : p' ≤ infinityPattern) : p = p' :=
  Nat.le_antisymm (Nat.le_of_not_lt (h'.not_lt h hp)) (Nat.le_of_not_lt (h.not_lt h' hp'))

/-! ## Rounded quotients -/

/-- No integer is nearer to a quotient than `nearestEven`, and if one is as near, it is even. -/
theorem nearestEven_nearest (n : Nat) {d : Nat} (hd : 0 < d) (k : Nat) :
    ((n : Int) - (d * nearestEven n d : Nat)).natAbs ≤ ((n : Int) - (d * k : Nat)).natAbs ∧
      (k ≠ nearestEven n d →
        ((n : Int) - (d * nearestEven n d : Nat)).natAbs = ((n : Int) - (d * k : Nat)).natAbs →
          nearestEven n d % 2 = 0) := by
  have hn : d * (n / d) + n % d = n := Nat.div_add_mod n d
  have hm : n % d < d := Nat.mod_lt n hd
  have hnext : d * (n / d + 1) = d * (n / d) + d := Nat.mul_succ ..
  have hk : k = n / d ∨ k = n / d + 1 ∨ d * k + d ≤ d * (n / d) ∨ d * (n / d + 1) + d ≤ d * k := by
    rcases Nat.lt_trichotomy k (n / d) with h | h | h
    · exact .inr (.inr (.inl (Nat.mul_le_mul_left d h)))
    · exact .inl h
    · rcases Nat.eq_or_lt_of_le (Nat.succ_le_of_lt h) with h | h
      · exact .inr (.inl h.symm)
      · exact .inr (.inr (.inr (Nat.mul_le_mul_left d h)))
  have heven : nearestEven n d = n / d ∧ (2 * (n % d) < d ∨ 2 * (n % d) = d ∧ n / d % 2 = 0) ∨
      nearestEven n d = n / d + 1 ∧ (d < 2 * (n % d) ∨ 2 * (n % d) = d ∧ (n / d + 1) % 2 = 0) := by
    unfold nearestEven
    dsimp only
    split
    · omega
    · split <;> omega
  rcases heven with ⟨he, ht⟩ | ⟨he, ht⟩ <;>
    rw [he] <;> rcases hk with rfl | rfl | hk | hk <;> omega

theorem abs_sub_magnitudeOf (n : Nat) {d : Nat} (hd : 0 < d) (r : Nat) :
    |(n : ℚ) / d / one - magnitudeOf r| =
      (((n : Int) - (d * magnitudeAt r : Nat)).natAbs : ℚ) / (d * one) := by
  have hd' : (0 : ℚ) < d := Nat.cast_pos.mpr hd
  have hone := one_pos_rat
  have hsub : (n : ℚ) / d / one - magnitudeOf r =
      (((n : Int) - (d * magnitudeAt r : Nat) : Int) : ℚ) / (d * one) := by
    unfold magnitudeOf
    generalize one = o at *
    push_cast
    field_simp
  rw [hsub, abs_div, abs_of_pos (mul_pos hd' hone), ← Int.cast_abs, Int.abs_eq_natAbs,
    Int.cast_natCast]

/-- Distances from a quotient, compared without their denominator. -/
theorem isNearest_of_natAbs {n d p : Nat} (hd : 0 < d)
    (h : ∀ r ≤ infinityPattern,
      ((n : Int) - (d * magnitudeAt p : Nat)).natAbs ≤
          ((n : Int) - (d * magnitudeAt r : Nat)).natAbs ∧
        (r ≠ p → ((n : Int) - (d * magnitudeAt p : Nat)).natAbs =
          ((n : Int) - (d * magnitudeAt r : Nat)).natAbs → p % 2 = 0)) :
    IsNearest ((n : ℚ) / d / one) p := by
  have hdenominator : (0 : ℚ) < d * one := mul_pos (Nat.cast_pos.mpr hd) one_pos_rat
  constructor
  · intro r hr
    rw [abs_sub_magnitudeOf n hd, abs_sub_magnitudeOf n hd]
    exact div_le_div_of_nonneg_right (Nat.cast_le.mpr (h r hr).1) hdenominator.le
  · intro r hr hne heq
    rw [abs_sub_magnitudeOf n hd, abs_sub_magnitudeOf n hd,
      div_left_inj' hdenominator.ne', Nat.cast_inj] at heq
    exact (h r hr).2 hne heq

section

variable {n d : Nat} (hd : 0 < d)
include hd

theorem isNearest_roundPattern : IsNearest ((n : ℚ) / d / one) (roundPattern n d) := by
  refine isNearest_of_natAbs hd fun r _ => ?_
  have hunit : 0 < d * 2 ^ placeExponent n d := Nat.mul_pos hd (Nat.two_pow_pos _)
  have hmagnitude : ∀ k, d * (k * 2 ^ placeExponent n d) = d * 2 ^ placeExponent n d * k :=
    fun k => by rw [Nat.mul_comm k, Nat.mul_assoc]
  rw [magnitudeAt_roundPattern hd, hmagnitude]
  rcases magnitudeAt_multiple r (placeExponent n d) with ⟨k, hk⟩ | ⟨hp, hlt⟩
  · obtain ⟨hle, heven⟩ := nearestEven_nearest n hunit k
    rw [hk, hmagnitude]
    refine ⟨hle, fun hne heq => ?_⟩
    have hk' : k ≠ nearestEven n (d * 2 ^ placeExponent n d) := by
      rintro rfl
      exact hne (magnitudeAt_strictMono.injective (hk.trans (magnitudeAt_roundPattern hd).symm))
    have hpar := heven hk' heq
    unfold roundPattern
    omega
  · have hleast := (nearestEven_nearest n hunit (2 ^ 52)).1
    have hplace := place_le hp
    have hfew := Nat.mul_lt_mul_of_pos_left hlt hd
    rw [Nat.pow_add, ← Nat.mul_assoc] at hplace hfew
    omega

/-- A quotient is rounded to the nearest pattern, or to infinity past the greatest double. -/
theorem isNearest_roundRank : IsNearest ((n : ℚ) / d / one) (roundRank n d) := by
  rcases Nat.le_total (roundPattern n d) infinityPattern with h | h
  · rw [roundRank, Nat.min_eq_left h]
    exact isNearest_roundPattern hd
  · rw [roundRank, Nat.min_eq_right h]
    rcases Nat.eq_or_lt_of_le h with h | h
    · rw [h]
      exact isNearest_roundPattern hd
    · have hover : d * magnitudeAt infinityPattern < n :=
        Nat.lt_of_not_le fun hle => absurd (roundPattern_le hd hle) (by omega)
      refine isNearest_of_natAbs hd fun r hr => ?_
      have hle := Nat.mul_le_mul_left d (magnitudeAt_strictMono.monotone hr)
      exact ⟨by omega, fun _ _ => by decide⟩

end

end DocStore.Binary64
