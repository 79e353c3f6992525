import DocStore.Binary64.Round
import Mathlib.Algebra.Group.Nat.Defs

/-!
# How large rounded quotients are

`nearestEven` gives one of the two integers around a quotient, and the significand that `roundRatio`
rounds has at most 53 bits (`lt_place`). So a quotient well below the greatest double is rounded to
a finite one (`isFinite_roundRatio`), and with it every integer of 64 bits (`isFinite_ofInt`).
-/

namespace DocStore.Binary64

theorem pattern_ofPattern (negative : Bool) {p : Nat} (h : p < 2 ^ 63) :
    (ofPattern negative p).pattern = p := by
  have h63 : Nat.pow 2 63 = 9223372036854775808 := by decide
  have h64 : (2 : Nat) ^ 64 = 18446744073709551616 := by decide
  simp only [pattern, word, ofPattern, UInt64.toNat_ofNat', h63, h64]
  cases negative <;> simp only [Bool.false_eq_true, if_false, if_true] <;> omega

theorem isFinite_ofPattern (negative : Bool) {p : Nat} (h : p < infinityPattern) :
    (ofPattern negative p).isFinite = true := by
  have hlt : p < 2 ^ 63 := Nat.lt_trans h (by decide)
  rw [isFinite, pattern_ofPattern negative hlt]
  exact decide_eq_true h

theorem nearestEven_le (n d : Nat) : nearestEven n d ≤ n / d + 1 := by
  unfold nearestEven
  dsimp only
  split
  · omega
  · split <;> omega

theorem placeExponent_le {n k : Nat} (hn : n < 2 ^ k) (d : Nat) : placeExponent n d ≤ k - 53 := by
  have hlog : n.log2 ≤ k - 1 := by
    by_cases hz : n = 0
    · subst hz
      exact Nat.zero_le _
    · exact Nat.le_sub_one_of_lt ((Nat.log2_lt hz).mpr hn)
  unfold placeExponent
  dsimp only
  split <;> omega

/-- The significand has at most 53 bits before it is rounded. -/
theorem lt_place (n : Nat) {d : Nat} (hd : 0 < d) : n < d * 2 ^ (placeExponent n d + 53) := by
  have hn : n < 2 ^ (n.log2 + 1) := Nat.lt_log2_self
  have hlow : 2 ^ d.log2 ≤ d := Nat.log2_self_le (by omega)
  have hplace : n < d * 2 ^ (n.log2 - (d.log2 + 52) + 53) := by
    calc n < 2 ^ (n.log2 + 1) := hn
      _ ≤ 2 ^ (d.log2 + (n.log2 - (d.log2 + 52) + 53)) := Nat.pow_le_pow_right (by omega) (by omega)
      _ = 2 ^ d.log2 * 2 ^ (n.log2 - (d.log2 + 52) + 53) := Nat.pow_add ..
      _ ≤ d * 2 ^ (n.log2 - (d.log2 + 52) + 53) := Nat.mul_le_mul_right _ hlow
  unfold placeExponent
  dsimp only
  split
  · rename_i h
    obtain ⟨hpos, hlt⟩ := h
    have hexp : n.log2 - (d.log2 + 52) - 1 + 53 = n.log2 - (d.log2 + 52) + 52 := by omega
    rw [hexp]
    exact hlt
  · exact hplace

/-- A quotient that stays well below the greatest double is rounded to a finite one. -/
theorem isFinite_roundRatio (negative : Bool) {n d k : Nat} (hd : 0 < d) (hn : n < 2 ^ k)
    (hk : k ≤ 2097) : (roundRatio negative n d).isFinite = true := by
  have hp : placeExponent n d ≤ k - 53 := placeExponent_le hn d
  have hq : n / (d * Nat.pow 2 (placeExponent n d)) < 2 ^ 53 := by
    have hpos : 0 < d * Nat.pow 2 (placeExponent n d) := Nat.mul_pos hd (Nat.two_pow_pos _)
    have h := lt_place n hd
    rw [Nat.pow_add, ← Nat.mul_assoc, Nat.mul_comm] at h
    exact (Nat.div_lt_iff_lt_mul hpos).mpr h
  have hr := nearestEven_le n (d * Nat.pow 2 (placeExponent n d))
  refine isFinite_ofPattern negative (Nat.lt_of_le_of_lt (Nat.min_le_left _ _) ?_)
  have h52 : Nat.pow 2 52 = 4503599627370496 := by decide
  have h53 : (2 : Nat) ^ 53 = 9007199254740992 := by decide
  simp only [infinityPattern, h52, h53] at hq ⊢
  omega

/-- Integers of 64 bits are finite as doubles. -/
theorem isFinite_ofInt {i : Int} (h : i.natAbs < 2 ^ 64) : (ofInt i).isFinite = true := by
  have hn : i.natAbs * one < 2 ^ (64 + 1074) := by
    unfold one
    generalize 1074 = c
    rw [Nat.pow_eq, Nat.pow_add]
    exact Nat.mul_lt_mul_of_pos_right h (Nat.two_pow_pos c)
  exact isFinite_roundRatio _ Nat.one_pos hn (by decide)

end DocStore.Binary64
