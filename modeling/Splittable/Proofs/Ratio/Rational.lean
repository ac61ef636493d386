import Splittable.Split.Carve
import Mathlib.Data.Rat.Cast.Order
import Mathlib.Tactic.Linarith

/-!
# Exact fractions

The rational numbers as fractions, and the size of a last split told exactly.

* `exceedsSlop_rat`   what is left of a file is too much for a last split if it is more than
  eleven tenths of the size;
* `Ratio.clamp_rat`     staying between bounds;
* `SlopTold`          twice the size of a split is told to be too much, in any numbers.
-/

namespace Splittable

instance : Ratio ℚ where
  below a b := decide (a < b)
  ofNat n := n
  belowOne := 1 - 1 / 2 ^ 53
  slop := 11 / 10

theorem Ratio.zero_rat : (Ratio.zero : ℚ) = 0 := Nat.cast_zero

theorem Ratio.one_rat : (Ratio.one : ℚ) = 1 := Nat.cast_one

theorem Ratio.belowOne_rat : (0 : ℚ) ≤ Ratio.belowOne ∧ (Ratio.belowOne : ℚ) ≤ 1 := by
  show (0 : ℚ) ≤ 1 - 1 / 2 ^ 53 ∧ (1 - 1 / 2 ^ 53 : ℚ) ≤ 1
  norm_num

theorem Ratio.clamp_rat {low high : ℚ} (h : low ≤ high) (x : ℚ) :
    Ratio.clamp low high x = max low (min high x) := by
  unfold Ratio.clamp
  simp only [Ratio.below, decide_eq_true_eq]
  by_cases hlow : x < low
  · rw [if_pos hlow, if_neg (not_lt.2 h), min_eq_right (hlow.le.trans h), max_eq_left hlow.le]
  · have hle : low ≤ x := not_lt.1 hlow
    rw [if_neg hlow]
    by_cases hhigh : high < x
    · rw [if_pos hhigh, min_eq_left hhigh.le, max_eq_right h]
    · rw [if_neg hhigh, min_eq_right (not_lt.1 hhigh), max_eq_right hle]

/-- **The bound of a last split is eleven tenths of the size.** -/
theorem exceedsSlop_rat {remaining size : UInt64} (hpos : 0 < size) :
    exceedsSlop ℚ remaining size = true ↔ 11 * size.toNat < 10 * remaining.toNat := by
  have hsize : (0 : ℚ) < (size.toNat : ℚ) := by
    rw [UInt64.lt_iff_toNat_lt] at hpos
    exact_mod_cast hpos
  show decide ((11 / 10 : ℚ) < (remaining.toNat : ℚ) / (size.toNat : ℚ)) = true ↔ _
  rw [decide_eq_true_iff, lt_div_iff₀ hsize]
  have e : (11 / 10 : ℚ) * size.toNat < remaining.toNat ↔
      11 * (size.toNat : ℚ) < 10 * (remaining.toNat : ℚ) := by
    constructor
    · intro h
      linarith
    · intro h
      linarith
  rw [e]
  exact_mod_cast Iff.rfl

/-- The numbers tell that twice the size of a split is too much for a last one. -/
def SlopTold (ρ : Type) [Ratio ρ] : Prop :=
  ∀ remaining size : UInt64, 0 < size → 2 * size.toNat ≤ remaining.toNat →
    exceedsSlop ρ remaining size = true

theorem slopTold_rat : SlopTold ℚ := by
  intro remaining size hpos hle
  rw [exceedsSlop_rat hpos]
  rw [UInt64.lt_iff_toNat_lt, UInt64.toNat_zero] at hpos
  omega

end Splittable
