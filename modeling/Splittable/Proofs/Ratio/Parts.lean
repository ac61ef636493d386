import Splittable.Proofs.Ratio.Rational

/-!
# Parts of a whole

What is relied on where progress is told as a part of a whole.  Numbers that are rounded have these
laws as well as exact ones: rounding may make two parts equal, and never turns their order.

* `Ratio.part`     a part of a whole;
* `Ratio.Parts`    the laws, and `parts_rat`, exact fractions have them;
* `Ratio.Parts.atMost_mono`, `atMost_eq_one`   parts that are held at the whole.
-/

namespace Splittable.Ratio

/-- a part of a whole -/
def part {ρ : Type} [Ratio ρ] (done whole : UInt64) : ρ :=
  Ratio.ofNat done.toNat / Ratio.ofNat whole.toNat

/-- Being below is a strict order, and a larger part of one whole is never below a smaller one. -/
structure Parts (ρ : Type) [Ratio ρ] : Prop where
  irrefl (a : ρ) : below a a = false
  trans {a b c : ρ} : below a b = true → below b c = true → below a c = true
  zero_below_one : below (zero : ρ) one = true
  nonneg {whole : UInt64} : 0 < whole → ∀ done, below (part done whole) (zero : ρ) = false
  mono {done later whole : UInt64} : 0 < whole → done ≤ later →
    below (part later whole : ρ) (part done whole) = false
  full {done whole : UInt64} : 0 < whole → whole ≤ done →
    below (one : ρ) (part done whole) = true ∨ (part done whole : ρ) = one

namespace Parts

variable {ρ : Type} [Ratio ρ]

theorem asymm (hρ : Parts ρ) {a b : ρ} (h : below a b = true) : below b a = false := by
  by_contra hba
  have haa := hρ.trans h (Bool.eq_true_of_not_eq_false hba)
  rw [hρ.irrefl] at haa
  cases haa

theorem not_one_below_zero (hρ : Parts ρ) : below (one : ρ) zero = false :=
  hρ.asymm hρ.zero_below_one

theorem atMost_le (hρ : Parts ρ) (x : ρ) : below one (atMost one x) = false := by
  unfold atMost
  split
  · exact hρ.irrefl one
  · exact Bool.eq_false_of_not_eq_true ‹_›

theorem atMost_nonneg (hρ : Parts ρ) {x : ρ} (h : below x zero = false) :
    below (atMost one x) zero = false := by
  unfold atMost
  split
  · exact hρ.not_one_below_zero
  · exact h

/-- Held at the whole, parts keep their order. -/
theorem atMost_mono (hρ : Parts ρ) {x y : ρ} (h : below y x = false) :
    below (atMost one y) (atMost one x) = false := by
  by_cases hy : below one y = true
  · have htop : atMost one y = one := if_pos hy
    rw [htop]
    exact hρ.atMost_le x
  · have hsame : atMost one y = y := if_neg hy
    rw [hsame]
    by_cases hx : below one x = true
    · -- something below the whole would be below what is above it
      have htop : atMost one x = one := if_pos hx
      rw [htop]
      by_contra hlt
      rw [hρ.trans (Bool.eq_true_of_not_eq_false hlt) hx] at h
      cases h
    · have hsame' : atMost one x = x := if_neg hx
      rwa [hsame']

theorem atMost_eq_one (hρ : Parts ρ) {done whole : UInt64} (hpos : 0 < whole)
    (h : whole ≤ done) : atMost one (part done whole : ρ) = one := by
  unfold atMost
  split
  · rfl
  · rename_i hbelow
    exact (hρ.full hpos h).resolve_left hbelow

end Parts

/-- **Exact fractions have the laws of parts.** -/
theorem parts_rat : Parts ℚ where
  irrefl a := decide_eq_false (lt_irrefl a)
  trans {a b c} hab hbc :=
    decide_eq_true (lt_trans (of_decide_eq_true hab) (of_decide_eq_true hbc))
  zero_below_one := by
    rw [zero_rat, one_rat]
    exact decide_eq_true zero_lt_one
  nonneg _ done := by
    rw [zero_rat]
    refine decide_eq_false (not_lt.2 ?_)
    exact div_nonneg (Nat.cast_nonneg _) (Nat.cast_nonneg _)
  mono _ h := by
    refine decide_eq_false (not_lt.2 ?_)
    exact div_le_div_of_nonneg_right (Nat.cast_le.2 (UInt64.le_iff_toNat_le.1 h))
      (Nat.cast_nonneg _)
  full {done whole} hpos h := by
    have hwhole : (0 : ℚ) < whole.toNat := Nat.cast_pos.2 (UInt64.lt_iff_toNat_lt.1 hpos)
    have hle : (1 : ℚ) ≤ part done whole :=
      (one_le_div₀ hwhole).2 (Nat.cast_le.2 (UInt64.le_iff_toNat_le.1 h))
    rw [one_rat]
    rcases hle.lt_or_eq with hlt | heq
    · exact .inl (decide_eq_true hlt)
    · exact .inr heq.symm

end Splittable.Ratio
