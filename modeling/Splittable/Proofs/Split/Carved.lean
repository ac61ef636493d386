import Splittable.Proofs.Ratio.Rational
import Splittable.Proofs.Split.Tiles

/-!
# The rounds of carving

A file is carved in rounds, and each takes one split off what is left while that is more than a
last split may hold.  With a size that can be chosen the rounds end, no subtraction falls below
zero, and only the last split has another length than the others.

* `Carving`                the rounds, with every subtraction checked;
* `Carving.eq`, `carving`  they come to an end, and their splits are those of the file;
* `Carving.lengths`        how long the splits are;
* `SplitSize.choose_pos`   no size that is chosen is zero;
* `carve_exactly`          carving tiles a file with splits of the size and a last one near it.
-/

namespace Splittable

/-- Carving with so many bytes left.  A round is taken where ten times what is left is more than
eleven times the size, and it is one only where it does not subtract more than there is. -/
inductive Carving (file : FileStatus) (size : UInt64) : UInt64 → List FileSplit → Prop
  | round {remaining : UInt64} {splits : List FileSplit} :
      11 * size.toNat < 10 * remaining.toNat → remaining ≤ file.length → size ≤ remaining →
      Carving file size (remaining - size) splits →
      Carving file size remaining (⟨file.path, file.length - remaining, size⟩ :: splits)
  | tail {remaining : UInt64} : 10 * remaining.toNat ≤ 11 * size.toNat → remaining ≠ 0 →
      remaining ≤ file.length →
      Carving file size remaining [⟨file.path, file.length - remaining, remaining⟩]
  | nothing : Carving file size 0 []

section
variable {file : FileStatus} {size remaining : UInt64} {splits : List FileSplit}

/-- A round takes less than there is. -/
theorem lt_of_exceeds (h : 11 * size.toNat < 10 * remaining.toNat) :
    size ≤ remaining ∧ (remaining - size).toNat = remaining.toNat - size.toNat ∧
      size.toNat < remaining.toNat := by
  have hle : size ≤ remaining := by
    rw [UInt64.le_iff_toNat_le]
    omega
  exact ⟨hle, UInt64.toNat_sub_of_le _ _ hle, by omega⟩

/-- Carving gives the splits of the file and nothing else. -/
theorem Carving.eq (hsize : 0 < size) (h : Carving file size remaining splits) :
    splits = carveFrom ℚ file size remaining := by
  induction h with
  | round hmore _ hle _ ih =>
    rw [carveFrom, dif_pos ⟨(exceedsSlop_rat hsize).2 hmore, hsize, hle⟩, ← ih]
  | tail hless hne _ =>
    rw [carveFrom, dif_neg, if_neg hne]
    rintro ⟨hmore, -⟩
    have := (exceedsSlop_rat hsize).1 hmore
    omega
  | nothing =>
    rw [carveFrom, dif_neg, if_pos rfl]
    rintro ⟨-, hpos, hle⟩
    rw [UInt64.lt_iff_toNat_lt] at hpos
    rw [UInt64.le_iff_toNat_le] at hle
    omega

/-- **The rounds of carving come to an end**, and none subtracts more than there is. -/
theorem carving (hsize : 0 < size) (hle : remaining ≤ file.length) :
    Carving file size remaining (carveFrom ℚ file size remaining) := by
  induction hn : remaining.toNat using Nat.strong_induction_on generalizing remaining with
  | _ n ih =>
    by_cases hmore : 11 * size.toNat < 10 * remaining.toNat
    · obtain ⟨hsub, hback, hlt⟩ := lt_of_exceeds hmore
      have hrest : remaining - size ≤ file.length := by
        rw [UInt64.le_iff_toNat_le] at hle ⊢
        omega
      have hpos := UInt64.lt_iff_toNat_lt.1 hsize
      rw [UInt64.toNat_zero] at hpos
      rw [carveFrom, dif_pos ⟨(exceedsSlop_rat hsize).2 hmore, hsize, hsub⟩]
      exact .round hmore hle hsub (ih _ (by omega) hrest rfl)
    · rw [carveFrom, dif_neg (fun h => hmore ((exceedsSlop_rat hsize).1 h.1))]
      split
      · rename_i h0
        rw [h0]
        exact .nothing
      · rename_i h0
        exact .tail (Nat.le_of_not_lt hmore) h0 hle

/-- All splits but the last have the size that is asked for.  The last has at most a tenth more,
and behind another split it has more than a tenth. -/
theorem Carving.lengths (h : Carving file size remaining splits) (hne : remaining ≠ 0) :
    ∃ front last, splits = front ++ [last] ∧ (∀ split ∈ front, split.length = size) ∧
      10 * last.length.toNat ≤ 11 * size.toNat ∧
      (front = [] → last.length = remaining) ∧
      (front ≠ [] → size.toNat < 10 * last.length.toNat) := by
  induction h with
  | nothing => exact absurd rfl hne
  | tail hless _ _ => exact ⟨[], _, rfl, by simp, hless, fun _ => rfl, fun h => absurd rfl h⟩
  | @round remaining splits hmore _ _ _ ih =>
    obtain ⟨-, hback, hlt⟩ := lt_of_exceeds hmore
    have hrest : remaining - size ≠ 0 := by
      intro h0
      rw [h0, UInt64.toNat_zero] at hback
      omega
    obtain ⟨front, last, rfl, hfront, hlast, honly, hbehind⟩ := ih hrest
    refine ⟨_ :: front, last, rfl, ?_, hlast, (fun h => by cases h), fun _ => ?_⟩
    · exact List.forall_mem_cons.2 ⟨rfl, hfront⟩
    · by_cases hfirst : front = []
      · rw [honly hfirst, hback]
        omega
      · exact hbehind hfirst

theorem SplitSize.choose_pos (block : UInt64) (bounds : SplitSize) : 0 < bounds.choose block := by
  have hmax : ∀ a : UInt64, 0 < max a 1 := by
    intro a
    show 0 < if a ≤ 1 then 1 else a
    split
    · decide
    · rename_i h
      exact UInt64.lt_trans (by decide) (UInt64.not_le.1 h)
  exact hmax _

/-- **Carving tiles a file exactly.**  With every size that can be chosen the rounds come to an end
and subtract no more than there is; the splits follow one another from the start of the file to its
end, none of them empty unless the file is; and all but the last have the size, and the last of
several has more than a tenth of it and at most eleven tenths. -/
theorem carve_exactly (file : FileStatus) (block : UInt64) (bounds : SplitSize) :
    let size := bounds.choose block
    let splits := carve ℚ file size
    (file.length ≠ 0 → ∀ found, Carving file size file.length found ↔ found = splits) ∧
    (file.length = 0 → splits = [⟨file.path, 0, 0⟩]) ∧
    (file.length ≠ 0 → FileSplit.Tiles file.path 0 splits file.length.toNat) ∧
    ∃ front last, splits = front ++ [last] ∧ (∀ split ∈ front, split.length = size) ∧
      (front ≠ [] → size.toNat < 10 * last.length.toNat ∧
        10 * last.length.toNat ≤ 11 * size.toNat) := by
  intro size splits
  have hsize : 0 < size := SplitSize.choose_pos block bounds
  by_cases h0 : file.length = 0
  · have hsplits : splits = [⟨file.path, 0, 0⟩] := if_pos h0
    refine ⟨fun h => absurd h0 h, fun _ => hsplits, fun h => absurd h0 h, [], _, hsplits, ?_, ?_⟩
    · simp
    · exact fun h => absurd rfl h
  · have hsplits : splits = carveFrom ℚ file size file.length := if_neg h0
    have hcarving : Carving file size file.length splits := by
      rw [hsplits]
      exact carving hsize (UInt64.le_refl _)
    refine ⟨fun _ found => ?_, fun h => absurd h h0, fun _ => carve_tiles h0, ?_⟩
    · constructor
      · intro hfound
        rw [hsplits]
        exact hfound.eq hsize
      · rintro rfl
        exact hcarving
    · obtain ⟨front, last, hends, hfront, hlast, -, hbehind⟩ := hcarving.lengths h0
      exact ⟨front, last, hends, hfront, fun hne => ⟨hbehind hne, hlast⟩⟩

end

end Splittable
