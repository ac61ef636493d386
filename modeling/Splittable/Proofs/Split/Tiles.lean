import Splittable.Split.Carve
import Splittable.Proofs.LineText.Answers
import Mathlib.Algebra.GroupWithZero.Nat
import Mathlib.Data.List.TakeWhile

/-!
# Splits that tile a file

The splits carved from a file follow one another without a gap, so the records of their ranges,
one split after another, are the records of the file.

* `FileSplit.Tiles`     splits that follow one another from one offset to another;
* `carve_tiles`         the splits of a file that is not empty tile it;
* `carve_sum_length`    together they are as long as the file;
* `FileSplit.Tiles.flatMap_window`   the records of splits that tile a range;
* `LineText.answers_of_mem_carve`    each split of a file answers the records of its range.
-/

namespace Splittable

namespace Pieces

variable {α : Type}

theorem takeWhile_append {p q : α → Bool} (hpq : ∀ x, p x = true → q x = true) (l : List α) :
    l.takeWhile p ++ (l.dropWhile p).takeWhile q = l.takeWhile q := by
  induction l with
  | nil => rfl
  | cons x l ih =>
    by_cases hx : p x = true
    · rw [List.takeWhile_cons_of_pos hx, List.dropWhile_cons_of_pos hx,
        List.takeWhile_cons_of_pos (hpq x hx), List.cons_append, ih]
    · rw [List.takeWhile_cons_of_neg hx, List.dropWhile_cons_of_neg hx, List.nil_append]

theorem dropWhile_dropWhile {p q : α → Bool} (hpq : ∀ x, p x = true → q x = true)
    (l : List α) : (l.dropWhile p).dropWhile q = l.dropWhile q := by
  induction l with
  | nil => rfl
  | cons x l ih =>
    by_cases hx : p x = true
    · rw [List.dropWhile_cons_of_pos hx, List.dropWhile_cons_of_pos (hpq x hx), ih]
    · rw [List.dropWhile_cons_of_neg hx]

theorem window_sublist (start stop : Nat) (records : List (Nat × α)) :
    (window start stop records).Sublist records := by
  unfold window
  split
  · exact List.takeWhile_sublist _
  · exact (List.takeWhile_sublist _).trans (List.dropWhile_sublist _)

/-- **A range and the one behind it have the records of both.** -/
theorem window_append {a b c : Nat} (hab : a < b) (hbc : b ≤ c) (records : List (Nat × α)) :
    window a b records ++ window b c records = window a c records := by
  have hb : ¬ b = 0 := by omega
  unfold window
  rw [if_neg hb]
  have hmono : ∀ x y : Nat, x ≤ y → ∀ r : Nat × α,
      decide (r.1 ≤ x) = true → decide (r.1 ≤ y) = true := by
    intro x y hxy r hr
    have := of_decide_eq_true hr
    exact decide_eq_true (by omega)
  by_cases ha : a = 0
  · rw [if_pos ha]
    exact takeWhile_append (hmono b c hbc) records
  · rw [if_neg ha, ← dropWhile_dropWhile (hmono a b (Nat.le_of_lt hab)) records]
    exact takeWhile_append (hmono b c hbc) _

theorem window_self {a : Nat} (ha : 0 < a) (records : List (Nat × α)) :
    window a a records = [] := by
  have h0 : ¬ a = 0 := by omega
  unfold window
  rw [if_neg h0]
  induction records with
  | nil => rfl
  | cons r records ih =>
    by_cases hr : r.1 ≤ a
    · rw [List.dropWhile_cons_of_pos (by simpa using hr)]
      exact ih
    · rw [List.dropWhile_cons_of_neg (by simpa using hr),
        List.takeWhile_cons_of_neg (by simpa using hr)]

theorem window_all {stop : Nat} {records : List (Nat × α)} (h : ∀ r ∈ records, r.1 ≤ stop) :
    window 0 stop records = records := by
  unfold window
  rw [if_pos rfl]
  exact List.takeWhile_eq_self_iff.2 fun r hr => decide_eq_true (h r hr)

end Pieces

/-- splits of one file that follow one another from one offset to another, none of them empty -/
inductive FileSplit.Tiles (path : String) : Nat → List FileSplit → Nat → Prop
  | nil {a : Nat} : Tiles path a [] a
  | cons (split : FileSplit) {rest : List FileSplit} {c : Nat} :
      split.path = path → split.start.toNat < split.stop.toNat →
      Tiles path split.stop.toNat rest c → Tiles path split.start.toNat (split :: rest) c

namespace FileSplit

variable {path : String} {a c : Nat} {splits : List FileSplit}

theorem Tiles.le (h : Tiles path a splits c) : a ≤ c := by
  induction h with
  | nil => exact Nat.le_refl _
  | cons _ _ hlt _ ih => omega

/-- A split that ends behind its start ends there without a carry. -/
theorem toNat_stop {split : FileSplit} (h : split.start.toNat < split.stop.toNat) :
    split.start.toNat + split.length.toNat = split.stop.toNat := by
  have hstop : split.stop.toNat = (split.start.toNat + split.length.toNat) % 2 ^ 64 :=
    UInt64.toNat_add _ _
  have hstart := split.start.toNat_lt
  have hlength := split.length.toNat_lt
  omega

theorem Tiles.of_mem (h : Tiles path a splits c) {split : FileSplit} (hmem : split ∈ splits) :
    split.path = path ∧ split.start.toNat + split.length.toNat ≤ c := by
  induction h with
  | nil => cases hmem
  | cons _ hpath hlt hrest ih =>
    rcases List.mem_cons.1 hmem with rfl | hmem
    · refine ⟨hpath, ?_⟩
      rw [toNat_stop hlt]
      exact hrest.le
    · exact ih hmem

/-- **Splits that tile a range are as long as the range.** -/
theorem Tiles.sum_length (h : Tiles path a splits c) :
    a + (splits.map fun split => split.length.toNat).sum = c := by
  induction h with
  | nil => rfl
  | cons split _ hlt _ ih =>
    have hstop := toNat_stop hlt
    rw [List.map_cons, List.sum_cons]
    omega

/-- **The records of splits that tile a range are the records of the range.** -/
theorem Tiles.flatMap_window {α : Type} (h : Tiles path a splits c) (hsome : splits ≠ [] ∨ 0 < a)
    (records : List (Nat × α)) :
    splits.flatMap (fun split => Pieces.window split.start.toNat split.stop.toNat records) =
      Pieces.window a c records := by
  induction h with
  | nil =>
    rcases hsome with hne | ha
    · exact absurd rfl hne
    · exact (Pieces.window_self ha records).symm
  | cons _ _ hlt hrest ih =>
    rw [List.flatMap_cons, ih (.inr (by omega)), Pieces.window_append hlt hrest.le]

end FileSplit

section
variable {ρ : Type} [Ratio ρ] {file : FileStatus} {size : UInt64}

theorem carveFrom_tiles (remaining : UInt64) (hle : remaining ≤ file.length) :
    FileSplit.Tiles file.path (file.length - remaining).toNat (carveFrom ρ file size remaining)
      file.length.toNat := by
  induction hn : remaining.toNat using Nat.strong_induction_on generalizing remaining with
  | _ n ih =>
    have hsub := UInt64.toNat_sub_of_le _ _ hle
    rw [UInt64.le_iff_toNat_le] at hle
    have hbound := file.length.toNat_lt
    unfold carveFrom
    split
    · rename_i h
      obtain ⟨_, hpos, hsize⟩ := h
      have hsub' := UInt64.toNat_sub_of_le _ _ hsize
      rw [UInt64.le_iff_toNat_le] at hsize
      rw [UInt64.lt_iff_toNat_lt, UInt64.toNat_zero] at hpos
      have hle' : remaining - size ≤ file.length := by
        rw [UInt64.le_iff_toNat_le, hsub']
        omega
      have hstop : (file.length - remaining + size).toNat =
          (file.length - (remaining - size)).toNat := by
        rw [UInt64.toNat_add, hsub, UInt64.toNat_sub_of_le _ _ hle', hsub']
        omega
      refine .cons ⟨file.path, file.length - remaining, size⟩ rfl ?_ ?_
      · show (file.length - remaining).toNat < (file.length - remaining + size).toNat
        rw [hstop, UInt64.toNat_sub_of_le _ _ hle', hsub, hsub']
        omega
      · show FileSplit.Tiles file.path (file.length - remaining + size).toNat _ _
        rw [hstop]
        exact ih _ (by omega) _ hle' rfl
    · split
      · rename_i h0
        rw [h0, UInt64.sub_zero]
        exact .nil
      · rename_i h0
        have hne : remaining.toNat ≠ 0 := fun h => h0 (UInt64.toNat_inj.1 h)
        have hstop : (file.length - remaining + remaining).toNat = file.length.toNat := by
          rw [UInt64.sub_add_cancel]
        refine .cons ⟨file.path, file.length - remaining, remaining⟩ rfl ?_ ?_
        · show (file.length - remaining).toNat < (file.length - remaining + remaining).toNat
          rw [hstop, hsub]
          omega
        · show FileSplit.Tiles file.path (file.length - remaining + remaining).toNat _ _
          rw [hstop]
          exact .nil

/-- **The splits of a file that is not empty tile it.** -/
theorem carve_tiles (h : file.length ≠ 0) :
    FileSplit.Tiles file.path 0 (carve ρ file size) file.length.toNat := by
  have htiles : FileSplit.Tiles file.path (file.length - file.length).toNat
      (carveFrom ρ file size file.length) file.length.toNat :=
    carveFrom_tiles file.length (UInt64.le_refl _)
  rw [UInt64.sub_self] at htiles
  unfold carve
  rw [if_neg h]
  exact htiles

/-- **The splits of a file are together as long as the file**, whatever their size is. -/
theorem carve_sum_length : ((carve ρ file size).map fun split => split.length.toNat).sum =
    file.length.toNat := by
  by_cases h0 : file.length = 0
  · unfold carve
    rw [if_pos h0, h0]
    rfl
  · have htiles : FileSplit.Tiles file.path 0 (carve ρ file size) file.length.toNat :=
      carve_tiles h0
    have hsum := htiles.sum_length
    omega

theorem carve_ne_nil : carve ρ file size ≠ [] := by
  unfold carve
  split
  · exact List.cons_ne_nil _ _
  · rename_i h
    unfold carveFrom
    split
    · exact List.cons_ne_nil _ _
    · exact List.cons_ne_nil _ _

/-- The splits of a file lie in it. -/
theorem of_mem_carve {split : FileSplit} (h : split ∈ carve ρ file size) :
    split.path = file.path ∧ split.start.toNat + split.length.toNat ≤ file.length.toNat := by
  by_cases h0 : file.length = 0
  · unfold carve at h
    rw [if_pos h0, List.mem_singleton] at h
    subst h
    exact ⟨rfl, Nat.zero_le _⟩
  · exact (carve_tiles h0).of_mem h

/-- **The records of the splits of a file, one after another, are the records of the file.** -/
theorem flatMap_window_carve {α : Type} {records : List (Nat × α)}
    (h : ∀ r ∈ records, r.1 < file.length.toNat) :
    (carve ρ file size).flatMap
      (fun split => Pieces.window split.start.toNat split.stop.toNat records) = records := by
  have hall : Pieces.window 0 file.length.toNat records = records :=
    Pieces.window_all fun r hr => Nat.le_of_lt (h r hr)
  by_cases h0 : file.length = 0
  · unfold carve
    rw [if_pos h0, List.flatMap_singleton]
    rw [h0] at hall
    exact hall
  · rw [(carve_tiles h0).flatMap_window (.inl carve_ne_nil), hall]

/-- **Each split of a file answers the records of its range**, where no two delimiters overlap. -/
theorem LineText.answers_of_mem_carve {files : FileSystem} {overrides : Overrides}
    {delimiter : Delimiter} {content : Bytes}
    (hdelimiter : Delimiter.ofOverrides overrides = .ok delimiter)
    (hapart : Pieces.Apart delimiter.bytes content) (hholds : files.Holds file.path content)
    (hlength : file.length.toNat = content.length) (interrupt : Flag) {split : FileSplit}
    (h : split ∈ carve ρ file size) :
    Answers files overrides interrupt split
      ((Pieces.window split.start.toNat split.stop.toNat
        (Pieces.onward delimiter.bytes content 0)).map delimiter.answer) := by
  obtain ⟨hpath, hend⟩ := of_mem_carve h
  rw [hlength] at hend
  have hsmall := hholds.small
  have hsought := hholds.sought
  rw [← hpath] at hholds
  exact answers_window hdelimiter hapart hholds (LineCursor.reachable_of_le _ (by omega))
    (by omega) interrupt

end

end Splittable
