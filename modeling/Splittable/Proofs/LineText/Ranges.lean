import Splittable.Proofs.LineText.Characters
import Splittable.Proofs.LineText.Partition

/-!
# Any range of a file

A split need not be one of those that a file is carved into: it may start inside a delimiter, before
the length of one, or past the end of the file.  With a delimiter that has no border its cursor
still answers the records of the file that the split covers, as long as the file system can seek to
where reading has to start.

* `FileSplit.Covers`          the offsets that belong to a split;
* `Pieces.window_eq_filter`   the records of a range, chosen one by one;
* `LineText.ReadsCovered`     a split has the records of the file that it covers;
* `LineText.reads_covered_of_reachable`   which splits do.
-/

namespace Splittable

/-- The offset of a record that belongs to a split: behind the start and not behind the end, or 0
for a split that starts there. -/
def FileSplit.Covers (split : FileSplit) (offset : UInt64) : Prop :=
  split.start.toNat < offset.toNat ∧ offset.toNat ≤ split.start.toNat + split.length.toNat ∨
    split.start = 0 ∧ offset = 0

instance (split : FileSplit) (offset : UInt64) : Decidable (split.Covers offset) :=
  inferInstanceAs (Decidable (_ ∨ _))

namespace Pieces

variable {α : Type}

/-! ## records one by one -/

section
variable {p : α → Bool} {l : List α}

/-- Where no element with a property follows one without it, the first ones with it are all. -/
theorem takeWhile_eq_filter (h : l.Pairwise fun x y => p y = true → p x = true) :
    l.takeWhile p = l.filter p := by
  induction l with
  | nil => rfl
  | cons x l ih =>
    obtain ⟨hx, hl⟩ := List.pairwise_cons.1 h
    by_cases hpx : p x = true
    · rw [List.takeWhile_cons_of_pos hpx, List.filter_cons_of_pos hpx, ih hl]
    · rw [List.takeWhile_cons_of_neg hpx, List.filter_cons_of_neg hpx]
      exact (List.filter_eq_nil_iff.2 fun y hy hpy => hpx (hx y hy hpy)).symm

theorem dropWhile_eq_filter (h : l.Pairwise fun x y => p y = true → p x = true) :
    l.dropWhile p = l.filter fun x => !p x := by
  induction l with
  | nil => rfl
  | cons x l ih =>
    obtain ⟨hx, hl⟩ := List.pairwise_cons.1 h
    by_cases hpx : p x = true
    · rw [List.dropWhile_cons_of_pos hpx, List.filter_cons_of_neg (by simp [hpx]), ih hl]
    · rw [List.dropWhile_cons_of_neg hpx]
      refine (List.filter_eq_self.2 fun y hy => ?_).symm
      rcases List.mem_cons.1 hy with rfl | hy
      · simpa using hpx
      · simpa using fun hpy => hpx (hx y hy hpy)

end

/-- Pieces follow one another at rising offsets. -/
theorem pairwise_onward {d : Bytes} (hd : d ≠ []) (bs : Bytes) (p : Nat) :
    (onward d bs p).Pairwise fun x y => x.1 < y.1 := by
  induction hn : bs.length - p using Nat.strong_induction_on generalizing p with
  | _ n ih =>
    by_cases hp : p < bs.length
    · have hpos : 0 < size d (bs.drop p) := size_drop_pos hd hp
      rw [onward_of_lt hd hp, List.pairwise_cons]
      refine ⟨fun r hr => ?_, ih _ (by omega) _ rfl⟩
      have := (fst_of_mem_onward hd hr).1
      omega
    · rw [onward_of_le (Nat.le_of_not_lt hp)]
      exact List.Pairwise.nil

/-- **The records of a range are those whose offsets lie in it.** -/
theorem window_eq_filter {records : List (Nat × α)} (h : records.Pairwise fun x y => x.1 < y.1)
    (start stop : Nat) :
    window start stop records = records.filter fun r =>
      decide (start < r.1 ∧ r.1 ≤ stop ∨ start = 0 ∧ r.1 = 0) := by
  have hmono (n : Nat) : ∀ l : List (Nat × α), (l.Pairwise fun x y => x.1 < y.1) →
      l.Pairwise fun x y => decide (y.1 ≤ n) = true → decide (x.1 ≤ n) = true := by
    intro l hl
    refine hl.imp fun hlt hy => ?_
    have := of_decide_eq_true hy
    exact decide_eq_true (by omega)
  unfold window
  by_cases h0 : start = 0
  · rw [if_pos h0, takeWhile_eq_filter (hmono stop records h)]
    refine List.filter_congr fun r _ => ?_
    rw [decide_eq_decide]
    omega
  · rw [if_neg h0, dropWhile_eq_filter (hmono start records h),
      takeWhile_eq_filter (hmono stop _ (h.filter _)), List.filter_filter]
    refine List.filter_congr fun r _ => ?_
    rw [← decide_not, ← Bool.decide_and, decide_eq_decide]
    omega

end Pieces

namespace LineText

open Pieces

/-! ## the records that a split covers -/

/-- the answer that is a record: its offset, and its text -/
def recordAt (r : UInt64 × String) : Except Fault Pair := .ok ⟨.long r.1, .text r.2⟩

/-- The cursor of a split answers the records of the file that the split covers, in their order. -/
def ReadsCovered (files : FileSystem) (overrides : Overrides) (interrupt : Flag)
    (split : FileSplit) (content : Bytes) : Prop :=
  ∃ records : List (UInt64 × String),
    Answers files overrides interrupt ⟨split.path, 0, content.length.toUInt64⟩
      (records.map recordAt) ∧
    Answers files overrides interrupt split
      ((records.filter fun r => decide (split.Covers r.1)).map recordAt)

section
variable {files : FileSystem} {overrides : Overrides} {delimiter : Delimiter} {split : FileSplit}
  {text : String}

/-- a piece as a record -/
def recordOf (delimiter : Delimiter) (piece : Nat × Bytes) : UInt64 × String :=
  (piece.1.toUInt64, delimiter.line piece.2)

/-- The pieces of a text are answered as records. -/
theorem map_answer_of_subset (hdelimiter : Delimiter.ofOverrides overrides = .ok delimiter)
    {pieces : List (Nat × Bytes)} (h : pieces ⊆ onward delimiter.bytes (Utf8.encode text) 0) :
    pieces.map delimiter.answer = (pieces.map (recordOf delimiter)).map recordAt := by
  obtain ⟨ds, hds, hbytes⟩ := Delimiter.exists_bytes_eq hdelimiter
  rw [List.map_map]
  refine List.map_congr_left fun ⟨offset, piece⟩ hr => ?_
  have hmem := h hr
  rw [hbytes, Utf8.encode_eq_flatMap] at hmem
  obtain ⟨cs, rfl⟩ := Text.exists_line_of_mem_onward hds hmem
  exact Delimiter.answer_of_text hds hbytes offset cs

/-- Offsets of pieces fit in a word. -/
theorem toNat_fst_of_mem_onward {d content : Bytes} (hd : d ≠ []) (hsmall : content.length < 2 ^ 63)
    {r : Nat × Bytes} (hr : r ∈ onward d content 0) : r.1.toUInt64.toNat = r.1 := by
  have hlt := (fst_of_mem_onward hd hr).2
  show (UInt64.ofNat r.1).toNat = r.1
  rw [UInt64.toNat_ofNat', Nat.mod_eq_of_lt (by omega)]

/-- The offset of a piece belongs to a split where it lies in its range. -/
theorem covers_iff {n : Nat} (hn : n.toUInt64.toNat = n) :
    split.Covers n.toUInt64 ↔
      split.start.toNat < n ∧ n ≤ split.start.toNat + split.length.toNat ∨
        split.start.toNat = 0 ∧ n = 0 := by
  unfold FileSplit.Covers
  rw [← UInt64.toNat_inj, ← UInt64.toNat_inj, hn, UInt64.toNat_zero]

/-- A split whose start cannot be sought to has no cursor. -/
theorem openCursor_of_unreachable (hdelimiter : Delimiter.ofOverrides overrides = .ok delimiter)
    {content : Bytes} (hholds : files.Holds split.path content)
    (hfar : ¬LineCursor.Reachable files delimiter split.start) (interrupt : Flag) :
    openCursor files (.file split) overrides interrupt =
      .error (OsError.fault .invalidArgument) := by
  have hne : ¬split.start = 0 := by
    intro h0
    refine hfar (LineCursor.reachable_of_le delimiter ?_)
    rw [h0]
    exact Nat.zero_le _
  have hopen : OpenFile.open files split.path (LineCursor.seekTo delimiter split.start) =
      .error .invalidArgument := by
    obtain ⟨⟨bytes, hread, -⟩, -⟩ := hholds
    unfold FileSystem.read at hread
    unfold OpenFile.open
    cases hnode : files.resolve split.path with
    | error e =>
      rw [hnode] at hread
      cases hread
    | ok node => exact if_neg hfar
  unfold openCursor
  rw [hdelimiter]
  show LineCursor.open files split delimiter interrupt = _
  unfold LineCursor.open
  rw [if_neg hne]
  dsimp only
  rw [hopen]
  rfl

/-- **Any split of a text has the records that it covers**, wherever it starts and ends, if the
delimiter has no border and the file system can seek to where reading has to start.  A split that is
too far for that has no cursor. -/
theorem reads_covered_of_reachable (hdelimiter : Delimiter.ofOverrides overrides = .ok delimiter)
    (hunbordered : Unbordered delimiter.bytes)
    (hholds : files.Holds split.path (Utf8.encode text))
    (hend : split.start.toNat + split.length.toNat < 2 ^ 64 - 1) (interrupt : Flag) :
    (LineCursor.Reachable files delimiter split.start →
      ReadsCovered files overrides interrupt split (Utf8.encode text)) ∧
    (¬LineCursor.Reachable files delimiter split.start →
      openCursor files (.file split) overrides interrupt =
        .error (OsError.fault .invalidArgument)) := by
  refine ⟨fun hreachable => ?_, fun hfar => openCursor_of_unreachable hdelimiter hholds hfar _⟩
  have hd := Delimiter.bytes_ne_nil hdelimiter
  let pieces := onward delimiter.bytes (Utf8.encode text) 0
  have hstop : split.stop.toNat = split.start.toNat + split.length.toNat :=
    FileSplit.toNat_stop_of_le (by omega)
  have hcovered : (pieces.map (recordOf delimiter)).filter (fun r => decide (split.Covers r.1)) =
      (window split.start.toNat split.stop.toNat pieces).map (recordOf delimiter) := by
    rw [List.filter_map, window_eq_filter (pairwise_onward hd _ _), hstop]
    refine congrArg (List.map (recordOf delimiter)) (List.filter_congr fun r hr => ?_)
    exact decide_eq_decide.2 (covers_iff (toNat_fst_of_mem_onward hd hholds.small hr))
  refine ⟨pieces.map (recordOf delimiter), ?_, ?_⟩
  · rw [← map_answer_of_subset hdelimiter (List.Subset.refl _)]
    exact answers_whole hdelimiter hholds interrupt
  · rw [hcovered, ← map_answer_of_subset hdelimiter (window_sublist _ _ _).subset]
    exact answers_window hdelimiter (hunbordered.apart _) hholds hreachable hend interrupt

end

/-- overrides that ask for a semicolon and a blank as the delimiter -/
def semicolons : Overrides := .ofList [(Delimiter.overrideKey, "; ")]

/-- A split that starts inside a delimiter. -/
theorem reads_covered_semicolons :
    let files := FileSystem.single (Utf8.encode "one; two; three")
    let split : FileSplit := ⟨"f", 4, 6⟩
    Delimiter.ofOverrides semicolons = .ok (.custom (Utf8.encode "; ")) ∧
      Unbordered (Utf8.encode "; ") ∧ files.Holds split.path (Utf8.encode "one; two; three") ∧
      split.start.toNat + split.length.toNat < 2 ^ 64 - 1 ∧
      ReadsCovered files semicolons ⟨0⟩ split (Utf8.encode "one; two; three") := by
  intro files split
  have hdelimiter : Delimiter.ofOverrides semicolons = .ok (.custom (Utf8.encode "; ")) :=
    ofOverrides_custom (by decide) (by decide)
  have hunbordered : Unbordered (Utf8.encode "; ") := by
    intro k hk0 hk
    have hlength : (Utf8.encode "; ").length = 2 := rfl
    obtain rfl : k = 1 := by omega
    decide
  have hholds : files.Holds split.path (Utf8.encode "one; two; three") :=
    FileSystem.holds_single (by decide)
  have hend : split.start.toNat + split.length.toNat < 2 ^ 64 - 1 := by decide
  have hreachable : LineCursor.Reachable files (.custom (Utf8.encode "; ")) split.start := by
    decide
  exact ⟨hdelimiter, hunbordered, hholds, hend,
    (reads_covered_of_reachable hdelimiter hunbordered hholds hend ⟨0⟩).1 hreachable⟩

/-- A split so far behind the end of its file that no file system can seek there: it covers no
record, and still it is not read as having none. -/
theorem not_reads_covered_far :
    let files := FileSystem.single (Utf8.encode "a\n")
    let split : FileSplit := ⟨"f", 0x8000000000000000, 0⟩
    Delimiter.ofOverrides {} = .ok .newline ∧ Unbordered Delimiter.newline.bytes ∧
      files.Holds split.path (Utf8.encode "a\n") ∧
      split.start.toNat + split.length.toNat < 2 ^ 64 - 1 ∧
      ¬ReadsCovered files {} ⟨0⟩ split (Utf8.encode "a\n") := by
  intro files split
  have hholds : files.Holds split.path (Utf8.encode "a\n") := FileSystem.holds_single (by decide)
  have hfar : ¬LineCursor.Reachable files .newline split.start := by decide
  refine ⟨rfl, Delimiter.unbordered_newline, hholds, by decide, ?_⟩
  rintro ⟨records, -, cursor, hopen, -⟩
  rw [openCursor_of_unreachable rfl hholds hfar] at hopen
  cases hopen

end LineText

end Splittable
