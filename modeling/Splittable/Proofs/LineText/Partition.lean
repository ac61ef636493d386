import Splittable.Proofs.Ratio.Rational
import Splittable.Proofs.Split.Tiles
import Mathlib.Data.List.Forall2

/-!
# Reading a file in parts

Reading the splits carved from a file, one after another, against reading the file in one.  The
two agree on every file in which no two delimiters overlap.  A delimiter with a border overlaps
itself in some file, and there a split that starts inside the overlap reads a record that the file
does not have.

* `LineText.Partitions`             the splits of a file have its records;
* `LineText.partitions_of_apart`    where no two delimiters overlap, they do;
* `LineText.overlapping`            a file in which a delimiter with a border overlaps itself;
* `LineText.partitions_iff_unbordered`   they do on every file exactly for delimiters without a
  border.
-/

namespace Splittable.LineText

open Pieces

/-- The cursors of the splits of a file answer, one split after another, what the cursor of the
whole file answers. -/
def Partitions (ρ : Type) [Ratio ρ] (files : FileSystem) (overrides : Overrides)
    (interrupt : Flag) (path : String) (content : Bytes) (size : UInt64) : Prop :=
  let file : FileStatus := ⟨path, content.length.toUInt64⟩
  ∃ whole parts, Answers files overrides interrupt ⟨path, 0, file.length⟩ whole ∧
    List.Forall₂ (Answers files overrides interrupt) (carve ρ file size) parts ∧
    parts.flatten = whole

section
variable {ρ : Type} [Ratio ρ] {files : FileSystem} {overrides : Overrides}
  {delimiter : Delimiter} {path : String} {content : Bytes}

theorem toNat_length (hsmall : content.length < 2 ^ 63) :
    content.length.toUInt64.toNat = content.length := by
  show (UInt64.ofNat content.length).toNat = _
  rw [UInt64.toNat_ofNat']
  omega

theorem answers_whole (hdelimiter : Delimiter.ofOverrides overrides = .ok delimiter)
    (hholds : files.Holds path content) (interrupt : Flag) :
    Answers files overrides interrupt ⟨path, 0, content.length.toUInt64⟩
      ((onward delimiter.bytes content 0).map delimiter.answer) := by
  let split : FileSplit := ⟨path, 0, content.length.toUInt64⟩
  have hreachable : LineCursor.Reachable files delimiter split.start :=
    LineCursor.reachable_of_le delimiter (Nat.zero_le _)
  have hend : split.start.toNat + split.length.toNat < 2 ^ 64 - 1 := by
    have hsmall := hholds.small
    show 0 + content.length.toUInt64.toNat < 2 ^ 64 - 1
    rw [toNat_length hsmall]
    omega
  have hanswers := answers_onward hdelimiter hholds hreachable hend interrupt
  have hstop : split.stop.toNat = content.length := by
    show (0 + content.length.toUInt64).toNat = _
    rw [UInt64.zero_add, toNat_length hholds.small]
  have hall : (onward delimiter.bytes content 0).takeWhile
      (fun r => decide (r.1 ≤ content.length)) = onward delimiter.bytes content 0 :=
    List.takeWhile_eq_self_iff.2 fun r hr => decide_eq_true
      (Nat.le_of_lt (fst_of_mem_onward (Delimiter.bytes_ne_nil hdelimiter) hr).2)
  unfold LineCursor.openedAt at hanswers
  rw [if_pos rfl, hstop, hall] at hanswers
  exact hanswers

/-- **Where no two delimiters overlap, the splits of a file have its records**, whatever their
size is. -/
theorem partitions_of_apart (hdelimiter : Delimiter.ofOverrides overrides = .ok delimiter)
    (hapart : Apart delimiter.bytes content) (hholds : files.Holds path content)
    (interrupt : Flag) (size : UInt64) :
    Partitions ρ files overrides interrupt path content size := by
  have hd := Delimiter.bytes_ne_nil hdelimiter
  have hlength := toNat_length hholds.small
  refine ⟨_, (carve ρ ⟨path, content.length.toUInt64⟩ size).map fun split =>
    (window split.start.toNat split.stop.toNat (onward delimiter.bytes content 0)).map
      delimiter.answer, answers_whole hdelimiter hholds interrupt, ?_, ?_⟩
  · rw [List.forall₂_map_right_iff, List.forall₂_same]
    intro split hsplit
    exact answers_of_mem_carve hdelimiter hapart hholds hlength interrupt hsplit
  · rw [← List.flatMap_def, ← List.map_flatMap, flatMap_window_carve]
    intro r hr
    rw [hlength]
    exact (fst_of_mem_onward hd hr).2

end

/-! ## delimiters with a border -/

/-- two occurrences of a delimiter that share `k` bytes, and bytes behind them that end none -/
def overlapping (d : Bytes) (k : Nat) : Bytes :=
  d ++ d.drop k ++ List.replicate (3 * d.length) (d.getLastD 0 + 1)

section
variable {d : Bytes} {k : Nat}

theorem length_overlapping (hk : k < d.length) :
    (overlapping d k).length = 5 * d.length - k := by
  unfold overlapping
  rw [List.length_append, List.length_append, List.length_drop, List.length_replicate]
  omega

theorem occurs_overlapping_zero : Occurs d (overlapping d k) 0 := by
  unfold Occurs overlapping
  rw [List.drop_zero, List.append_assoc]
  exact List.prefix_append _ _

/-- the end of the first occurrence begins the second one -/
theorem occurs_overlapping_border (hborder : d.take k = d.drop (d.length - k)) :
    Occurs d (overlapping d k) (d.length - k) := by
  unfold Occurs overlapping
  have hle : d.length - k ≤ d.length := Nat.sub_le _ _
  have hle' : d.length - k ≤ (d ++ d.drop k).length := by
    rw [List.length_append]
    omega
  rw [List.drop_append_of_le_length hle', List.drop_append_of_le_length hle, ← hborder,
    List.take_append_drop]
  exact List.prefix_append _ _

theorem le_of_occurs_overlapping {j : Nat} (hk : k < d.length) (h : Occurs d (overlapping d k) j) :
    j ≤ d.length - k := by
  by_contra hlt
  have hlt : d.length - k < j := Nat.lt_of_not_le hlt
  have hd : d ≠ [] := fun h => by simp [h] at hk
  have hend := h.le_length hd
  rw [length_overlapping hk] at hend
  have hlast : (overlapping d k)[j + (d.length - 1)]? = some (d.getLast hd) := by
    have hget := List.prefix_iff_getElem?.1 h (d.length - 1) (by omega)
    rw [List.getElem?_drop] at hget
    rw [hget, List.getLast_eq_getElem hd]
  have htail : (overlapping d k)[j + (d.length - 1)]? = some (d.getLastD 0 + 1) := by
    unfold overlapping
    have hlen : (d ++ d.drop k).length = d.length + (d.length - k) := by
      rw [List.length_append, List.length_drop]
    rw [List.getElem?_append_right (by omega), List.getElem?_replicate, if_pos (by omega)]
  have hsame : d.getLastD 0 = d.getLast hd := by
    rw [List.getLastD_eq_getLast?, List.getLast?_eq_some_getLast hd]
    rfl
  rw [hlast, hsame] at htail
  have hne : ∀ x : UInt8, x ≠ x + 1 := by
    intro x hx
    have hnat := congrArg UInt8.toNat hx
    have hone : (1 : UInt8).toNat = 1 := rfl
    rw [UInt8.toNat_add, hone] at hnat
    omega
  exact hne _ (Option.some.inj htail)

/-- **Read in one, the bytes have two records**: they are cut behind the first occurrence, and the
second one has begun before that. -/
theorem onward_overlapping (hd : d ≠ []) (hk0 : 0 < k) (hk : k < d.length) :
    ∃ first second, onward d (overlapping d k) 0 = [(0, first), (d.length, second)] := by
  have hlen := length_overlapping hk
  have hfirst : 0 + size d ((overlapping d k).drop 0) = 0 + d.length :=
    add_size_of_first (Nat.le_refl 0) occurs_overlapping_zero
      fun j _ hj => absurd hj (Nat.not_lt_zero j)
  have hsecond : d.length + size d ((overlapping d k).drop d.length) =
      (overlapping d k).length := by
    refine add_size_of_none (by omega) fun j hj hoc => ?_
    have := le_of_occurs_overlapping hk hoc
    omega
  rw [onward_of_lt hd (by omega), hfirst, Nat.zero_add, onward_of_lt hd (by omega), hsecond,
    onward_of_le (Nat.le_refl _)]
  exact ⟨_, _, rfl⟩

end

theorem carve_three {ρ : Type} [Ratio ρ] (hρ : SlopTold ρ) (file : FileStatus)
    {size : UInt64} (hsize : 0 < size) (hle : 3 * size.toNat ≤ file.length.toNat) :
    ∃ rest, carve ρ file size = ⟨file.path, 0, size⟩ :: ⟨file.path, size, size⟩ :: rest := by
  have hpos := hsize
  rw [UInt64.lt_iff_toNat_lt, UInt64.toNat_zero] at hpos
  have hsize_le : size ≤ file.length := by
    rw [UInt64.le_iff_toNat_le]
    omega
  have hsub := UInt64.toNat_sub_of_le _ _ hsize_le
  have hsize_le' : size ≤ file.length - size := by
    rw [UInt64.le_iff_toNat_le, hsub]
    omega
  have hne : ¬ file.length = 0 := by
    intro h0
    rw [h0, UInt64.toNat_zero] at hle
    omega
  have hback : file.length - (file.length - size) = size := by
    rw [← UInt64.toNat_inj, UInt64.toNat_sub_of_le _ _ (by
      rw [UInt64.le_iff_toNat_le, hsub]
      omega), hsub]
    omega
  unfold carve
  rw [if_neg hne, carveFrom, dif_pos ⟨hρ _ _ hsize (by omega), hsize, hsize_le⟩, UInt64.sub_self,
    carveFrom, dif_pos ⟨hρ _ _ hsize (by omega), hsize, hsize_le'⟩, hback]
  exact ⟨_, rfl⟩

section
variable {files : FileSystem} {overrides : Overrides} {delimiter : Delimiter} {path : String}
  {k : Nat} {answers : List (Except Fault Pair)}

theorem length_first_overlapping (hdelimiter : Delimiter.ofOverrides overrides = .ok delimiter)
    {n : UInt64} (hn : n.toNat = delimiter.bytes.length) (hk0 : 0 < k)
    (hk : k < delimiter.bytes.length)
    (hholds : files.Holds path (overlapping delimiter.bytes k)) {interrupt : Flag}
    (h : Answers files overrides interrupt ⟨path, 0, n⟩ answers) : answers.length = 2 := by
  let split : FileSplit := ⟨path, 0, n⟩
  have hreachable : LineCursor.Reachable files delimiter split.start :=
    LineCursor.reachable_of_le delimiter (Nat.zero_le _)
  have hend : split.start.toNat + split.length.toNat < 2 ^ 64 - 1 := by
    have hsmall := hholds.small
    rw [length_overlapping hk] at hsmall
    show 0 + n.toNat < 2 ^ 64 - 1
    omega
  have honward := answers_onward hdelimiter hholds hreachable hend interrupt
  have hstop : split.stop.toNat = delimiter.bytes.length := by
    show (0 + n).toNat = _
    rw [UInt64.zero_add, hn]
  obtain ⟨first, second, hrecords⟩ :=
    onward_overlapping (Delimiter.bytes_ne_nil hdelimiter) hk0 hk
  unfold LineCursor.openedAt at honward
  rw [if_pos rfl, hstop, hrecords, List.takeWhile_cons_of_pos (by simp),
    List.takeWhile_cons_of_pos (by simp)] at honward
  rw [h.unique honward]
  rfl

/-- The second split is searched from inside the first occurrence.  It finds the second one, and
begins a record behind it. -/
theorem second_overlapping_ne_nil (hdelimiter : Delimiter.ofOverrides overrides = .ok delimiter)
    (hlength : 8 * delimiter.bytes.length < 2 ^ 63)
    {n : UInt64} (hn : n.toNat = delimiter.bytes.length) (hk : k < delimiter.bytes.length)
    (hborder : delimiter.bytes.take k = delimiter.bytes.drop (delimiter.bytes.length - k))
    (hholds : files.Holds path (overlapping delimiter.bytes k)) {interrupt : Flag}
    (h : Answers files overrides interrupt ⟨path, n, n⟩ answers) : answers ≠ [] := by
  let split : FileSplit := ⟨path, n, n⟩
  have hd := Delimiter.bytes_ne_nil hdelimiter
  have hlen := length_overlapping hk
  have hreachable : LineCursor.Reachable files delimiter split.start := by
    have hsought := hholds.sought
    refine LineCursor.reachable_of_le delimiter ?_
    show n.toNat ≤ _
    omega
  have hend : split.start.toNat + split.length.toNat < 2 ^ 64 - 1 := by
    show n.toNat + n.toNat < 2 ^ 64 - 1
    omega
  have honward := answers_onward hdelimiter hholds hreachable hend interrupt
  have hstop : split.stop.toNat = 2 * delimiter.bytes.length := by
    show (n + n).toNat = _
    rw [UInt64.toNat_add, hn]
    omega
  have hsecond := occurs_overlapping_border hborder
  have hseek : (LineCursor.seekTo delimiter n).toNat ≤ delimiter.bytes.length - k :=
    ((LineCursor.sees_seekTo hd hholds.small n).iff _ hsecond).2 (by omega)
  have hopened : LineCursor.openedAt delimiter (overlapping delimiter.bytes k) n ≤
      2 * delimiter.bytes.length - k := by
    have hne : ¬ n = 0 := fun h0 => by
      rw [h0, UInt64.toNat_zero] at hn
      omega
    unfold LineCursor.openedAt
    rw [if_neg hne]
    rcases first_or_none delimiter.bytes (overlapping delimiter.bytes k)
      (LineCursor.seekTo delimiter n).toNat with ⟨i, hi, hoc, hfirst⟩ | hnone
    · have := le_of_occurs_overlapping hk hoc
      rw [add_size_of_first hi hoc hfirst]
      omega
    · exact absurd hsecond (hnone _ hseek)
  change LineCursor.openedAt delimiter _ split.start ≤ _ at hopened
  rw [onward_of_lt hd (by omega), List.takeWhile_cons_of_pos (by simpa using by omega)] at honward
  rw [h.unique honward]
  exact List.cons_ne_nil _ _

/-- **Read in parts, the bytes have more than two records.** -/
theorem not_partitions_overlapping {ρ : Type} [Ratio ρ] (hρ : SlopTold ρ)
    (hdelimiter : Delimiter.ofOverrides overrides = .ok delimiter)
    (hlength : 8 * delimiter.bytes.length < 2 ^ 63) {n : UInt64}
    (hn : n.toNat = delimiter.bytes.length) (hk0 : 0 < k) (hk : k < delimiter.bytes.length)
    (hborder : delimiter.bytes.take k = delimiter.bytes.drop (delimiter.bytes.length - k))
    (hholds : files.Holds path (overlapping delimiter.bytes k)) (interrupt : Flag) :
    ¬ Partitions ρ files overrides interrupt path (overlapping delimiter.bytes k) n := by
  rintro ⟨whole, parts, hwhole, hparts, hflatten⟩
  have hd := Delimiter.bytes_ne_nil hdelimiter
  have hlen := length_overlapping hk
  have hpos : 0 < n := by
    rw [UInt64.lt_iff_toNat_lt, hn, UInt64.toNat_zero]
    omega
  have hwide : 3 * n.toNat ≤ (overlapping delimiter.bytes k).length.toUInt64.toNat := by
    rw [hn, toNat_length hholds.small]
    omega
  have htwo : whole.length = 2 := by
    obtain ⟨first, second, hrecords⟩ := onward_overlapping hd hk0 hk
    rw [hwhole.unique (answers_whole hdelimiter hholds interrupt), hrecords]
    rfl
  obtain ⟨rest, hcarve⟩ :=
    carve_three hρ ⟨path, (overlapping delimiter.bytes k).length.toUInt64⟩ hpos hwide
  rw [hcarve] at hparts
  obtain ⟨a, _, ha, hmore, rfl⟩ := List.forall₂_cons_left_iff.1 hparts
  obtain ⟨b, _, hb, _, rfl⟩ := List.forall₂_cons_left_iff.1 hmore
  have ha2 := length_first_overlapping hdelimiter hn hk0 hk hholds ha
  have hb1 := List.length_pos_iff.2
    (second_overlapping_ne_nil hdelimiter hlength hn hk hborder hholds hb)
  rw [← hflatten, List.flatten_cons, List.flatten_cons, List.length_append, List.length_append]
    at htwo
  omega

end

/-! ## which delimiters are right for every file -/

theorem ofOverrides_custom {overrides : Overrides} {text : String}
    (hfind : overrides.find? Delimiter.overrideKey = some text) (hne : text ≠ "") :
    Delimiter.ofOverrides overrides = .ok (.custom (Utf8.encode text)) := by
  have hempty : ¬ text.isEmpty = true := fun h => hne (String.isEmpty_iff.1 h)
  unfold Delimiter.ofOverrides
  rw [hfind]
  exact if_neg hempty

/-- **The splits of a file have its records where no two delimiters overlap, and on every file
exactly if the delimiter has no border.**  A delimiter of `2 ^ 60` bytes or more is not meant. -/
theorem partitions_iff_unbordered {ρ : Type} [Ratio ρ] (hρ : SlopTold ρ) {overrides : Overrides}
    {text : String} (hfind : overrides.find? Delimiter.overrideKey = some text) (hne : text ≠ "")
    (hlength : 8 * (Utf8.encode text).length < 2 ^ 63) (interrupt : Flag) :
    (∀ (files : FileSystem) (path : String) (content : Bytes), files.Holds path content →
      Apart (Utf8.encode text) content → ∀ size : UInt64, 0 < size →
        Partitions ρ files overrides interrupt path content size) ∧
    ((∀ (files : FileSystem) (path : String) (content : Bytes), files.Holds path content →
      ∀ size : UInt64, 0 < size → Partitions ρ files overrides interrupt path content size) ↔
        Unbordered (Utf8.encode text)) := by
  have hdelimiter := ofOverrides_custom hfind hne
  refine ⟨fun files path content hholds hapart size _ => ?_, fun hall => ?_, fun hunbordered => ?_⟩
  · exact partitions_of_apart hdelimiter hapart hholds interrupt size
  · intro k hk0 hk hborder
    have hn := toNat_length (show (Utf8.encode text).length < 2 ^ 63 by omega)
    have hsmall : (overlapping (Utf8.encode text) k).length < 2 ^ 63 := by
      rw [length_overlapping hk]
      omega
    have hpos : 0 < (Utf8.encode text).length.toUInt64 := by
      rw [UInt64.lt_iff_toNat_lt, hn, UInt64.toNat_zero]
      omega
    have hholds := FileSystem.holds_single hsmall
    exact not_partitions_overlapping hρ hdelimiter hlength hn hk0 hk hborder hholds interrupt
      (hall _ _ _ hholds _ hpos)
  · intro files path content hholds size _
    exact partitions_of_apart hdelimiter (hunbordered.apart content) hholds interrupt size

/-- overrides that ask for two bars as the delimiter -/
def bars : Overrides := .ofList [(Delimiter.overrideKey, "||")]

/-- two bars, in exact fractions -/
theorem partitions_bars :
    (∀ (files : FileSystem) (path : String) (content : Bytes), files.Holds path content →
      Apart (Utf8.encode "||") content → ∀ size : UInt64, 0 < size →
        Partitions ℚ files bars ⟨0⟩ path content size) ∧
    ((∀ (files : FileSystem) (path : String) (content : Bytes), files.Holds path content →
      ∀ size : UInt64, 0 < size → Partitions ℚ files bars ⟨0⟩ path content size) ↔
        Unbordered (Utf8.encode "||")) :=
  partitions_iff_unbordered slopTold_rat (by decide) (by decide) (by decide) ⟨0⟩

/-- Three bars, read in splits of two bytes: the second split has a record of its own. -/
theorem not_partitions_bars :
    (FileSystem.single [0x7C, 0x7C, 0x7C, 0x7D, 0x7D, 0x7D, 0x7D, 0x7D, 0x7D]).Holds "f"
      [0x7C, 0x7C, 0x7C, 0x7D, 0x7D, 0x7D, 0x7D, 0x7D, 0x7D] ∧
    ¬ Partitions ℚ (FileSystem.single [0x7C, 0x7C, 0x7C, 0x7D, 0x7D, 0x7D, 0x7D, 0x7D, 0x7D])
      bars ⟨0⟩ "f" [0x7C, 0x7C, 0x7C, 0x7D, 0x7D, 0x7D, 0x7D, 0x7D, 0x7D] 2 := by
  have hfind : bars.find? Delimiter.overrideKey = some "||" := by decide
  have hdelimiter := ofOverrides_custom hfind (by decide)
  have hholds : (FileSystem.single (overlapping [0x7C, 0x7C] 1)).Holds "f"
      (overlapping [0x7C, 0x7C] 1) := FileSystem.holds_single (by decide)
  exact ⟨hholds, not_partitions_overlapping slopTold_rat hdelimiter (by decide) rfl
    (Nat.le_refl 1) (by decide) rfl hholds ⟨0⟩⟩

end Splittable.LineText
