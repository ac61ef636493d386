import Splittable.Proofs.LineText.Calls
import Splittable.Proofs.Ratio.Parts

/-!
# The position and the progress of a cursor

A cursor counts in words.  Where its split ends before the last word there is, it counts as the
natural numbers do, goes forward, and tells a progress that grows to the whole split.  A split that
ends at the last word has no word behind its end: there the program stops when the file ends, and
the end is never answered.

* `LineCursor.Exact`        a call after which the position is right;
* `LineCursor.exactProgress`   progress in natural numbers;
* `LineCursor.Steadfast`    what is expected of a cursor over all calls;
* `LineCursor.Room.steadfast`   a cursor with enough room is as expected;
* `LineCursor.Stands.exists_overflow`   one that goes up to the last word is not;
* `LineText.steadfast_iff`  which cursors are as expected.
-/

namespace Splittable

namespace LineCursor

open Pieces

variable {ρ : Type} [Ratio ρ] {files : FileSystem} {cursor later : LineCursor}

/-! ## what is expected -/

/-- A call that reads moves the position on by the bytes it takes, or behind the stop where none is
left, both in natural numbers. -/
def Exact (files : FileSystem) (cursor : LineCursor) : Prop :=
  ∀ ahead, Faces files cursor ahead → cursor.position ≤ cursor.stop →
    (cursor.next files false).2.position.toNat =
      if ahead = [] then cursor.stop.toNat + 1
      else cursor.position.toNat + size cursor.delimiter.bytes ahead

/-- progress in natural numbers -/
def exactProgress (ρ : Type) [Ratio ρ] (start stop position : Nat) : ρ :=
  if stop ≤ start then if stop < position then Ratio.one else Ratio.zero
  else Ratio.atMost Ratio.one (Ratio.ofNat (position - start) / Ratio.ofNat (stop - start))

/-- Whatever calls are made, no word overflows, the position goes forward and the progress grows
from nothing to the whole.  At the end it is the whole, and the end stays the end. -/
structure Steadfast (ρ : Type) [Ratio ρ] (files : FileSystem) (cursor : LineCursor) : Prop where
  fits : ∀ calls, ((cursor.after files calls).next files false).1 ≠ .error .overflow
  exact : ∀ calls, Exact files (cursor.after files calls)
  measured : ∀ calls, ((cursor.after files calls).progress : ρ) =
    exactProgress ρ cursor.start.toNat cursor.stop.toNat
      (cursor.after files calls).position.toNat
  forward : ∀ calls more,
    (cursor.after files calls).position ≤ (cursor.after files (calls ++ more)).position
  bounded : ∀ calls,
    Ratio.below ((cursor.after files calls).progress : ρ) Ratio.zero = false ∧
      Ratio.below Ratio.one ((cursor.after files calls).progress : ρ) = false
  growing : ∀ calls more,
    Ratio.below ((cursor.after files (calls ++ more)).progress : ρ)
      (cursor.after files calls).progress = false
  ended : ∀ calls, ((cursor.after files calls).next files false).1 = .ok none → ∀ more,
    let later := cursor.after files (calls ++ false :: more)
    (later.progress : ρ) = Ratio.one ∧ (later.next files false).1 = .ok none

/-! ## progress -/

/-- how many bytes of the split lie before the position -/
def done (cursor : LineCursor) : UInt64 :=
  if cursor.position < cursor.start then 0 else cursor.position - cursor.start

theorem progress_eq (cursor : LineCursor) : (cursor.progress : ρ) =
    if cursor.stop ≤ cursor.start then
      if cursor.stop < cursor.position then Ratio.one else Ratio.zero
    else Ratio.atMost Ratio.one (Ratio.part cursor.done (cursor.stop - cursor.start)) := rfl

theorem toNat_done (cursor : LineCursor) :
    cursor.done.toNat = cursor.position.toNat - cursor.start.toNat := by
  unfold done
  split
  · rename_i hlt
    rw [UInt64.lt_iff_toNat_lt] at hlt
    rw [UInt64.toNat_zero, Nat.sub_eq_zero_of_le (Nat.le_of_lt hlt)]
  · rename_i hge
    exact UInt64.toNat_sub_of_le _ _ (UInt64.not_lt.1 hge)

/-- The words of progress are subtracted only where the difference is one. -/
theorem progress_exact (cursor : LineCursor) : (cursor.progress : ρ) =
    exactProgress ρ cursor.start.toNat cursor.stop.toNat cursor.position.toNat := by
  rw [progress_eq]
  unfold exactProgress Ratio.part
  simp only [UInt64.le_iff_toNat_le, UInt64.lt_iff_toNat_lt, toNat_done]
  split
  · rfl
  · rename_i hlt
    rw [UInt64.toNat_sub_of_le _ _ (UInt64.le_iff_toNat_le.2 (Nat.le_of_not_le hlt))]

/-- the split of a cursor with a start before its stop has a size -/
theorem whole_pos (h : ¬cursor.stop ≤ cursor.start) : 0 < cursor.stop - cursor.start := by
  have hlt := UInt64.not_le.1 h
  rw [UInt64.lt_iff_toNat_lt, UInt64.toNat_sub_of_le _ _ (UInt64.le_of_lt hlt)]
  rw [UInt64.lt_iff_toNat_lt] at hlt
  exact Nat.sub_pos_of_lt hlt

theorem progress_bounded (hρ : Ratio.Parts ρ) (cursor : LineCursor) :
    Ratio.below (cursor.progress : ρ) Ratio.zero = false ∧
      Ratio.below Ratio.one (cursor.progress : ρ) = false := by
  rw [progress_eq]
  split
  · split
    · exact ⟨hρ.not_one_below_zero, hρ.irrefl _⟩
    · exact ⟨hρ.irrefl _, hρ.not_one_below_zero⟩
  · rename_i hlt
    exact ⟨hρ.atMost_nonneg (hρ.nonneg (whole_pos hlt) _), hρ.atMost_le _⟩

/-- the same split, read as far or farther -/
structure Follows (cursor later : LineCursor) : Prop where
  start : later.start = cursor.start
  stop : later.stop = cursor.stop
  position : cursor.position ≤ later.position

theorem Follows.refl (cursor : LineCursor) : Follows cursor cursor :=
  ⟨rfl, rfl, UInt64.le_refl _⟩

theorem Follows.trans {last : LineCursor} (h : Follows cursor later) (h' : Follows later last) :
    Follows cursor last :=
  ⟨h'.start.trans h.start, h'.stop.trans h.stop, UInt64.le_trans h.position h'.position⟩

/-- **Progress grows with the position.** -/
theorem Follows.progress (hρ : Ratio.Parts ρ) (h : Follows cursor later) :
    Ratio.below (later.progress : ρ) cursor.progress = false := by
  have hposition := UInt64.le_iff_toNat_le.1 h.position
  rw [progress_eq, progress_eq, h.start, h.stop]
  split
  · split
    · split
      · exact hρ.irrefl _
      · exact hρ.not_one_below_zero
    · split
      · rename_i hnot hbehind
        rw [UInt64.lt_iff_toNat_lt] at hnot hbehind
        omega
      · exact hρ.irrefl _
  · rename_i hlt
    refine hρ.atMost_mono (hρ.mono (whole_pos hlt) ?_)
    rw [UInt64.le_iff_toNat_le, toNat_done, toNat_done, h.start]
    omega

/-- Behind the stop all of the split is read. -/
theorem progress_of_stop_lt (hρ : Ratio.Parts ρ) (h : cursor.stop < cursor.position) :
    (cursor.progress : ρ) = Ratio.one := by
  rw [progress_eq]
  by_cases hlt : cursor.stop ≤ cursor.start
  · rw [if_pos hlt, if_pos h]
  · rw [if_neg hlt]
    refine hρ.atMost_eq_one (whole_pos hlt) ?_
    rw [UInt64.lt_iff_toNat_lt] at h
    rw [UInt64.le_iff_toNat_le, toNat_done,
      UInt64.toNat_sub_of_le _ _ (UInt64.le_of_lt (UInt64.not_le.1 hlt))]
    omega

/-! ## enough room -/

theorem Faces.unique {a b : Bytes} (ha : Faces files cursor a) (hb : Faces files cursor b) :
    a = b := by
  obtain ⟨file, bytes, hfile, hbytes, rfl⟩ := ha
  obtain ⟨file', bytes', hfile', hbytes', rfl⟩ := hb
  cases hfile.symm.trans hfile'
  cases hbytes.symm.trans hbytes'
  rfl

/-- **With enough room a call is exact**, and it answers the end only once the position is behind
the stop. -/
theorem Room.exact (h : Room files cursor) :
    Exact files cursor ∧ Follows cursor (cursor.next files false).2 ∧
      ((cursor.next files false).1 = .ok none →
        (cursor.next files false).2.stop < (cursor.next files false).2.position) := by
  obtain ⟨ahead, hfaces, -, hcall, hgoes⟩ := h.advances
  unfold Exact
  generalize cursor.next files false = call at hcall hgoes ⊢
  cases hcall with
  | behind hstop =>
    exact ⟨fun _ _ hle => absurd hstop (UInt64.not_lt.2 hle), .refl cursor, fun _ => hstop⟩
  | drained file position hstop hnone hposition =>
    subst hnone
    refine ⟨fun _ hother _ => ?_, ⟨rfl, rfl, ?_⟩, fun _ => ?_⟩
    · rw [hother.unique hfaces, if_pos rfl]
      exact hposition
    · rw [UInt64.le_iff_toNat_le] at hstop ⊢
      dsimp only
      omega
    · rw [UInt64.lt_iff_toNat_lt]
      dsimp only
      omega
  | piece file position n hstop hsize hpos hposition =>
    have hle : n ≤ ahead.length := hsize ▸ size_le
    refine ⟨fun _ hother _ => ?_, ⟨rfl, rfl, ?_⟩, fun hend => ?_⟩
    · have hne : ahead ≠ [] := by
        rintro rfl
        exact Nat.not_le_of_lt hpos hle
      rw [hother.unique hfaces, if_neg hne, hsize]
      exact hposition
    · rw [UInt64.le_iff_toNat_le]
      dsimp only
      omega
    · exact (pair_ne_end _ _ hend).elim
  | overflow => exact absurd rfl hgoes

theorem Room.follows (h : Room files cursor) (calls : List Bool) :
    Follows cursor (cursor.after files calls) := by
  refine (after_keeps (P := fun later => Room files later ∧ Follows cursor later) ?_
    ⟨h, .refl cursor⟩ calls).2
  intro later h
  exact ⟨h.1.next, h.2.trans h.1.exact.2.1⟩

/-- Behind its stop a cursor stays as it is. -/
theorem after_of_stop_lt (h : cursor.stop < cursor.position) (calls : List Bool) :
    cursor.after files calls = cursor := by
  induction calls with
  | nil => rfl
  | cons raised calls ih =>
    cases raised with
    | true => exact ih
    | false =>
      unfold LineCursor.after
      rw [next_of_stop_lt h]
      exact ih

/-- **A cursor with enough room is as expected.** -/
theorem Room.steadfast (hρ : Ratio.Parts ρ) (h : Room files cursor) :
    Steadfast ρ files cursor where
  fits calls := by
    obtain ⟨-, -, -, -, hgoes⟩ := (h.after calls).advances
    exact hgoes
  exact calls := (h.after calls).exact.1
  measured calls := by
    have hfollows := h.follows calls
    rw [progress_exact, hfollows.start, hfollows.stop]
  forward calls more := by
    rw [after_append]
    exact ((h.after calls).follows more).position
  bounded calls := progress_bounded hρ _
  growing calls more := by
    rw [after_append]
    exact ((h.after calls).follows more).progress hρ
  ended calls hend more := by
    have hbehind := (h.after calls).exact.2.2 hend
    have hlater : cursor.after files (calls ++ false :: more) =
        ((cursor.after files calls).next files false).2 := by
      rw [after_append]
      exact after_of_stop_lt hbehind more
    dsimp only
    rw [hlater, next_of_stop_lt hbehind]
    exact ⟨progress_of_stop_lt hρ hbehind, rfl⟩

/-! ## the last word -/

section
variable {content : Bytes} {p : Nat}

/-- **No word is behind the last one**: a cursor that stops there gets to the end of its file, and
the call there stops the program. -/
theorem Stands.exists_overflow (h : Stands files content cursor p)
    (hd : cursor.delimiter.bytes ≠ []) (hsmall : content.length < 2 ^ 63)
    (hlast : cursor.stop.toNat = 2 ^ 64 - 1) :
    ∃ calls, ((cursor.after files calls).next files false).1 = .error .overflow := by
  induction hn : content.length - p using Nat.strong_induction_on generalizing cursor p with
  | _ n ih =>
    by_cases hlen : p < content.length
    · have hpos := size_drop_pos hd hlen
      obtain ⟨after, hnext, hstands, hdelimiter, hstop⟩ :=
        h.next_of_lt hd hsmall hlen (by omega)
      obtain ⟨calls, hcalls⟩ := ih _ (by omega) hstands (by rw [hdelimiter]; exact hd)
        (by rw [hstop]; exact hlast) rfl
      refine ⟨false :: calls, ?_⟩
      rw [LineCursor.after, hnext]
      exact hcalls
    · exact ⟨[], (h.next_of_length_le hd (Nat.le_of_not_lt hlen)).trans (if_neg (by omega))⟩

end

end LineCursor

namespace LineText

variable {ρ : Type} [Ratio ρ] {files : FileSystem} {overrides : Overrides}
  {delimiter : Delimiter} {split : FileSplit} {content : Bytes} {interrupt : Flag}
  {cursor : LineCursor}

/-- **A cursor is as expected exactly if its split ends before the last word.**  Where it stands
once it is open, and where its split ends, is right in either case. -/
theorem steadfast_iff (hρ : Ratio.Parts ρ)
    (hdelimiter : Delimiter.ofOverrides overrides = .ok delimiter)
    (hholds : files.Holds split.path content)
    (hopen : openCursor files (.file split) overrides interrupt = .ok cursor) :
    cursor.start = cursor.position ∧
      cursor.position.toNat = LineCursor.openedAt delimiter content split.start ∧
      cursor.stop.toNat = split.start.toNat + split.length.toNat ∧
      (cursor.Steadfast ρ files ↔ split.start.toNat + split.length.toNat < 2 ^ 64 - 1) := by
  obtain ⟨-, hstands, hbytes, hstop⟩ := of_openCursor hdelimiter hholds hopen
  refine ⟨(of_openCursor_file hopen).2.1, hstands.position, hstop, ?_, fun hend => ?_⟩
  · intro hsteadfast
    by_contra hlast
    have hd : cursor.delimiter.bytes ≠ [] := hbytes ▸ Delimiter.bytes_ne_nil hdelimiter
    have hbound := cursor.stop.toNat_lt
    obtain ⟨calls, hcalls⟩ := hstands.exists_overflow hd hholds.small (by omega)
    exact hsteadfast.fits calls hcalls
  · exact (room_of_openCursor hdelimiter hholds hend hopen).steadfast hρ

/-- A split that starts inside the only line of its file. -/
theorem steadfast_iff_line :
    let files := FileSystem.single (Utf8.encode "a\n")
    let split : FileSplit := ⟨"f", 1, 1⟩
    Ratio.Parts ℚ ∧ Delimiter.ofOverrides {} = .ok .newline ∧
      files.Holds split.path (Utf8.encode "a\n") ∧
      ∃ cursor, openCursor files (.file split) {} ⟨0⟩ = .ok cursor ∧
        cursor.Steadfast ℚ files := by
  intro files split
  have hholds : files.Holds split.path (Utf8.encode "a\n") :=
    FileSystem.holds_single (by decide)
  have hnewline : Delimiter.ofOverrides {} = .ok .newline := rfl
  obtain ⟨cursor, hopen, -⟩ := openCursor_stands hnewline hholds
    (show LineCursor.Reachable files .newline split.start by decide) (by decide) ⟨0⟩
  obtain ⟨-, -, -, hiff⟩ := steadfast_iff Ratio.parts_rat rfl hholds hopen
  exact ⟨Ratio.parts_rat, rfl, hholds, cursor, hopen, hiff.2 (by decide)⟩

/-- One line, read by a split that ends at the last word: the line is answered, and then the program
stops instead of answering the end. -/
theorem not_steadfast_last :
    let files := FileSystem.single (Utf8.encode "a\n")
    let split : FileSplit := ⟨"f", 0, 0xFFFFFFFFFFFFFFFF⟩
    split.start.toNat + split.length.toNat < 2 ^ 64 ∧
    ∃ cursor, openCursor files (.file split) {} ⟨0⟩ = .ok cursor ∧
      (cursor.next files false).1 = .ok (some ⟨.long 0, .text "a"⟩) ∧
      ((cursor.after files [false]).next files false).1 = .error .overflow ∧
      ¬cursor.Steadfast ℚ files := by
  intro files split
  have hd : Delimiter.newline.bytes ≠ [] := List.cons_ne_nil _ _
  have hholds : files.Holds split.path (Utf8.encode "a\n") :=
    FileSystem.holds_single (by decide)
  have hfits : split.start.toNat + split.length.toNat < 2 ^ 64 := by decide
  have hnewline : Delimiter.ofOverrides {} = .ok .newline := rfl
  obtain ⟨cursor, hopen, hstands, hdelimiter, hstop, -⟩ :=
    openCursor_stands hnewline hholds (by decide) hfits ⟨0⟩
  have hlast : cursor.stop.toNat = 2 ^ 64 - 1 := by
    rw [hstop, FileSplit.toNat_stop_of_le (by omega)]
    decide
  have hstands : cursor.Stands files (Utf8.encode "a\n") 0 := hstands
  obtain ⟨after, hnext, hstands', hdelimiter', hstop'⟩ :=
    hstands.next_of_lt (by rw [hdelimiter]; exact hd) hholds.small (by decide) (Nat.zero_le _)
  rw [hdelimiter] at hstands' hnext
  have hover : ((cursor.after files [false]).next files false).1 = .error .overflow := by
    show ((cursor.next files false).2.next files false).1 = _
    rw [hnext]
    refine (hstands'.next_of_length_le (by rw [hdelimiter', hdelimiter]; exact hd)
      (by decide)).trans (if_neg ?_)
    rw [hstop', hlast]
    exact Nat.lt_irrefl _
  have hpiece : ((Utf8.encode "a\n").drop 0).take
      (Pieces.size Delimiter.newline.bytes ((Utf8.encode "a\n").drop 0)) = Utf8.encode "a\n" := by
    decide
  have hline : Delimiter.newline.answer (0, Utf8.encode "a\n") = .ok ⟨.long 0, .text "a"⟩ := by
    decide +kernel
  refine ⟨hfits, cursor, hopen, ?_, hover, fun hsteadfast => hsteadfast.fits [false] hover⟩
  rw [hnext, hpiece, hline]
  rfl

end LineText

end Splittable
