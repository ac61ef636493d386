import Splittable.Proofs.LineText.Ranges

/-!
# Calls to a cursor

A cursor is asked for its next record again and again, with its flag raised or not.  Where its split
ends before the last word, no call stops the program.

* `LineCursor.after`         a cursor after any calls, and `after_keeps` what they keep;
* `LineCursor.Room`          the words suffice, and each call keeps that;
* `LineText.of_openCursor`   where a cursor stands once it is open, and `room_of_openCursor` whether
  it has room.
-/

namespace Splittable

namespace LineCursor

open Pieces

variable {files : FileSystem} {cursor : LineCursor}

/-- a cursor after calls, each with its flag raised or not -/
def after (files : FileSystem) (cursor : LineCursor) : List Bool → LineCursor
  | [] => cursor
  | raised :: calls => (cursor.next files raised).2.after files calls

theorem after_append (calls more : List Bool) :
    cursor.after files (calls ++ more) = (cursor.after files calls).after files more := by
  induction calls generalizing cursor with
  | nil => rfl
  | cons raised calls ih => exact ih

/-- What every call that is not interrupted keeps, all calls keep. -/
theorem after_keeps {P : LineCursor → Prop}
    (hstep : ∀ cursor, P cursor → P (cursor.next files false).2) (h : P cursor)
    (calls : List Bool) : P (cursor.after files calls) := by
  induction calls generalizing cursor with
  | nil => exact h
  | cons raised calls ih =>
    cases raised with
    | true => exact ih h
    | false => exact ih (hstep cursor h)

/-! ## enough room -/

/-- There is a word behind the stop, and one for every position up to the end of the file. -/
structure Room (files : FileSystem) (cursor : LineCursor) : Prop where
  delimiter : cursor.delimiter.bytes ≠ []
  stop : cursor.stop.toNat < 2 ^ 64 - 1
  ahead : ∃ ahead, Faces files cursor ahead ∧ cursor.position.toNat + ahead.length < 2 ^ 64

/-- **With enough room no call stops the program.** -/
theorem Room.advances (h : Room files cursor) :
    ∃ ahead, Faces files cursor ahead ∧ cursor.position.toNat + ahead.length < 2 ^ 64 ∧
      Advances files cursor ahead (cursor.next files false) ∧
      (cursor.next files false).1 ≠ .error .overflow := by
  obtain ⟨ahead, hfaces, hroom⟩ := h.ahead
  have hcall := hfaces.advances h.delimiter
  refine ⟨ahead, hfaces, hroom, hcall, ?_⟩
  generalize cursor.next files false = call at hcall
  cases hcall with
  | behind => exact fun h => by cases h
  | drained => exact fun h => by cases h
  | piece => exact pair_ne_overflow _ _
  | overflow file hstop hpast =>
    have hsize : size cursor.delimiter.bytes ahead ≤ ahead.length := size_le
    have hlast := h.stop
    split at hpast
    · omega
    · omega

theorem Room.next (h : Room files cursor) : Room files (cursor.next files false).2 := by
  obtain ⟨ahead, hfaces, hroom, hcall, hgoes⟩ := h.advances
  generalize cursor.next files false = call at hcall hgoes
  cases hcall with
  | behind => exact h
  | drained file position _ _ _ hleft =>
    exact ⟨h.delimiter, h.stop, [], hleft, position.toNat_lt⟩
  | piece file position n _ hsize _ hposition hleft =>
    have hle : size cursor.delimiter.bytes ahead ≤ ahead.length := size_le
    refine ⟨h.delimiter, h.stop, _, hleft, ?_⟩
    rw [List.length_drop]
    dsimp only
    omega
  | overflow => exact absurd rfl hgoes

theorem Room.after (h : Room files cursor) (calls : List Bool) :
    Room files (cursor.after files calls) :=
  after_keeps (fun _ h => h.next) h calls

theorem openedAt_le (delimiter : Delimiter) (content : Bytes) (start : UInt64) :
    openedAt delimiter content start ≤ max (seekTo delimiter start).toNat content.length := by
  unfold openedAt
  split
  · exact Nat.zero_le _
  · have hsize : size delimiter.bytes (content.drop (seekTo delimiter start).toNat) ≤
        (content.drop (seekTo delimiter start).toNat).length := size_le
    rw [List.length_drop] at hsize
    dsimp only
    omega

end LineCursor

namespace LineText

variable {files : FileSystem} {overrides : Overrides} {delimiter : Delimiter} {split : FileSplit}
  {content : Bytes} {interrupt : Flag} {cursor : LineCursor}

/-- An open cursor stands where its split asks for, and could be sought to. -/
theorem of_openCursor (hdelimiter : Delimiter.ofOverrides overrides = .ok delimiter)
    (hholds : files.Holds split.path content)
    (hopen : openCursor files (.file split) overrides interrupt = .ok cursor) :
    LineCursor.Reachable files delimiter split.start ∧
      cursor.Stands files content (LineCursor.openedAt delimiter content split.start) ∧
      cursor.delimiter = delimiter ∧
      cursor.stop.toNat = split.start.toNat + split.length.toNat := by
  have hstop := Word.add_eq_ok_iff.1 (of_openCursor_file hopen).1
  have hfits := cursor.stop.toNat_lt
  rw [hstop] at hfits
  by_cases hreachable : LineCursor.Reachable files delimiter split.start
  · obtain ⟨opened, hopened, hstands, hbytes, -, -⟩ :=
      openCursor_stands hdelimiter hholds hreachable hfits interrupt
    rw [hopen] at hopened
    cases hopened
    exact ⟨hreachable, hstands, hbytes, hstop⟩
  · rw [openCursor_of_unreachable hdelimiter hholds hreachable] at hopen
    cases hopen

/-- The cursor of a split that ends before the last word has enough room. -/
theorem room_of_openCursor (hdelimiter : Delimiter.ofOverrides overrides = .ok delimiter)
    (hholds : files.Holds split.path content)
    (hend : split.start.toNat + split.length.toNat < 2 ^ 64 - 1)
    (hopen : openCursor files (.file split) overrides interrupt = .ok cursor) :
    cursor.Room files := by
  obtain ⟨hreachable, hstands, rfl, hstop⟩ := of_openCursor hdelimiter hholds hopen
  refine ⟨Delimiter.bytes_ne_nil hdelimiter, by omega, _, hstands.faces, ?_⟩
  have hsmall := hholds.small
  have hlimit := files.seekLimit.isLt
  have hseek : (LineCursor.seekTo cursor.delimiter split.start).toNat ≤ files.seekLimit :=
    hreachable
  have hle := LineCursor.openedAt_le cursor.delimiter content split.start
  rw [hstands.position, List.length_drop]
  omega

end LineText

end Splittable
