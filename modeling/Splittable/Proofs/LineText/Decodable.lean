import Splittable.Proofs.LineText.Calls

/-!
# Records of a text are texts

A delimiter that is a text begins and ends between characters.  So whatever a cursor of a file of
text has passed over, be it the end of a character that its split starts in, a text is left to it,
and all that it answers is text.

* `Text.exists_drop_openedAt`   the bytes that are left once a cursor is open;
* `LineCursor.FacesText`        a text is left to a cursor, and each call keeps that;
* `LineText.answers_text`       no call finds bytes that are no text.
-/

namespace Splittable

namespace Text

open Pieces

/-- What is left behind the first delimiter from any byte on is a text. -/
theorem exists_drop_size {ds : List Char} (hds : ds ≠ []) (cs : List Char) (seek : Nat) :
    ∃ rest, (bytesOf cs).drop (seek + size (bytesOf ds) ((bytesOf cs).drop seek)) =
      bytesOf rest := by
  rcases first_or_none (bytesOf ds) (bytesOf cs) seek with ⟨i, hi, hoc, hfirst⟩ | hnone
  · obtain ⟨before, after, rfl, rfl⟩ := exists_of_occurs hds hoc
    refine ⟨after, ?_⟩
    rw [add_size_of_first hi hoc hfirst, bytesOf_append, bytesOf_append, ← List.length_append,
      List.drop_left]
  · refine ⟨[], List.drop_eq_nil_of_le ?_⟩
    by_cases hseek : seek ≤ (bytesOf cs).length
    · exact Nat.le_of_eq (add_size_of_none hseek hnone).symm
    · omega

theorem exists_drop_openedAt {delimiter : Delimiter} {ds : List Char} (hds : ds ≠ [])
    (hbytes : delimiter.bytes = bytesOf ds) (cs : List Char) (start : UInt64) :
    ∃ rest, (bytesOf cs).drop (LineCursor.openedAt delimiter (bytesOf cs) start) =
      bytesOf rest := by
  unfold LineCursor.openedAt
  split
  · exact ⟨cs, rfl⟩
  · rw [hbytes]
    exact exists_drop_size hds cs _

end Text

namespace LineCursor

open Text Pieces

/-- A text is left to a cursor whose delimiter is one. -/
structure FacesText (files : FileSystem) (ds : List Char) (cursor : LineCursor) : Prop where
  delimiter : cursor.delimiter.bytes = bytesOf ds
  ahead : ∃ cs, Faces files cursor (bytesOf cs)

variable {files : FileSystem} {ds : List Char} {cursor : LineCursor}

/-- **A call takes a text off the text that is left**, or finds the end; if it fails, then because
the offset behind that is no word. -/
theorem FacesText.next (h : FacesText files ds cursor) (hds : ds ≠ []) :
    (∀ fault, (cursor.next files false).1 = .error fault → fault = .overflow) ∧
      FacesText files ds (cursor.next files false).2 := by
  obtain ⟨hbytes, cs, hfaces⟩ := h
  have hd : cursor.delimiter.bytes ≠ [] := by
    rw [hbytes]
    exact bytesOf_ne_nil hds
  obtain ⟨front, rest, rfl, hfront⟩ := exists_size_eq hds cs
  have hleft : (bytesOf (front ++ rest)).drop
      (size cursor.delimiter.bytes (bytesOf (front ++ rest))) = bytesOf rest := by
    rw [hbytes, hfront, bytesOf_append, List.drop_left]
  have hcall := hfaces.advances hd
  generalize cursor.next files false = call at hcall ⊢
  cases hcall with
  | behind => exact ⟨fun _ h => (nomatch h), hbytes, _, hfaces⟩
  | drained file position _ _ _ hend => exact ⟨fun _ h => (nomatch h), hbytes, [], hend⟩
  | piece file position n _ hsize _ _ hafter =>
    subst hsize
    rw [hleft] at hafter
    have hpair : pairOf cursor.position (cursor.delimiter.record (bytesOf front)) =
        .ok ⟨.long cursor.position, .text (cursor.delimiter.line (bytesOf front))⟩ := by
      have := Delimiter.answer_of_text hds hbytes cursor.position.toNat front
      rwa [Delimiter.answer, show cursor.position.toNat.toUInt64 = cursor.position from
        UInt64.ofNat_toNat] at this
    rw [hbytes, hfront, bytesOf_append, List.take_left, hpair]
    exact ⟨fun _ h => (nomatch h), hbytes, rest, hafter⟩
  | overflow file _ _ hafter =>
    rw [hleft] at hafter
    refine ⟨fun _ h => ?_, hbytes, rest, hafter⟩
    cases h
    rfl

end LineCursor

namespace LineText

open Text

variable {files : FileSystem} {overrides : Overrides} {delimiter : Delimiter} {split : FileSplit}
  {text : String}

/-- **No call to a cursor of a file of text finds bytes that are no text**, wherever its split
starts and ends and whatever was called before: it answers a record, or that there is none.  Only
where the split ends at the last word can a call stop the program instead.  There is such a cursor
wherever the file system can seek to where reading starts. -/
theorem answers_text (hdelimiter : Delimiter.ofOverrides overrides = .ok delimiter)
    (hholds : files.Holds split.path (Utf8.encode text)) (interrupt : Flag) :
    (LineCursor.Reachable files delimiter split.start →
      split.start.toNat + split.length.toNat < 2 ^ 64 →
      ∃ cursor, openCursor files (.file split) overrides interrupt = .ok cursor) ∧
    ∀ cursor, openCursor files (.file split) overrides interrupt = .ok cursor → ∀ calls,
      (split.start.toNat + split.length.toNat < 2 ^ 64 - 1 →
        ∃ answer, ((cursor.after files calls).next files false).1 = .ok answer) ∧
      ∀ fault, ((cursor.after files calls).next files false).1 = .error fault →
        fault = .overflow := by
  obtain ⟨ds, hds, hbytes⟩ := Delimiter.exists_bytes_eq hdelimiter
  constructor
  · intro hreachable hfits
    obtain ⟨cursor, hopen, -⟩ := openCursor_stands hdelimiter hholds hreachable hfits interrupt
    exact ⟨cursor, hopen⟩
  · intro cursor hopen calls
    obtain ⟨-, hstands, hdelimiter', -⟩ := of_openCursor hdelimiter hholds hopen
    have hopened : LineCursor.FacesText files ds cursor := by
      refine ⟨by rw [hdelimiter', hbytes], ?_⟩
      obtain ⟨rest, hrest⟩ := exists_drop_openedAt hds hbytes text.toList split.start
      have hfaces := hstands.faces
      rw [Utf8.encode_eq_flatMap] at hfaces
      exact ⟨rest, hrest ▸ hfaces⟩
    have hfaults := ((LineCursor.after_keeps (fun cursor h => (h.next hds).2) hopened calls).next
      hds).1
    refine ⟨fun hend => ?_, hfaults⟩
    obtain ⟨-, -, -, -, hgoes⟩ :=
      ((room_of_openCursor hdelimiter hholds hend hopen).after calls).advances
    cases hanswer : ((cursor.after files calls).next files false).1 with
    | ok answer => exact ⟨answer, rfl⟩
    | error fault =>
      rw [hanswer, hfaults fault hanswer] at hgoes
      exact absurd rfl hgoes

/-- overrides that ask for a delimiter of two characters that overlaps itself -/
def doubled : Overrides := .ofList [(Delimiter.overrideKey, "éé")]

/-- A split that starts inside a character, and inside a delimiter that overlaps another one. -/
theorem answers_text_doubled :
    let files := FileSystem.single (Utf8.encode "aéééb")
    let split : FileSplit := ⟨"f", 4, 2⟩
    Delimiter.ofOverrides doubled = .ok (.custom (Utf8.encode "éé")) ∧
      files.Holds split.path (Utf8.encode "aéééb") ∧
      ∃ cursor, openCursor files (.file split) doubled ⟨0⟩ = .ok cursor ∧
        ∃ answer, ((cursor.after files [false, true]).next files false).1 = .ok answer := by
  intro files split
  have hdelimiter : Delimiter.ofOverrides doubled = .ok (.custom (Utf8.encode "éé")) :=
    ofOverrides_custom (by decide) (by decide)
  have hholds : files.Holds split.path (Utf8.encode "aéééb") :=
    FileSystem.holds_single (by decide)
  obtain ⟨hopens, hanswers⟩ := answers_text hdelimiter hholds ⟨0⟩
  obtain ⟨cursor, hopen⟩ := hopens (by decide) (by decide)
  exact ⟨hdelimiter, hholds, cursor, hopen,
    (hanswers cursor hopen [false, true]).1 (by decide)⟩

end LineText

end Splittable
