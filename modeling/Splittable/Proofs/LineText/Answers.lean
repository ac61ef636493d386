import Splittable.LineText.Format
import Splittable.Proofs.LineText.Scan
import Mathlib.Algebra.Group.Nat.Defs

/-!
# The records of a split

What the cursor of a file split answers, call by call, where the file stays as it is and nothing
is interrupted.  Where no two delimiters of the file overlap, these are the records of the whole
file that begin behind the start of the split and not behind its end, and the one at 0 for a split
that starts there.

* `FileSystem.Holds`      the content of a file, and `FileSystem.single`, which has just one;
* `LineCursor.Drains`     the answers of a cursor up to its end;
* `LineCursor.Faces`      the bytes that are left to a cursor;
* `LineCursor.Advances`   what a call does, one constructor for each way it can go;
* `LineText.Answers`      the answers of the cursor of a split;
* `Pieces.window`         the records that belong to a range;
* `LineText.answers_window`   the answers of a split are the records of its range.
-/

namespace Splittable

/-- the content of the file at a path; no file is longer than it can be sought in -/
structure FileSystem.Holds (files : FileSystem) (path : String) (content : Bytes) : Prop where
  read : ∃ bytes, files.read path = .ok bytes ∧ bytes.data.toList = content
  sought : content.length ≤ files.seekLimit

theorem FileSystem.Holds.small {files : FileSystem} {path : String} {content : Bytes}
    (h : files.Holds path content) : content.length < 2 ^ 63 := by
  have hlimit := files.seekLimit.isLt
  have hsought := h.sought
  omega

theorem FileSystem.Holds.opened {files : FileSystem} {path : String} {content : Bytes}
    (h : files.Holds path content) {offset : UInt64} (hoffset : offset.toNat ≤ files.seekLimit) :
    ∃ file bytes, OpenFile.open files path offset = .ok file ∧
      files.contents file.node = .ok bytes ∧
      file.ahead bytes = content.drop offset.toNat := by
  obtain ⟨⟨bytes, hread, rfl⟩, _⟩ := h
  unfold FileSystem.read at hread
  unfold OpenFile.open
  cases hnode : files.resolve path with
  | error e =>
    rw [hnode] at hread
    cases hread
  | ok node =>
    rw [hnode] at hread
    exact ⟨⟨node, offset.toNat, []⟩, bytes, if_pos hoffset, hread, rfl⟩

/-- a root directory that holds one file, known as `f` -/
def FileSystem.single (content : Bytes) : FileSystem :=
  ⟨#[.directory 0 (.ofList [("f", 1)]), .file ⟨content.toArray⟩], 0, lastOffset⟩

theorem FileSystem.resolve_single (content : Bytes) : (single content).resolve "f" = .ok 1 := by
  have hsteps : steps "f" = ["f"] := by decide
  have hlocate : (single content).locate true "f" = .ok (.node 1) := by
    unfold locate
    rw [hsteps]
    show walkFrom (single content) true linkLimit 0 ["f"] = _
    rw [walkFrom]
    show walkFrom (single content) true linkLimit 1 [] = _
    rw [walkFrom]
  unfold resolve
  rw [hlocate]

theorem FileSystem.holds_single {content : Bytes} (hsmall : content.length < 2 ^ 63) :
    (single content).Holds "f" content := by
  refine ⟨⟨⟨content.toArray⟩, ?_, rfl⟩, ?_⟩
  · unfold FileSystem.read
    rw [resolve_single]
    rfl
  · show content.length ≤ lastOffset.val
    rw [val_lastOffset]
    omega

namespace Pieces

variable {α : Type}

/-- The records that belong to a range of bytes: those that begin behind its start and not behind
its end, and the one at 0 if the range starts there. -/
def window (start stop : Nat) (records : List (Nat × α)) : List (Nat × α) :=
  (if start = 0 then records else records.dropWhile fun r => decide (r.1 ≤ start)).takeWhile
    fun r => decide (r.1 ≤ stop)

end Pieces

/-- the answer to a piece with its offset: a record, or why it is none -/
def Delimiter.answer (delimiter : Delimiter) (piece : Nat × Bytes) : Except Fault Pair :=
  LineCursor.pairOf piece.1.toUInt64 (delimiter.record piece.2)

theorem Delimiter.bytes_ne_nil {overrides : Overrides} {delimiter : Delimiter}
    (h : ofOverrides overrides = .ok delimiter) : delimiter.bytes ≠ [] := by
  unfold ofOverrides at h
  split at h
  · cases h
    exact List.cons_ne_nil _ _
  · split at h
    · cases h
    · rename_i text _ hne
      cases h
      intro hnil
      have hbytes : text.toByteArray = ⟨#[]⟩ :=
        ByteArray.ext (Array.toList_inj.1 (hnil : text.toByteArray.data.toList = []))
      refine hne ?_
      rw [String.isEmpty_iff, ← String.toByteArray_inj, hbytes]
      rfl

theorem Delimiter.unbordered_newline : Pieces.Unbordered newline.bytes := by
  intro k hk0 hk
  have hlength : newline.bytes.length = 1 := rfl
  omega

namespace LineCursor

open Pieces

/-- the answers of a cursor that nothing interrupts, up to the first one that says it is at the
end -/
inductive Drains (files : FileSystem) : LineCursor → List (Except Fault Pair) → Prop
  | done {cursor after : LineCursor} :
      cursor.next files false = (.ok none, after) → Drains files cursor []
  | pair {cursor after : LineCursor} {pair : Pair} {answers : List (Except Fault Pair)} :
      cursor.next files false = (.ok (some pair), after) → Drains files after answers →
      Drains files cursor (.ok pair :: answers)
  | fault {cursor after : LineCursor} {fault : Fault} {answers : List (Except Fault Pair)} :
      cursor.next files false = (.error fault, after) → Drains files after answers →
      Drains files cursor (.error fault :: answers)

theorem Drains.unique {files : FileSystem} {cursor : LineCursor}
    {a b : List (Except Fault Pair)} (ha : Drains files cursor a) (hb : Drains files cursor b) :
    a = b := by
  induction ha generalizing b with
  | done h =>
    cases hb with
    | done _ => rfl
    | pair h' _ => rw [h] at h'; cases h'
    | fault h' _ => rw [h] at h'; cases h'
  | pair h _ ih =>
    cases hb with
    | done h' => rw [h] at h'; cases h'
    | pair h' hrest =>
      rw [h] at h'
      cases h'
      rw [ih hrest]
    | fault h' _ => rw [h] at h'; cases h'
  | fault h _ ih =>
    cases hb with
    | done h' => rw [h] at h'; cases h'
    | pair h' _ => rw [h] at h'; cases h'
    | fault h' hrest =>
      rw [h] at h'
      cases h'
      rw [ih hrest]

/-! ## one call -/

section
variable {files : FileSystem} {cursor : LineCursor} {ahead : Bytes}

/-- the bytes that are left to a cursor -/
def Faces (files : FileSystem) (cursor : LineCursor) (ahead : Bytes) : Prop :=
  ∃ file bytes, cursor.file = some file ∧ files.contents file.node = .ok bytes ∧
    file.ahead bytes = ahead

/-- A call that nothing interrupts finds the cursor behind its stop, or no byte left, or a piece.
It stops the program where the offset behind what it found is no word. -/
inductive Advances (files : FileSystem) (cursor : LineCursor) (ahead : Bytes) :
    Except Fault (Option Pair) × LineCursor → Prop
  | behind (hstop : cursor.stop < cursor.position) :
      Advances files cursor ahead (.ok none, cursor)
  | drained (file : OpenFile) (position : UInt64) (hstop : cursor.position ≤ cursor.stop)
      (hnone : ahead = []) (hposition : position.toNat = cursor.stop.toNat + 1)
      (hfaces : Faces files { cursor with file := some file, position } []) :
      Advances files cursor ahead (.ok none, { cursor with file := some file, position })
  | piece (file : OpenFile) (position : UInt64) (n : Nat) (hstop : cursor.position ≤ cursor.stop)
      (hsize : size cursor.delimiter.bytes ahead = n) (hpos : 0 < n)
      (hposition : position.toNat = cursor.position.toNat + n)
      (hfaces : Faces files { cursor with file := some file, position } (ahead.drop n)) :
      Advances files cursor ahead
        ((pairOf cursor.position (cursor.delimiter.record (ahead.take n))).map some,
          { cursor with file := some file, position })
  | overflow (file : OpenFile) (hstop : cursor.position ≤ cursor.stop)
      (hpast : 0xFFFFFFFFFFFFFFFF < if ahead = [] then cursor.stop.toNat + 1
        else cursor.position.toNat + size cursor.delimiter.bytes ahead)
      (hfaces : Faces files { cursor with file := some file }
        (ahead.drop (size cursor.delimiter.bytes ahead))) :
      Advances files cursor ahead (.error .overflow, { cursor with file := some file })

theorem Faces.advances (h : Faces files cursor ahead) (hd : cursor.delimiter.bytes ≠ []) :
    Advances files cursor ahead (cursor.next files false) := by
  obtain ⟨file, bytes, hfile, hbytes, rfl⟩ := h
  obtain ⟨file', hread, hahead, hnode⟩ := readRecord_eq hd hbytes
  rw [← hnode] at hbytes
  unfold next
  rw [hfile]
  show Advances files cursor _ (if cursor.stop < cursor.position then _ else _)
  by_cases hlt : cursor.stop < cursor.position
  · rw [if_pos hlt]
    exact .behind hlt
  · have hstop : cursor.position ≤ cursor.stop := UInt64.not_lt.1 hlt
    rw [if_neg hlt, hread]
    cases hn : size cursor.delimiter.bytes (file.ahead bytes) with
    | zero =>
      have hnone : file.ahead bytes = [] := by
        by_contra hne
        exact absurd hn (Nat.ne_of_gt (size_pos hd hne))
      show Advances files cursor _ (cursor.moveTo file' (Word.add cursor.stop 1) _)
      cases hadd : Word.add cursor.stop 1 with
      | ok position =>
        rw [hn, hnone] at hahead
        exact .drained file' position hstop hnone (Word.add_eq_ok_iff.1 hadd)
          ⟨file', bytes, rfl, hbytes, hahead⟩
      | error fault =>
        obtain ⟨rfl, hpast⟩ := Word.of_add_eq_error hadd
        refine .overflow file' hstop ?_ ⟨file', bytes, rfl, hbytes, hahead⟩
        rw [if_pos hnone]
        exact hpast
    | succ m =>
      have hsome : file.ahead bytes ≠ [] := by
        intro hnone
        rw [hnone] at hn
        cases hn
      show Advances files cursor _ (cursor.moveTo file' (Word.add cursor.position (m + 1)) _)
      cases hadd : Word.add cursor.position (m + 1) with
      | ok position =>
        rw [hn] at hahead
        exact .piece file' position (m + 1) hstop hn (Nat.succ_pos m) (Word.add_eq_ok_iff.1 hadd)
          ⟨file', bytes, rfl, hbytes, hahead⟩
      | error fault =>
        obtain ⟨rfl, hpast⟩ := Word.of_add_eq_error hadd
        refine .overflow file' hstop ?_ ⟨file', bytes, rfl, hbytes, hahead⟩
        rw [if_neg hsome, hn]
        exact hpast

/-- A piece is never answered by the end. -/
theorem pair_ne_end (offset : UInt64) (record : Bytes) :
    (pairOf offset record).map some ≠ .ok none := by
  cases pairOf offset record with
  | ok pair => exact nofun
  | error fault => exact nofun

/-- A piece never stops the program. -/
theorem pair_ne_overflow (offset : UInt64) (record : Bytes) :
    (pairOf offset record).map some ≠ .error .overflow := by
  unfold pairOf
  cases Utf8.decode record with
  | ok line => exact fun h => by cases h
  | error flaw => exact fun h => by cases h

/-- Behind its stop a cursor answers the end and stays as it is. -/
theorem next_of_stop_lt (h : cursor.stop < cursor.position) :
    cursor.next files false = (.ok none, cursor) := by
  unfold next
  cases cursor.file with
  | none => rfl
  | some file => exact if_pos h

end

/-! ## all calls -/

/-- A cursor stands at an offset of a file: the bytes from there on lie ahead. -/
structure Stands (files : FileSystem) (content : Bytes) (cursor : LineCursor) (p : Nat) : Prop where
  position : cursor.position.toNat = p
  file : ∃ file bytes, cursor.file = some file ∧ files.contents file.node = .ok bytes ∧
    file.ahead bytes = content.drop p

section
variable {files : FileSystem} {content : Bytes} {cursor : LineCursor} {p : Nat}

theorem Stands.faces (h : Stands files content cursor p) :
    Faces files cursor (content.drop p) := h.file

theorem Stands.next_of_stop_lt (h : Stands files content cursor p)
    (hstop : cursor.stop.toNat < p) : cursor.next files false = (.ok none, cursor) := by
  refine LineCursor.next_of_stop_lt ?_
  rw [UInt64.lt_iff_toNat_lt, h.position]
  exact hstop

/-- At the end of its file a cursor answers the end, if there is a word behind its stop. -/
theorem Stands.next_of_length_le (h : Stands files content cursor p)
    (hd : cursor.delimiter.bytes ≠ []) (hlen : content.length ≤ p) :
    (cursor.next files false).1 =
      if cursor.stop.toNat < 2 ^ 64 - 1 then .ok none else .error .overflow := by
  have hcall := h.faces.advances hd
  rw [List.drop_eq_nil_of_le hlen] at hcall
  generalize cursor.next files false = call at hcall ⊢
  cases hcall with
  | behind hbehind =>
    have hposition := cursor.position.toNat_lt
    rw [UInt64.lt_iff_toNat_lt] at hbehind
    rw [if_pos (by omega)]
  | drained file position _ _ hposition =>
    have hbound := position.toNat_lt
    rw [if_pos (by omega)]
  | piece _ _ _ _ hsize hpos =>
    rw [← hsize] at hpos
    exact absurd hpos (Nat.not_lt.2 size_le)
  | overflow _ _ hpast =>
    rw [if_pos rfl] at hpast
    rw [if_neg (by omega)]

theorem Stands.next_of_lt (h : Stands files content cursor p)
    (hd : cursor.delimiter.bytes ≠ []) (hsmall : content.length < 2 ^ 63)
    (hlen : p < content.length) (hstop : p ≤ cursor.stop.toNat) :
    let n := size cursor.delimiter.bytes (content.drop p)
    ∃ after, cursor.next files false =
        ((cursor.delimiter.answer (p, (content.drop p).take n)).map some, after) ∧
      Stands files content after (p + n) ∧ after.delimiter = cursor.delimiter ∧
      after.stop = cursor.stop := by
  have hle : size cursor.delimiter.bytes (content.drop p) ≤ (content.drop p).length := size_le
  rw [List.length_drop] at hle
  have hcall := h.faces.advances hd
  generalize cursor.next files false = call at hcall ⊢
  cases hcall with
  | behind hbehind =>
    rw [UInt64.lt_iff_toNat_lt, h.position] at hbehind
    omega
  | drained _ _ _ hnone =>
    rw [List.drop_eq_nil_iff] at hnone
    omega
  | piece file position n _ hsize _ hposition hfaces =>
    subst hsize
    have hp : p.toUInt64 = cursor.position := by
      rw [← h.position]
      exact UInt64.ofNat_toNat
    refine ⟨{ cursor with file := some file, position }, ?_, ⟨?_, ?_⟩, rfl, rfl⟩
    · unfold Delimiter.answer
      rw [hp]
    · rw [hposition, h.position]
    · rw [← List.drop_drop]
      exact hfaces
  | overflow _ _ hpast =>
    have hsome : content.drop p ≠ [] := by
      rw [Ne, List.drop_eq_nil_iff]
      omega
    rw [if_neg hsome, h.position] at hpast
    omega

/-- **A cursor answers the pieces from where it stands that begin up to its stop.** -/
theorem Stands.drains (h : Stands files content cursor p) (hd : cursor.delimiter.bytes ≠ [])
    (hsmall : content.length < 2 ^ 63) (hlast : cursor.stop.toNat < 2 ^ 64 - 1) :
    Drains files cursor (((onward cursor.delimiter.bytes content p).takeWhile
      fun r => decide (r.1 ≤ cursor.stop.toNat)).map cursor.delimiter.answer) := by
  induction hn : content.length - p using Nat.strong_induction_on generalizing cursor p with
  | _ n ih =>
    by_cases hlen : p < content.length
    · rw [onward_of_lt hd hlen]
      by_cases hstop : p ≤ cursor.stop.toNat
      · rw [List.takeWhile_cons_of_pos (by simpa using hstop), List.map_cons]
        have hpos := size_drop_pos hd hlen
        obtain ⟨after, hnext, hstands, hdelimiter, hafter⟩ := h.next_of_lt hd hsmall hlen hstop
        have hrest := ih _ (by omega) hstands (by rw [hdelimiter]; exact hd)
          (by rw [hafter]; exact hlast) rfl
        rw [hdelimiter, hafter] at hrest
        cases ha : cursor.delimiter.answer
          (p, (content.drop p).take (size cursor.delimiter.bytes (content.drop p))) with
        | ok pair =>
          rw [ha] at hnext
          exact .pair hnext hrest
        | error fault =>
          rw [ha] at hnext
          exact .fault hnext hrest
      · rw [List.takeWhile_cons_of_neg (by simpa using hstop)]
        exact .done (h.next_of_stop_lt (Nat.lt_of_not_le hstop))
    · have hge : content.length ≤ p := Nat.le_of_not_lt hlen
      rw [onward_of_le hge]
      exact .done (Prod.ext ((h.next_of_length_le hd hge).trans (if_pos hlast)) rfl)

end

/-! ## opening -/

theorem toNat_seekTo (delimiter : Delimiter) (start : UInt64) :
    (seekTo delimiter start).toNat =
      start.toNat - (delimiter.bytes.length - 1) % 2 ^ 64 := by
  have hback : (delimiter.bytes.length - 1).toUInt64.toNat =
      (delimiter.bytes.length - 1) % 2 ^ 64 :=
    UInt64.toNat_ofNat'
  unfold seekTo
  dsimp only
  split
  · rename_i hlt
    rw [UInt64.lt_iff_toNat_lt, hback] at hlt
    rw [Nat.sub_eq_zero_of_le (Nat.le_of_lt hlt)]
    rfl
  · rename_i hge
    rw [UInt64.lt_iff_toNat_lt, hback, Nat.not_lt, ← hback, ← UInt64.le_iff_toNat_le] at hge
    rw [UInt64.toNat_sub_of_le _ _ hge, hback]

/-- Reading starts at an offset that the file system can seek to. -/
def Reachable (files : FileSystem) (delimiter : Delimiter) (start : UInt64) : Prop :=
  (seekTo delimiter start).toNat ≤ files.seekLimit

instance (files : FileSystem) (delimiter : Delimiter) (start : UInt64) :
    Decidable (Reachable files delimiter start) :=
  inferInstanceAs (Decidable (_ ≤ _))

theorem reachable_of_le {files : FileSystem} (delimiter : Delimiter) {start : UInt64}
    (h : start.toNat ≤ files.seekLimit) : Reachable files delimiter start := by
  unfold Reachable
  rw [toNat_seekTo]
  omega

/-- **From where reading starts, the delimiters are seen that end behind the start of the split,
and no others.** -/
theorem sees_seekTo {delimiter : Delimiter} (hd : delimiter.bytes ≠ []) {content : Bytes}
    (hsmall : content.length < 2 ^ 63) (start : UInt64) :
    Sees delimiter.bytes content start.toNat (seekTo delimiter start).toNat := by
  have hpos : 0 < delimiter.bytes.length := List.length_pos_iff.2 hd
  rw [toNat_seekTo]
  refine ⟨by omega, fun i hoc => ?_⟩
  -- a delimiter that occurs is shorter than the file, so its length is told exactly
  have hlen := hoc.le_length hd
  rw [Nat.mod_eq_of_lt (by omega)]
  omega

/-- where the cursor of a split stands once it is open -/
def openedAt (delimiter : Delimiter) (content : Bytes) (start : UInt64) : Nat :=
  if start = 0 then 0
  else
    let seek := (seekTo delimiter start).toNat
    seek + size delimiter.bytes (content.drop seek)

theorem open_stands {files : FileSystem} {split : FileSplit} {content : Bytes}
    (hholds : files.Holds split.path content) {delimiter : Delimiter}
    (hd : delimiter.bytes ≠ []) (hreachable : Reachable files delimiter split.start)
    (hfits : split.start.toNat + split.length.toNat < 2 ^ 64) (interrupt : Flag) :
    ∃ cursor, LineCursor.open files split delimiter interrupt = .ok cursor ∧
      Stands files content cursor (openedAt delimiter content split.start) ∧
      cursor.delimiter = delimiter ∧ cursor.stop = split.stop ∧ cursor.interrupt = interrupt := by
  unfold LineCursor.open openedAt
  rw [FileSplit.checkedStop_of_le (by omega)]
  by_cases h0 : split.start = 0
  · rw [if_pos h0, if_pos h0]
    obtain ⟨file, bytes, hopen, hbytes, hahead⟩ :=
      hholds.opened (show (0 : UInt64).toNat ≤ files.seekLimit from Nat.zero_le _)
    rw [hopen]
    exact ⟨_, rfl, ⟨rfl, file, bytes, rfl, hbytes, hahead⟩, rfl, rfl, rfl⟩
  · rw [if_neg h0, if_neg h0]
    obtain ⟨file, bytes, hopen, hbytes, hahead⟩ := hholds.opened hreachable
    obtain ⟨file', hread, hahead', hnode⟩ := readRecord_eq hd hbytes
    rw [hahead] at hread hahead'
    have hsmall := hholds.small
    have hlimit := files.seekLimit.isLt
    have hseek : (seekTo delimiter split.start).toNat ≤ files.seekLimit := hreachable
    have hsize : size delimiter.bytes (content.drop (seekTo delimiter split.start).toNat) ≤
        (content.drop (seekTo delimiter split.start).toNat).length := size_le
    rw [List.length_drop] at hsize
    dsimp only
    obtain ⟨start, hadd, hstart⟩ := Word.exists_add_eq_ok (a := seekTo delimiter split.start)
      (n := size delimiter.bytes (content.drop (seekTo delimiter split.start).toNat)) (by omega)
    rw [hopen]
    show ∃ cursor, ((readRecord files delimiter file).mapError _ >>= _) = _ ∧ _
    rw [hread]
    show ∃ cursor, (Word.add _ _ >>= _) = _ ∧ _
    rw [hadd]
    refine ⟨_, rfl, ⟨hstart, file', bytes, rfl, by rw [hnode]; exact hbytes, ?_⟩, rfl, rfl, rfl⟩
    rw [hahead', List.drop_drop]

end LineCursor

/-! ## the answers of a split -/

namespace LineText

open Pieces

/-- the answers of the cursor of a split -/
def Answers (files : FileSystem) (overrides : Overrides) (interrupt : Flag) (split : FileSplit)
    (answers : List (Except Fault Pair)) : Prop :=
  ∃ cursor, openCursor files (.file split) overrides interrupt = .ok cursor ∧
    cursor.Drains files answers

theorem Answers.unique {files : FileSystem} {overrides : Overrides} {interrupt : Flag}
    {split : FileSplit} {a b : List (Except Fault Pair)}
    (ha : Answers files overrides interrupt split a)
    (hb : Answers files overrides interrupt split b) : a = b := by
  obtain ⟨cursor, hopen, ha⟩ := ha
  obtain ⟨cursor', hopen', hb⟩ := hb
  rw [hopen] at hopen'
  cases hopen'
  exact ha.unique hb

section
variable {files : FileSystem} {overrides : Overrides} {delimiter : Delimiter} {split : FileSplit}
  {content : Bytes}

theorem openCursor_stands (hdelimiter : Delimiter.ofOverrides overrides = .ok delimiter)
    (hholds : files.Holds split.path content)
    (hreachable : LineCursor.Reachable files delimiter split.start)
    (hfits : split.start.toNat + split.length.toNat < 2 ^ 64) (interrupt : Flag) :
    ∃ cursor, openCursor files (.file split) overrides interrupt = .ok cursor ∧
      cursor.Stands files content (LineCursor.openedAt delimiter content split.start) ∧
      cursor.delimiter = delimiter ∧ cursor.stop = split.stop ∧ cursor.interrupt = interrupt := by
  obtain ⟨cursor, hopen, hrest⟩ :=
    LineCursor.open_stands hholds (Delimiter.bytes_ne_nil hdelimiter) hreachable hfits interrupt
  refine ⟨cursor, ?_, hrest⟩
  unfold openCursor
  rw [hdelimiter]
  exact hopen

theorem answers_onward (hdelimiter : Delimiter.ofOverrides overrides = .ok delimiter)
    (hholds : files.Holds split.path content)
    (hreachable : LineCursor.Reachable files delimiter split.start)
    (hend : split.start.toNat + split.length.toNat < 2 ^ 64 - 1) (interrupt : Flag) :
    Answers files overrides interrupt split
      (((onward delimiter.bytes content
        (LineCursor.openedAt delimiter content split.start)).takeWhile
          fun r => decide (r.1 ≤ split.stop.toNat)).map delimiter.answer) := by
  obtain ⟨cursor, hopen, hstands, rfl, hstop, _⟩ :=
    openCursor_stands hdelimiter hholds hreachable (by omega) interrupt
  refine ⟨cursor, hopen, ?_⟩
  rw [← hstop]
  refine hstands.drains (Delimiter.bytes_ne_nil hdelimiter) hholds.small ?_
  rw [hstop, FileSplit.toNat_stop_of_le (by omega)]
  exact hend

/-- **The answers of a split are the records of its range**, where no two delimiters overlap. -/
theorem answers_window (hdelimiter : Delimiter.ofOverrides overrides = .ok delimiter)
    (hapart : Apart delimiter.bytes content) (hholds : files.Holds split.path content)
    (hreachable : LineCursor.Reachable files delimiter split.start)
    (hend : split.start.toNat + split.length.toNat < 2 ^ 64 - 1) (interrupt : Flag) :
    Answers files overrides interrupt split
      ((window split.start.toNat split.stop.toNat (onward delimiter.bytes content 0)).map
        delimiter.answer) := by
  have hanswers := answers_onward hdelimiter hholds hreachable hend interrupt
  have hd := Delimiter.bytes_ne_nil hdelimiter
  unfold window
  unfold LineCursor.openedAt at hanswers
  by_cases h0 : split.start = 0
  · rw [if_pos h0] at hanswers
    rw [if_pos (by rw [h0]; rfl)]
    exact hanswers
  · rw [if_neg h0] at hanswers
    have hne : ¬ split.start.toNat = 0 := fun h => h0 (UInt64.toNat_inj.1 h)
    rw [if_neg hne, dropWhile_onward hd hapart (LineCursor.sees_seekTo hd hholds.small split.start)
      (.inl rfl) (Nat.zero_le _)]
    exact hanswers

end

end LineText

end Splittable
