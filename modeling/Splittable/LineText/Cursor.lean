import Splittable.FileSystem.OpenFile
import Splittable.LineText.Delimiter
import Splittable.Ratio

/-!
# Cursors over lines

A record begins at offset 0 or right after a delimiter.  A split from `start` to `stop` has the
records that begin in `(start, stop]`, and the one at 0 where `start` is 0, so splits that follow
each other have each record once.  Offsets are words; where a sum of them is none, the program
stops (`Fault.overflow`).

* `LineCursor.scan`       the bytes up to the next delimiter;
* `LineCursor`            a cursor;
* `LineCursor.open`, `next`, `progress`, `close`   its operations.
-/

namespace Splittable

structure LineCursor where
  /-- absent once the cursor is closed -/
  file : Option OpenFile
  delimiter : Delimiter
  start : UInt64
  stop : UInt64
  /-- the offset of the next record -/
  position : UInt64
  interrupt : Flag

namespace LineCursor

/-- what a scan found: the bytes taken, from the last to the first, and whether they end with the
delimiter -/
structure Scan where
  taken : Bytes
  complete : Bool
  file : OpenFile

/-- Take bytes up to the first place where those taken end with the delimiter, or up to the end of
the file.  `ending` is the delimiter from its last byte to its first. -/
def scan (bytes : ByteArray) (ending : Bytes) : (fuel : Nat) → Bytes → OpenFile → Scan
  | 0, taken, file => ⟨taken, false, file⟩
  | fuel + 1, taken, file =>
    match file.next bytes with
    | (none, file) => ⟨taken, false, file⟩
    | (some b, file) =>
      if ending.isPrefixOf (b :: taken) then ⟨b :: taken, true, file⟩
      else scan bytes ending fuel (b :: taken) file

/-- The next record of a file, without its delimiter, and the number of bytes it took with it;
none at the end of the file. -/
def readRecord (files : FileSystem) (delimiter : Delimiter) (file : OpenFile) :
    Except OsError (Bytes × Nat × OpenFile) :=
  match files.contents file.node with
  | .error e => .error e
  | .ok bytes =>
    let found := scan bytes delimiter.bytes.reverse (file.remaining bytes + 1) [] file
    let record := if found.complete then delimiter.strip found.taken else found.taken
    .ok (record.reverse, found.taken.length, found.file)

/-- Reading starts a little before the split, so that a delimiter across its start is seen whole:
the record after it begins past the start. -/
def seekTo (delimiter : Delimiter) (start : UInt64) : UInt64 :=
  let back := (delimiter.bytes.length - 1).toUInt64
  if start < back then 0 else start - back

/-- Open a cursor.  A split that does not start the file passes over the record it starts in. -/
def «open» (files : FileSystem) (split : FileSplit) (delimiter : Delimiter) (interrupt : Flag) :
    Except Fault LineCursor := do
  if split.start = 0 then
    let file ← (OpenFile.open files split.path 0).mapError OsError.fault
    let stop ← split.checkedStop
    return ⟨some file, delimiter, 0, stop, 0, interrupt⟩
  else
    let seek := seekTo delimiter split.start
    let file ← (OpenFile.open files split.path seek).mapError OsError.fault
    let (_, size, file) ← (readRecord files delimiter file).mapError OsError.fault
    let start ← Word.add seek size
    let stop ← split.checkedStop
    return ⟨some file, delimiter, start, stop, start, interrupt⟩

section
variable {files : FileSystem} {split : FileSplit} {delimiter : Delimiter} {interrupt : Flag}

theorem of_open {cursor : LineCursor}
    (h : LineCursor.open files split delimiter interrupt = .ok cursor) :
    split.checkedStop = .ok cursor.stop ∧ cursor.start = cursor.position ∧
      cursor.interrupt = interrupt := by
  unfold LineCursor.open at h
  split at h
  · obtain ⟨file, -, h⟩ := bind_ok h
    obtain ⟨stop, hstop, h⟩ := bind_ok h
    cases h
    exact ⟨hstop, rfl, rfl⟩
  · obtain ⟨file, -, h⟩ := bind_ok h
    obtain ⟨⟨_, size, file⟩, -, h⟩ := bind_ok h
    obtain ⟨start, -, h⟩ := bind_ok h
    obtain ⟨stop, hstop, h⟩ := bind_ok h
    cases h
    exact ⟨hstop, rfl, rfl⟩

/-- Opening fails where the file system refuses, or where an offset is no word. -/
theorem of_open_eq_error {fault : Fault}
    (h : LineCursor.open files split delimiter interrupt = .error fault) :
    (∃ e : OsError, fault = e.fault) ∨ fault = .overflow := by
  unfold LineCursor.open at h
  split at h
  · obtain h | ⟨file, -, h⟩ := bind_error h
    · exact .inl (OsError.of_mapError h)
    obtain h | ⟨stop, -, h⟩ := bind_error h
    · exact .inr (Word.of_add_eq_error h).1
    cases h
  · obtain h | ⟨file, -, h⟩ := bind_error h
    · exact .inl (OsError.of_mapError h)
    obtain h | ⟨found, -, h⟩ := bind_error h
    · exact .inl (OsError.of_mapError h)
    obtain h | ⟨start, -, h⟩ := bind_error h
    · exact .inr (Word.of_add_eq_error h).1
    obtain h | ⟨stop, -, h⟩ := bind_error h
    · exact .inr (Word.of_add_eq_error h).1
    cases h

end

/-- the key and the value of a record -/
def pairOf (position : UInt64) (record : Bytes) : Except Fault Pair :=
  match Utf8.decode record with
  | .ok line => .ok ⟨.long position, .text line⟩
  | .error flaw =>
    .error (.of .invalidData
      ("line at offset " ++ Numeral.render position ++ " is not valid UTF-8: " ++ flaw.message))

/-- Go on behind what was read, with an answer, if there is a word for that offset. -/
def moveTo (cursor : LineCursor) (file : OpenFile) (position : Except Fault UInt64)
    (answer : Except Fault (Option Pair)) : Except Fault (Option Pair) × LineCursor :=
  match position with
  | .ok position => (answer, { cursor with file := some file, position })
  | .error fault => (.error fault, { cursor with file := some file })

/-- The next record, if one begins inside the split.  A record that is no text is passed over by
the next call.  Behind the last record the cursor goes to the offset behind its stop. -/
def next (files : FileSystem) (raised : Bool) (cursor : LineCursor) :
    Except Fault (Option Pair) × LineCursor :=
  if raised then (.error (.of .interrupted "interrupted while reading split"), cursor)
  else
    match cursor.file with
    | none => (.ok none, cursor)
    | some file =>
      if cursor.stop < cursor.position then (.ok none, cursor)
      else
        match readRecord files cursor.delimiter file with
        | .error e => (.error e.fault, cursor)
        | .ok (_, 0, file) => cursor.moveTo file (Word.add cursor.stop 1) (.ok none)
        | .ok (record, size, file) =>
          cursor.moveTo file (Word.add cursor.position size)
            ((pairOf cursor.position record).map some)

/-- how much of the split lies before the next record -/
def progress {ρ : Type} [Ratio ρ] (cursor : LineCursor) : ρ :=
  if cursor.stop ≤ cursor.start then
    if cursor.stop < cursor.position then Ratio.one else Ratio.zero
  else
    let done := if cursor.position < cursor.start then 0 else cursor.position - cursor.start
    Ratio.atMost Ratio.one
      (Ratio.ofNat done.toNat / Ratio.ofNat (cursor.stop - cursor.start).toNat)

def close (cursor : LineCursor) : LineCursor := { cursor with file := none }

end LineCursor

end Splittable
