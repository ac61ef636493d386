import Splittable.LineText.Cursor

/-!
# The text format

Files of lines: the key of a record is its offset, the value its line.

* `LineText.isRecursive`, `blockSize`   the settings read from the overrides;
* `LineText.discover`     the splits of a resource;
* `Library.text`          the format as a library.
-/

namespace Splittable

namespace LineText

/-- the override that asks for the directories below a directory -/
def recursiveKey : String := "fileformat.input.recursive"

/-- the override that sets the block size -/
def blockSizeKey : String := "fileformat.block.size"

/-- 32 MiB -/
def defaultBlockSize : UInt64 := 32 * 1024 * 1024

def isRecursive (overrides : Overrides) : Except Fault Bool :=
  match overrides.find? recursiveKey with
  | none => .ok false
  | some text =>
    let value := Text.toAsciiLower (Text.trim text)
    if value = "true" ∨ value = "1" then .ok true
    else if value = "false" ∨ value = "0" then .ok false
    else .error (.of .invalidInput s!"{recursiveKey}={value}: expected true or false")

def blockSize (overrides : Overrides) : Except Fault UInt64 :=
  match overrides.find? blockSizeKey with
  | none => .ok defaultBlockSize
  | some text =>
    match Numeral.read? (Text.trim text) with
    | .ok size => .ok size
    | .error flaw => .error (.of .invalidInput s!"{blockSizeKey}={text}: {flaw.message}")

def listing (files : FileSystem) (resource : String) (overrides : Overrides) :
    Except Fault (List FileStatus) := do
  Listing.resolve files resource (← isRecursive overrides)

/-- Without bounds the block size alone decides. -/
def discover (ρ : Type) [Ratio ρ] (files : FileSystem) (resource : String)
    (overrides : Overrides) (size : Option SplitSize) : Except Fault (List FileSplit) := do
  let found ← listing files resource overrides
  let block ← blockSize overrides
  let size := (size.getD ⟨1, 0xFFFFFFFFFFFFFFFF⟩).choose block
  return found.flatMap fun file => carve ρ file size

/-- Only file splits can be read, and the delimiter is looked at before the file. -/
def openCursor (files : FileSystem) (split : Descriptor) (overrides : Overrides)
    (interrupt : Flag) : Except Fault LineCursor :=
  match split with
  | .custom split => .error (.of .invalidInput s!"text format cannot read a {split.tag} split")
  | .file split => do
    let delimiter ← Delimiter.ofOverrides overrides
    LineCursor.open files split delimiter interrupt

theorem of_openCursor_file {files : FileSystem} {split : FileSplit} {overrides : Overrides}
    {interrupt : Flag} {cursor : LineCursor}
    (h : openCursor files (.file split) overrides interrupt = .ok cursor) :
    split.checkedStop = .ok cursor.stop ∧ cursor.start = cursor.position ∧
      cursor.interrupt = interrupt := by
  obtain ⟨delimiter, -, h⟩ := bind_ok h
  exact LineCursor.of_open h

end LineText

/-- the text format, known by the name `text` -/
def Library.text (ρ ε : Type) [Ratio ρ] : Library ρ ε where
  name := "text"
  Cursor := LineCursor
  listing resource overrides w := (LineText.listing w.files resource overrides, w)
  discover resource overrides size w :=
    ((LineText.discover ρ w.files resource overrides size).map fun splits =>
      splits.map Descriptor.file, w)
  openCursor split overrides interrupt w :=
    (LineText.openCursor w.files split overrides interrupt, w)
  next cursor w := (cursor.next w.files (w.isRaised cursor.interrupt), w)
  progress cursor := some cursor.progress
  close cursor w := ((.ok (), cursor.close), w)

end Splittable
