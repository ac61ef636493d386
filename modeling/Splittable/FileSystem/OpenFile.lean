import Splittable.FileSystem.Basic
import Splittable.Text.Utf8

/-!
# Open files

Reading a file from the front through a buffer.  What is in the buffer stays as it was read, and
what is not yet in it is read as it is by then.

* `OpenFile`, `OpenFile.open`   a file that is being read;
* `OpenFile.next`               its next byte.
-/

namespace Splittable

/-- how many bytes are read at a time -/
def OpenFile.bufferSize : Nat := 8192

structure OpenFile where
  node : NodeId
  /-- where the next bytes will be read from -/
  offset : Nat
  /-- bytes that are read and not yet taken -/
  pending : Bytes

namespace OpenFile

/-- Open a file, or a directory, at an offset that the file system can seek to.  Only reading
tells them apart. -/
def «open» (fs : FileSystem) (path : String) (offset : UInt64) : Except OsError OpenFile :=
  match fs.resolve path with
  | .error e => .error e
  | .ok node =>
    if offset.toNat ≤ fs.seekLimit.val then .ok ⟨node, offset.toNat, []⟩
    else .error .invalidArgument

/-- the next byte, where `bytes` is what the file holds now -/
def next (bytes : ByteArray) (file : OpenFile) : Option UInt8 × OpenFile :=
  match file.pending with
  | b :: rest => (some b, { file with pending := rest })
  | [] =>
    match (bytes.extract file.offset (file.offset + bufferSize)).data.toList with
    | [] => (none, file)
    | b :: rest =>
      (some b, { file with offset := file.offset + rest.length + 1, pending := rest })

def remaining (bytes : ByteArray) (file : OpenFile) : Nat :=
  file.pending.length + (bytes.size - file.offset)

end OpenFile

end Splittable
