import Splittable.Fault
import Splittable.Text.Quoted
import Splittable.Word.BigEndian
import Splittable.Word.Sum

/-!
# File splits

A range of bytes of one file, and the form in which it is shipped: the length of the path in four
bytes, the path, then the start and the length in eight bytes each.

* `FileSplit`             the range, and `FileSplit.checkedStop`, its end;
* `FileSplit.payload`     its shipped form;
* `FileSplit.ofPayload`   reading that form, which accepts nothing else.
-/

namespace Splittable

/-- A path is a text, so that only its length can keep it from being shipped. -/
structure FileSplit where
  path : String
  start : UInt64
  length : UInt64
deriving DecidableEq, Repr

namespace FileSplit

/-- the name under which file splits are shipped -/
def tag : String := "file"

/-- the offset one past the last byte of the range, where there is one (`checkedStop`) -/
def stop (split : FileSplit) : UInt64 := split.start + split.length

/-- The program stops where it asks for the end of a range that goes past the last word. -/
def checkedStop (split : FileSplit) : Except Fault UInt64 := Word.add split.start split.length.toNat

theorem toNat_stop_of_le {split : FileSplit}
    (h : split.start.toNat + split.length.toNat ≤ 0xFFFFFFFFFFFFFFFF) :
    split.stop.toNat = split.start.toNat + split.length.toNat := by
  unfold stop
  rw [UInt64.toNat_add]
  omega

theorem checkedStop_of_le {split : FileSplit}
    (h : split.start.toNat + split.length.toNat ≤ 0xFFFFFFFFFFFFFFFF) :
    split.checkedStop = .ok split.stop :=
  Word.add_eq_ok_iff.2 (toNat_stop_of_le h)

def shown (split : FileSplit) : String :=
  "FileSplit \x7b path: " ++ Text.quoted split.path ++ ", start: " ++
    toString split.start.toNat ++ ", length: " ++ toString split.length.toNat ++ " \x7d"

/-- A path of more bytes than four bytes can count has no shipped form. -/
def payload (split : FileSplit) : Except Fault Bytes :=
  let path := Utf8.encode split.path
  if path.length < UInt32.size then
    .ok (BigEndian.ofNat 4 path.length ++ path ++ BigEndian.ofWord64 split.start ++
      BigEndian.ofWord64 split.length)
  else .error (.of .invalidInput "path too long")

inductive Flaw
  /-- it ends inside a word -/
  | cutShort
  | pathCutShort
  | notText (flaw : Utf8.Flaw)
  | trailing (count : Nat)

def Flaw.fault : Flaw → Fault
  | .cutShort => .of .unexpectedEof "failed to fill whole buffer"
  | .pathCutShort => .of .unexpectedEof "file split payload truncated in path"
  | .notText flaw => .of .invalidData flaw.message
  | .trailing count => .of .invalidData s!"{count} trailing bytes after file split"

def ofPayload (bs : Bytes) : Except Flaw FileSplit :=
  match BigEndian.takeWord32? bs with
  | none => .error .cutShort
  | some (pathLength, bs) =>
    match BigEndian.take? pathLength.toNat bs with
    | none => .error .pathCutShort
    | some (path, bs) =>
      match Utf8.decode path with
      | .error flaw => .error (.notText flaw)
      | .ok path =>
        match BigEndian.takeWord64? bs with
        | none => .error .cutShort
        | some (start, bs) =>
          match BigEndian.takeWord64? bs with
          | none => .error .cutShort
          | some (length, []) => .ok ⟨path, start, length⟩
          | some (_, rest) => .error (.trailing rest.length)

end FileSplit

end Splittable
