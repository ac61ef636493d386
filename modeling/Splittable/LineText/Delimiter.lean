import Splittable.Library
import Splittable.Text.Utf8

/-!
# Delimiters of records

* `Delimiter`               what ends a record: a line feed, or some other text;
* `Delimiter.ofOverrides`   the delimiter that the overrides ask for;
* `Delimiter.strip`         a record without its delimiter.
-/

namespace Splittable

inductive Delimiter
  /-- a line feed, and a carriage return before it, if there is one -/
  | newline
  | custom (bytes : Bytes)
deriving DecidableEq, Repr

namespace Delimiter

/-- the override that sets the delimiter -/
def overrideKey : String := "textformat.record.delimiter"

def ofOverrides (overrides : Overrides) : Except Fault Delimiter :=
  match overrides.find? overrideKey with
  | none => .ok .newline
  | some text =>
    if text.isEmpty then .error (.of .invalidInput s!"{overrideKey} must not be empty")
    else .ok (.custom (Utf8.encode text))

/-- the bytes that end a record -/
def bytes : Delimiter → Bytes
  | .newline => [0x0A]
  | .custom bytes => bytes

/-- The record before its delimiter, both given from the last byte to the first. -/
def strip (delimiter : Delimiter) (reversed : Bytes) : Bytes :=
  match delimiter, reversed.drop delimiter.bytes.length with
  | .newline, 0x0D :: rest => rest
  | _, rest => rest

end Delimiter

end Splittable
