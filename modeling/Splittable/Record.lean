import Splittable.Json.Basic
import Splittable.Text.Blank
import Splittable.Text.Numeral
import Splittable.Text.Quoted
import Splittable.Text.Utf8

/-!
# Records

The values that sources deliver and the types they are declared with.

* `RecordKind`   the built-in kinds with a wire form of their own;
* `TypeTag`      the declared type of keys or values, with its names;
* `Datum`, `Pair`   a value, and a key with a value.
-/

namespace Splittable

inductive RecordKind
  | long
  | text
  | bytes
deriving DecidableEq, Repr

/-- The declared type of a source's keys or values.  A `custom` type is the caller's own: it is
carried along and has no encoding. -/
inductive TypeTag
  | record (kind : RecordKind)
  | void
  | custom (name : String)
deriving DecidableEq, Repr

inductive Datum
  | void
  | long (n : UInt64)
  | text (s : String)
  | bytes (bs : Bytes)
deriving DecidableEq

/-- one record: its key and its value -/
structure Pair where
  key : Datum
  value : Datum
deriving DecidableEq

/-! ## names -/

def RecordKind.name : RecordKind → String
  | .long => "Long"
  | .text => "Text"
  | .bytes => "Bytes"

def TypeTag.name : TypeTag → String
  | .record .long => "long"
  | .record .text => "text"
  | .record .bytes => "bytes"
  | .void => "void"
  | .custom name => name

/-- The built-in types are known by a few names in any letter case; every other name is a custom
type.  Blanks around a name do not belong to it. -/
def TypeTag.ofName (name : String) : TypeTag :=
  match Text.toAsciiLower (Text.trim name) with
  | "long" | "u64" | "offset" => .record .long
  | "text" | "string" => .record .text
  | "bytes" => .record .bytes
  | "void" | "none" => .void
  | _ => .custom (Text.trim name)

/-! ## texts -/

/-- A datum as it is printed: nothing for `void`, and bytes as the text they come closest to. -/
def Datum.display : Datum → String
  | .void => ""
  | .long n => Numeral.render n
  | .text s => s
  | .bytes bs => Utf8.lossy bs

/-- a datum as it is shown in a message -/
def Datum.shown : Datum → String
  | .void => "Void"
  | .long n => "Long(" ++ Numeral.render n ++ ")"
  | .text s => "Text(" ++ Text.quoted s ++ ")"
  | .bytes bs => "Bytes(" ++ Text.listed (bs.map fun b => toString b.toNat) ++ ")"

/-! ## JSON -/

namespace Json

def ofWord64 (n : UInt64) : Json := .number (Numeral.render n)

/-- A word is written as digits alone: no sign, fraction or exponent. -/
def word64? : Json → Option UInt64
  | .number numeral =>
    if numeral.toList.all fun c => (Numeral.digit? c).isSome then
      (Numeral.read? numeral).toOption
    else none
  | _ => none

def ofByte (b : UInt8) : Json := .number (Numeral.render b.toUInt64)

def byte? (j : Json) : Option UInt8 := do
  let n ← j.word64?
  if n < 256 then some n.toUInt8 else none

def ofBytes (bs : Bytes) : Json := .array (bs.map ofByte)

def bytes? (j : Json) : Option Bytes := do (← j.items?).mapM byte?

end Json

def RecordKind.toJson (kind : RecordKind) : Json := .ofText kind.name

def RecordKind.ofJson? (j : Json) : Option RecordKind :=
  match j.variant? with
  | some ("Long", content) => if Json.isBare content then some .long else none
  | some ("Text", content) => if Json.isBare content then some .text else none
  | some ("Bytes", content) => if Json.isBare content then some .bytes else none
  | _ => none

def TypeTag.toJson : TypeTag → Json
  | .record kind => .ofFields [("Record", kind.toJson)]
  | .void => .ofText "Void"
  | .custom name => .ofFields [("Opaque", .ofText name)]

def TypeTag.ofJson? (j : Json) : Option TypeTag :=
  match j.variant? with
  | some ("Record", some content) => (RecordKind.ofJson? content).map .record
  | some ("Void", content) => if Json.isBare content then some .void else none
  | some ("Opaque", some content) => content.text?.map .custom
  | _ => none

def Datum.toJson : Datum → Json
  | .void => .ofText "Void"
  | .long n => .ofFields [("Long", .ofWord64 n)]
  | .text s => .ofFields [("Text", .ofText s)]
  | .bytes bs => .ofFields [("Bytes", .ofBytes bs)]

def Datum.ofJson? (j : Json) : Option Datum :=
  match j.variant? with
  | some ("Void", content) => if Json.isBare content then some .void else none
  | some ("Long", some content) => content.word64?.map .long
  | some ("Text", some content) => content.text?.map .text
  | some ("Bytes", some content) => content.bytes?.map .bytes
  | _ => none

end Splittable
