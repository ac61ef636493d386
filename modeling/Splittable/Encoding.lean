import Splittable.Record
import Splittable.Word.BigEndian

/-!
# Encodings of records

The wire form of a record: a `long` is eight bytes, most significant first, a text and a byte list
are their length in four bytes and then their bytes, and `void` is nothing.  A pair is its key and
then its value.

* `ElementEncoding.encode`, `decode`   one element; decoding takes it from the front of a buffer;
* `ElementEncoding.append`             an element put at the end of a buffer, piece by piece;
* `PairEncoding.encode`, `decode`      a pair; decoding leaves no byte over;
* `EncodingError`   what goes wrong, with its message.
-/

namespace Splittable

inductive ElementEncoding
  | record (kind : RecordKind)
  | void
deriving DecidableEq, Repr

structure PairEncoding where
  key : ElementEncoding
  value : ElementEncoding
deriving DecidableEq, Repr

inductive EncodingError
  /-- the datum is of another kind than the encoding -/
  | mismatch (datum : Datum) (encoding : ElementEncoding)
  /-- more bytes than a length of four bytes can count -/
  | tooLarge (size : Nat)
  /-- the buffer ends inside a word -/
  | truncated
  /-- the buffer ends before the announced length -/
  | short (need available : Nat)
  | notText (flaw : Utf8.Flaw)
  | trailing (count : Nat)

def ElementEncoding.shown : ElementEncoding → String
  | .record kind => "Record(" ++ kind.name ++ ")"
  | .void => "Void"

def EncodingError.message : EncodingError → String
  | .mismatch datum encoding => s!"{datum.shown} cannot be written with {encoding.shown}"
  | .tooLarge size => s!"element of {size} bytes is too large"
  | .truncated => "truncated record: failed to fill whole buffer"
  | .short need available => s!"truncated record: need {need} bytes, have {available}"
  | .notText flaw => s!"text is not valid UTF-8: {flaw.message}"
  | .trailing count => s!"{count} trailing bytes after record"

/-- bytes after their length in four bytes -/
def lengthThenBytes (bs : Bytes) : Except EncodingError Bytes :=
  if bs.length < UInt32.size then .ok (BigEndian.ofNat 4 bs.length ++ bs)
  else .error (.tooLarge bs.length)

/-- an operation on a buffer, which may also fail after it has changed the buffer -/
abbrev OnBuffer := ExceptT EncodingError (StateM Bytes)

/-- Put bytes at the end of a buffer. -/
def OnBuffer.put (bs : Bytes) : OnBuffer Unit := modify (· ++ bs)

/-- Put the length of bytes in four bytes, and then the bytes. -/
def OnBuffer.putCounted (bs : Bytes) : OnBuffer Unit := do
  unless bs.length < UInt32.size do throw (.tooLarge bs.length)
  put (BigEndian.ofNat 4 bs.length)
  put bs

/-- the bytes whose length stands at the front of a buffer, and the rest of it -/
def takeCounted (buffer : Bytes) : Except EncodingError (Bytes × Bytes) :=
  match BigEndian.takeWord32? buffer with
  | none => .error .truncated
  | some (length, rest) =>
    match BigEndian.take? length.toNat rest with
    | none => .error (.short length.toNat rest.length)
    | some (bs, rest) => .ok (bs, rest)

namespace ElementEncoding

def encode : ElementEncoding → Datum → Except EncodingError Bytes
  | .void, .void => .ok []
  | .record .long, .long n => .ok (BigEndian.ofWord64 n)
  | .record .text, .text s => lengthThenBytes (Utf8.encode s)
  | .record .bytes, .bytes bs => lengthThenBytes bs
  | encoding, datum => .error (.mismatch datum encoding)

/-- Put an element at the end of a buffer. -/
def append : ElementEncoding → Datum → OnBuffer Unit
  | .void, .void => return ()
  | .record .long, .long n => .put (BigEndian.ofWord64 n)
  | .record .text, .text s => .putCounted (Utf8.encode s)
  | .record .bytes, .bytes bs => .putCounted bs
  | encoding, datum => throw (.mismatch datum encoding)

/-- The element at the front of a buffer, and what is left of the buffer.  A buffer that ends
inside a word is used up; otherwise a failure leaves what follows the part that was read. -/
def decode : ElementEncoding → Bytes → Except EncodingError Datum × Bytes
  | .void, buffer => (.ok .void, buffer)
  | .record .long, buffer =>
    match BigEndian.takeWord64? buffer with
    | some (n, rest) => (.ok (.long n), rest)
    | none => (.error .truncated, [])
  | .record .text, buffer =>
    match takeCounted buffer with
    | .ok (bs, rest) =>
      match Utf8.decode bs with
      | .ok s => (.ok (.text s), rest)
      | .error flaw => (.error (.notText flaw), rest)
    | .error e => (.error e, leftover buffer)
  | .record .bytes, buffer =>
    match takeCounted buffer with
    | .ok (bs, rest) => (.ok (.bytes bs), rest)
    | .error e => (.error e, leftover buffer)
where
  /-- a length that was read is gone from the buffer, whatever follows it -/
  leftover (buffer : Bytes) : Bytes :=
    match BigEndian.takeWord32? buffer with
    | some (_, rest) => rest
    | none => []

/-- the default encoding of a declared type; a custom type has none -/
def ofType : TypeTag → Except String ElementEncoding
  | .record kind => .ok (.record kind)
  | .void => .ok .void
  | .custom name => .error name

def toJson : ElementEncoding → Json
  | .record kind => .ofFields [("Record", kind.toJson)]
  | .void => .ofText "Void"

def ofJson? (j : Json) : Option ElementEncoding :=
  match j.variant? with
  | some ("Record", some content) => (RecordKind.ofJson? content).map .record
  | some ("Void", content) => if Json.isBare content then some .void else none
  | _ => none

end ElementEncoding

namespace PairEncoding

/-- the encoding of declared types, or the name of the first custom type among them -/
def ofTypes (key value : TypeTag) : Except String PairEncoding := do
  let key ← ElementEncoding.ofType key
  let value ← ElementEncoding.ofType value
  return ⟨key, value⟩

def encode (e : PairEncoding) (pair : Pair) : Except EncodingError Bytes := do
  let key ← e.key.encode pair.key
  let value ← e.value.encode pair.value
  return key ++ value

def decode (e : PairEncoding) (bs : Bytes) : Except EncodingError Pair :=
  match e.key.decode bs with
  | (.error error, _) => .error error
  | (.ok key, rest) =>
    match e.value.decode rest with
    | (.error error, _) => .error error
    | (.ok value, []) => .ok ⟨key, value⟩
    | (.ok _, rest) => .error (.trailing rest.length)

def toJson (e : PairEncoding) : Json :=
  .ofFields [("key", e.key.toJson), ("value", e.value.toJson)]

def ofJson? (j : Json) : Option PairEncoding := do
  match ← j.members? ["key", "value"] 2 with
  | [some key, some value] =>
    return ⟨← ElementEncoding.ofJson? key, ← ElementEncoding.ofJson? value⟩
  | _ => none

end PairEncoding

end Splittable
