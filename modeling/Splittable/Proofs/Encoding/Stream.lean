import Splittable.Proofs.Encoding
import Mathlib.Data.List.Forall2

/-!
# Streams of elements

Elements stand in a buffer one after another, with nothing between them.  Each says where it ends,
so their encodings are enough to take them out again, whatever bytes follow the last one.  An
element that cannot be put into a buffer leaves no trace in it.

* `ElementEncoding.Encodable`              the data that an encoding is for;
* `ElementEncoding.appendAll`, `decodeAll` elements put into a buffer, and taken from its front;
* `ElementEncoding.append_of_encode`, `append_of_encode_error`   an element is put into a buffer as
  it is encoded on its own, and a failure leaves the buffer as it was;
* `ElementEncoding.exists_stream`          what is put into a buffer is taken out of it;
* `ElementEncoding.decodeAll_appendAll`    both for whole streams.
-/

namespace Splittable

/-! ## operations on buffers -/

namespace OnBuffer

variable {α β : Type} {operation : OnBuffer α} {buffer later : Bytes}

/-- An operation that succeeds hands its buffer on to the next one. -/
theorem bind_of_ok {a : α} (next : α → OnBuffer β) (h : operation buffer = (.ok a, later)) :
    (operation >>= next) buffer = next a later := by
  show ExceptT.bindCont next (operation buffer).1 (operation buffer).2 = _
  rw [h]
  rfl

theorem put_eq (bs buffer : Bytes) : put bs buffer = (.ok (), buffer ++ bs) := rfl

/-- The length comes first, and it is what can be too large. -/
theorem putCounted_eq (bs buffer : Bytes) :
    putCounted bs buffer =
      if bs.length < UInt32.size then
        (.ok (), buffer ++ (BigEndian.ofNat 4 bs.length ++ bs))
      else (.error (.tooLarge bs.length), buffer) := by
  unfold putCounted
  split
  · rw [← List.append_assoc]
    rfl
  · rfl

end OnBuffer

/-! ## one element -/

namespace ElementEncoding

variable {encoding : ElementEncoding} {datum : Datum} {front : Bytes}

/-- The datum is of the kind of the encoding, and its length can be counted. -/
def Encodable (encoding : ElementEncoding) (datum : Datum) : Prop :=
  datum.encoding = encoding ∧ datum.counted < UInt32.size

theorem Wire.append_eq (h : encoding.Wire datum front) (buffer : Bytes) :
    encoding.append datum buffer = (.ok (), buffer ++ front) := by
  cases h with
  | void =>
    rw [List.append_nil]
    rfl
  | long n => exact OnBuffer.put_eq _ _
  | text s hlength =>
    show OnBuffer.putCounted (Utf8.encode s) buffer = _
    rw [OnBuffer.putCounted_eq, if_pos hlength]
  | bytes bs hlength =>
    show OnBuffer.putCounted bs buffer = _
    rw [OnBuffer.putCounted_eq, if_pos hlength]

/-- An element is put into a buffer as it is encoded on its own. -/
theorem append_of_encode (h : encoding.encode datum = .ok front) (buffer : Bytes) :
    encoding.append datum buffer = (.ok (), buffer ++ front) :=
  (encode_eq_ok_iff.1 h).append_eq buffer

/-- **An element that cannot be encoded leaves the buffer as it was.** -/
theorem append_of_encode_error {error : EncodingError} (h : encoding.encode datum = .error error)
    (buffer : Bytes) : encoding.append datum buffer = (.error error, buffer) := by
  have hcounted : ∀ bs : Bytes, lengthThenBytes bs = .error error →
      OnBuffer.putCounted bs buffer = (.error error, buffer) := by
    intro bs hbs
    rw [OnBuffer.putCounted_eq]
    unfold lengthThenBytes at hbs
    split at hbs
    · cases hbs
    · rename_i hlength
      cases hbs
      rw [if_neg hlength]
  unfold encode at h
  split at h
  · cases h
  · cases h
  · exact hcounted _ h
  · exact hcounted _ h
  · rename_i hvoid hlong htext hbytes
    cases h
    unfold append
    split
    · exact (hvoid rfl rfl).elim
    · exact (hlong _ rfl rfl).elim
    · exact (htext _ rfl rfl).elim
    · exact (hbytes _ rfl rfl).elim
    · rfl

/-- An element is refused unless its encoding is for it, and leaves the buffer as it was. -/
theorem append_of_not (h : ¬encoding.Encodable datum) (buffer : Bytes) :
    ∃ error, encoding.append datum buffer = (.error error, buffer) := by
  cases hencode : encoding.encode datum with
  | ok front => exact absurd (exists_wire_iff.1 ⟨front, encode_eq_ok_iff.1 hencode⟩) h
  | error error => exact ⟨error, append_of_encode_error hencode buffer⟩

/-! ## streams -/

/-- Put elements at the end of a buffer, one after another, up to the first that fails. -/
def appendAll (encodings : List ElementEncoding) (data : List Datum) : OnBuffer Unit :=
  (encodings.zip data).forM fun (encoding, datum) => encoding.append datum

/-- Take an element of each encoding from the front of a buffer, one after another, up to the first
that fails. -/
def decodeAll (encodings : List ElementEncoding) : OnBuffer (List Datum) :=
  encodings.mapM decode

/-- What elements add to a buffer does not depend on the buffer, and they are taken from it whatever
follows. -/
theorem exists_stream {encodings : List ElementEncoding} {data : List Datum}
    (h : List.Forall₂ Encodable encodings data) :
    ∃ stream, (∀ buffer, appendAll encodings data buffer = (.ok (), buffer ++ stream)) ∧
      ∀ rest, decodeAll encodings (stream ++ rest) = (.ok data, rest) := by
  induction h with
  | nil => exact ⟨[], fun buffer => by rw [List.append_nil]; rfl, fun rest => rfl⟩
  | @cons encoding datum encodings data hdatum _ ih =>
    obtain ⟨front, hfront⟩ := exists_wire_iff.2 hdatum
    obtain ⟨stream, happend, hdecode⟩ := ih
    refine ⟨front ++ stream, fun buffer => ?_, fun rest => ?_⟩
    · show (encoding.append datum >>= fun _ => appendAll encodings data) buffer = _
      rw [OnBuffer.bind_of_ok _ (hfront.append_eq buffer), happend, List.append_assoc]
    · have hfirst : encoding.decode (front ++ (stream ++ rest)) = (.ok datum, stream ++ rest) :=
        hfront.decode_append _
      unfold decodeAll at hdecode ⊢
      rw [List.mapM_cons, List.append_assoc, OnBuffer.bind_of_ok _ hfirst,
        OnBuffer.bind_of_ok _ (hdecode rest)]
      rfl

/-- **Elements say where they end.**  Data of their encodings are put into a buffer one after
another, and the encodings take exactly these data out again, whatever follows them, and leave
exactly that.  Where an element is refused the buffer stays as it was, and it is refused only where
the datum is of another kind or too long. -/
theorem decodeAll_appendAll :
    (∀ encodings data, List.Forall₂ Encodable encodings data →
      ∃ stream, (∀ buffer, appendAll encodings data buffer = (.ok (), buffer ++ stream)) ∧
        ∀ rest, decodeAll encodings (stream ++ rest) = (.ok data, rest)) ∧
    ∀ (encoding : ElementEncoding) (datum : Datum) (buffer : Bytes),
      ((∃ error, (encoding.append datum buffer).1 = .error error) ↔ ¬Encodable encoding datum) ∧
      ∀ error later, encoding.append datum buffer = (.error error, later) → later = buffer := by
  refine ⟨fun encodings data => exists_stream, fun encoding datum buffer => ?_⟩
  by_cases hdatum : Encodable encoding datum
  · obtain ⟨front, hfront⟩ := exists_wire_iff.2 hdatum
    rw [append_of_encode (encode_eq_ok_iff.2 hfront) buffer]
    constructor
    · simp [hdatum]
    · intro error later h
      cases h
  · obtain ⟨failure, hfailure⟩ := append_of_not hdatum buffer
    rw [hfailure]
    constructor
    · simp [hdatum]
    · intro error later h
      cases h
      rfl

/-- a text, nothing, a number and bytes, with bytes behind them that look like a length -/
theorem decodeAll_appendAll_mixed :
    List.Forall₂ Encodable [.record .text, .void, .record .long, .record .bytes]
        [.text "é", .void, .long 258, .bytes [7]] ∧
      (∃ stream, appendAll [.record .text, .void, .record .long, .record .bytes]
          [.text "é", .void, .long 258, .bytes [7]] [] = (.ok (), stream) ∧
        decodeAll [.record .text, .void, .record .long, .record .bytes]
            (stream ++ [0, 0, 0, 1]) =
          (.ok [.text "é", .void, .long 258, .bytes [7]], [0, 0, 0, 1])) ∧
      append (.record .long) (.text "é") [9] =
        (.error (.mismatch (.text "é") (.record .long)), [9]) ∧
      ¬Encodable (.record .long) (.text "é") := by
  have hdata : List.Forall₂ Encodable [.record .text, .void, .record .long, .record .bytes]
      [.text "é", .void, .long 258, .bytes [7]] :=
    .cons ⟨rfl, by decide⟩ (.cons ⟨rfl, by decide⟩ (.cons ⟨rfl, by decide⟩
      (.cons ⟨rfl, by decide⟩ .nil)))
  obtain ⟨stream, happend, hdecode⟩ := decodeAll_appendAll.1 _ _ hdata
  refine ⟨hdata, ⟨stream, happend [], hdecode [0, 0, 0, 1]⟩, rfl, ?_⟩
  exact (decodeAll_appendAll.2 _ _ [9]).1.1 ⟨_, rfl⟩

end ElementEncoding

end Splittable
