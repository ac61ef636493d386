import Splittable.Encoding
import Mathlib.Algebra.Group.Nat.Defs

/-!
# The wire form is exact

An element has one wire form, which says where it ends, so it is read back whatever bytes follow
it.  Encoding and decoding a pair undo each other, and decoding refuses everything else: bytes that
end too early, bytes that go on, lengths that do not fit and texts that are none.

* `ElementEncoding.Wire`    the wire form of an element;
* `ElementEncoding.encode_eq_ok_iff`, `decode_eq_ok_iff`   encoding and decoding by the wire form;
* `Datum.encoding`, `Datum.counted`   what an encoding asks of a datum;
* `refused_front`   a form that says where it ends is refused when its end is missing;
* `PairEncoding.encode_iff_decode`   encoding and decoding of pairs.
-/

namespace Splittable

/-! ## refusals -/

section
variable {ε α : Type}

theorem refused_iff {answer : Except ε α} :
    (∃ error, answer = .error error) ↔ ∀ a, answer ≠ .ok a := by
  cases answer with
  | ok a => simp
  | error error => simp

/-- Where bytes that go on behind a form are refused, the beginning of a form is no form. -/
theorem refused_front {read : Bytes → Except ε α} {front rest : Bytes} {a : α}
    (hlonger : ∀ b, read front = .ok b → ∃ error, read (front ++ rest) = .error error)
    (h : read (front ++ rest) = .ok a) : ∃ error, read front = .error error := by
  refine refused_iff.2 fun b hb => ?_
  obtain ⟨error, herror⟩ := hlonger b hb
  rw [h] at herror
  cases herror

end

/-! ## counted bytes -/

theorem lengthThenBytes_eq_ok_iff {bs front : Bytes} :
    lengthThenBytes bs = .ok front ↔
      bs.length < UInt32.size ∧ front = BigEndian.ofNat 4 bs.length ++ bs := by
  unfold lengthThenBytes
  split
  · rename_i hlength
    simp [hlength, eq_comm]
  · rename_i hlength
    simp [hlength]

/-- Counted bytes are read back, whatever follows them. -/
theorem takeCounted_append {bs : Bytes} (h : bs.length < UInt32.size) (rest : Bytes) :
    takeCounted (BigEndian.ofNat 4 bs.length ++ bs ++ rest) = .ok (bs, rest) := by
  rw [List.append_assoc]
  simp only [takeCounted, BigEndian.takeWord32?_count h, BigEndian.take?_count h]

theorem takeCounted_eq_ok_iff {buffer bs rest : Bytes} :
    takeCounted buffer = .ok (bs, rest) ↔
      bs.length < UInt32.size ∧ buffer = BigEndian.ofNat 4 bs.length ++ bs ++ rest := by
  constructor
  · intro h
    unfold takeCounted at h
    split at h
    · cases h
    · rename_i count after hword
      split at h
      · cases h
      · rename_i htake
        cases h
        obtain ⟨hlength, rfl⟩ := BigEndian.take?_eq_some_iff.1 htake
        rw [BigEndian.takeWord32?_eq_some_iff.1 hword, hlength, List.append_assoc]
        exact ⟨count.toNat_lt, rfl⟩
  · rintro ⟨hlength, rfl⟩
    exact takeCounted_append hlength rest

/-! ## elements -/

/-- the encoding that a datum is written with -/
def Datum.encoding : Datum → ElementEncoding
  | .void => .void
  | .long _ => .record .long
  | .text _ => .record .text
  | .bytes _ => .record .bytes

/-- how many bytes of a datum its length has to count -/
def Datum.counted : Datum → Nat
  | .void | .long _ => 0
  | .text s => (Utf8.encode s).length
  | .bytes bs => bs.length

namespace ElementEncoding

/-- the wire form of a datum -/
inductive Wire : ElementEncoding → Datum → Bytes → Prop
  | void : Wire .void .void []
  | long (n : UInt64) : Wire (.record .long) (.long n) (BigEndian.ofWord64 n)
  | text (s : String) : (Utf8.encode s).length < UInt32.size →
      Wire (.record .text) (.text s)
        (BigEndian.ofNat 4 (Utf8.encode s).length ++ Utf8.encode s)
  | bytes (bs : Bytes) : bs.length < UInt32.size →
      Wire (.record .bytes) (.bytes bs) (BigEndian.ofNat 4 bs.length ++ bs)

variable {encoding : ElementEncoding} {datum : Datum} {front buffer rest : Bytes}

theorem encode_eq_ok_iff : encoding.encode datum = .ok front ↔ encoding.Wire datum front := by
  constructor
  · intro h
    unfold encode at h
    split at h
    · cases h
      exact .void
    · cases h
      exact .long _
    · obtain ⟨hlength, rfl⟩ := lengthThenBytes_eq_ok_iff.1 h
      exact .text _ hlength
    · obtain ⟨hlength, rfl⟩ := lengthThenBytes_eq_ok_iff.1 h
      exact .bytes _ hlength
    · cases h
  · intro h
    cases h with
    | void => rfl
    | long => rfl
    | text _ hlength => exact lengthThenBytes_eq_ok_iff.2 ⟨hlength, rfl⟩
    | bytes _ hlength => exact lengthThenBytes_eq_ok_iff.2 ⟨hlength, rfl⟩

/-- **An element says where it ends**: it is read back, whatever follows it. -/
theorem Wire.decode_append (h : encoding.Wire datum front) (rest : Bytes) :
    encoding.decode (front ++ rest) = (.ok datum, rest) := by
  cases h with
  | void => rfl
  | long n => simp only [decode, BigEndian.takeWord64?_ofWord64]
  | text s hlength => simp only [decode, takeCounted_append hlength, Utf8.decode_encode]
  | bytes bs hlength => simp only [decode, takeCounted_append hlength]

/-- **Decoding takes the wire form of an element from the front of a buffer**, and nothing else. -/
theorem decode_eq_ok_iff : encoding.decode buffer = (.ok datum, rest) ↔
    ∃ front, encoding.Wire datum front ∧ buffer = front ++ rest := by
  constructor
  · intro h
    unfold decode at h
    split at h
    · cases h
      exact ⟨[], .void, rfl⟩
    · split at h
      · rename_i hword
        cases h
        exact ⟨_, .long _, BigEndian.takeWord64?_eq_some_iff.1 hword⟩
      · cases h
    · split at h
      · rename_i hcounted
        split at h
        · rename_i htext
          cases h
          obtain ⟨hlength, hbuffer⟩ := takeCounted_eq_ok_iff.1 hcounted
          rw [Utf8.decode_eq_ok_iff.1 htext] at hlength hbuffer
          exact ⟨_, .text _ hlength, hbuffer⟩
        · cases h
      · cases h
    · split at h
      · rename_i hcounted
        cases h
        obtain ⟨hlength, hbuffer⟩ := takeCounted_eq_ok_iff.1 hcounted
        exact ⟨_, .bytes _ hlength, hbuffer⟩
      · cases h
  · rintro ⟨front, hwire, rfl⟩
    exact hwire.decode_append rest

/-- A datum of the kind of an encoding has a wire form if its length can be counted. -/
theorem exists_wire_iff : (∃ front, encoding.Wire datum front) ↔
    datum.encoding = encoding ∧ datum.counted < UInt32.size := by
  constructor
  · rintro ⟨front, hwire⟩
    cases hwire with
    | void => exact ⟨rfl, Nat.two_pow_pos 32⟩
    | long => exact ⟨rfl, Nat.two_pow_pos 32⟩
    | text _ hlength => exact ⟨rfl, hlength⟩
    | bytes _ hlength => exact ⟨rfl, hlength⟩
  · rintro ⟨rfl, hlength⟩
    cases datum with
    | void => exact ⟨_, .void⟩
    | long n => exact ⟨_, .long n⟩
    | text s => exact ⟨_, .text s hlength⟩
    | bytes bs => exact ⟨_, .bytes bs hlength⟩

end ElementEncoding

/-! ## pairs -/

namespace PairEncoding

variable {e : PairEncoding} {pair : Pair} {bs : Bytes}

/-- the wire form of a pair: that of its key, and then that of its value -/
def Wire (e : PairEncoding) (pair : Pair) (bs : Bytes) : Prop :=
  ∃ key value, e.key.Wire pair.key key ∧ e.value.Wire pair.value value ∧ bs = key ++ value

theorem encode_eq_ok_iff : e.encode pair = .ok bs ↔ e.Wire pair bs := by
  unfold encode Wire
  constructor
  · intro h
    cases hkey : e.key.encode pair.key with
    | error error =>
      rw [hkey] at h
      cases h
    | ok key =>
      cases hvalue : e.value.encode pair.value with
      | error error =>
        rw [hkey, hvalue] at h
        cases h
      | ok value =>
        rw [hkey, hvalue] at h
        cases h
        exact ⟨key, value, ElementEncoding.encode_eq_ok_iff.1 hkey,
          ElementEncoding.encode_eq_ok_iff.1 hvalue, rfl⟩
  · rintro ⟨key, value, hkey, hvalue, rfl⟩
    rw [ElementEncoding.encode_eq_ok_iff.2 hkey, ElementEncoding.encode_eq_ok_iff.2 hvalue]
    rfl

/-- The wire form of a pair is decoded to the pair, and what follows it is told as too much. -/
theorem Wire.decode_append (h : e.Wire pair bs) (rest : Bytes) :
    e.decode (bs ++ rest) = if rest = [] then .ok pair else .error (.trailing rest.length) := by
  obtain ⟨key, value, hkey, hvalue, rfl⟩ := h
  unfold decode
  rw [List.append_assoc, hkey.decode_append]
  dsimp only
  rw [hvalue.decode_append]
  cases rest with
  | nil => rfl
  | cons b rest => rfl

theorem decode_eq_ok_iff : e.decode bs = .ok pair ↔ e.Wire pair bs := by
  constructor
  · intro h
    unfold decode at h
    split at h
    · cases h
    · rename_i hkey
      split at h
      · cases h
      · rename_i hvalue
        cases h
        obtain ⟨key, hkeyWire, rfl⟩ := ElementEncoding.decode_eq_ok_iff.1 hkey
        obtain ⟨value, hvalueWire, rfl⟩ := ElementEncoding.decode_eq_ok_iff.1 hvalue
        exact ⟨key, value, hkeyWire, hvalueWire, by rw [List.append_nil]⟩
      · cases h
  · intro h
    have hdecode := h.decode_append []
    rwa [List.append_nil, if_pos rfl] at hdecode

/-- What follows a wire form is told as too much. -/
theorem Wire.decode_longer {rest : Bytes} (h : e.Wire pair bs) (hrest : rest ≠ []) :
    e.decode (bs ++ rest) = .error (.trailing rest.length) := by
  rw [h.decode_append, if_neg hrest]

theorem encode_error_iff : (∃ error, e.encode pair = .error error) ↔
    ¬(pair.key.encoding = e.key ∧ pair.key.counted < UInt32.size) ∨
      ¬(pair.value.encoding = e.value ∧ pair.value.counted < UInt32.size) := by
  rw [← Classical.not_and_iff_not_or_not, ← ElementEncoding.exists_wire_iff,
    ← ElementEncoding.exists_wire_iff]
  have hwire : (∃ bs, e.Wire pair bs) ↔
      (∃ key, e.key.Wire pair.key key) ∧ ∃ value, e.value.Wire pair.value value := by
    constructor
    · rintro ⟨-, key, value, hkey, hvalue, rfl⟩
      exact ⟨⟨key, hkey⟩, value, hvalue⟩
    · rintro ⟨⟨key, hkey⟩, value, hvalue⟩
      exact ⟨key ++ value, key, value, hkey, hvalue, rfl⟩
  rw [← hwire, refused_iff, not_exists]
  exact forall_congr' fun _ => not_congr encode_eq_ok_iff

/-- **Encoding and decoding are inverse to each other**, and the bytes between them are the wire
form of the pair.  Encoding fails where a datum is of another kind than its encoding or too long.
Decoding fails on all bytes that are no wire form; so it does where some are missing at the end, and
where some follow. -/
theorem encode_iff_decode (e : PairEncoding) (pair : Pair) (bs : Bytes) :
    (e.encode pair = .ok bs ↔ e.decode bs = .ok pair) ∧
    (e.encode pair = .ok bs ↔ e.Wire pair bs) ∧
    ((∃ error, e.encode pair = .error error) ↔
      (pair.key.encoding ≠ e.key ∨ 2 ^ 32 - 1 < pair.key.counted) ∨
        (pair.value.encoding ≠ e.value ∨ 2 ^ 32 - 1 < pair.value.counted)) ∧
    ((∃ error, e.decode bs = .error error) ↔ ∀ other, e.encode other ≠ .ok bs) ∧
    (∀ front rest, bs = front ++ rest → rest ≠ [] → e.encode pair = .ok bs →
      ∃ error, e.decode front = .error error) ∧
    (∀ rest, rest ≠ [] → e.encode pair = .ok bs →
      e.decode (bs ++ rest) = .error (.trailing rest.length)) := by
  refine ⟨encode_eq_ok_iff.trans decode_eq_ok_iff.symm, encode_eq_ok_iff, ?_, ?_, ?_, ?_⟩
  · rw [encode_error_iff, Classical.not_and_iff_not_or_not, Classical.not_and_iff_not_or_not,
      Nat.not_lt, Nat.not_lt]
    have hsize (n : Nat) : UInt32.size ≤ n ↔ 2 ^ 32 - 1 < n := by
      show 4294967296 ≤ n ↔ 4294967295 < n
      omega
    rw [hsize, hsize]
  · rw [refused_iff]
    exact forall_congr' fun _ => not_congr (decode_eq_ok_iff.trans encode_eq_ok_iff.symm)
  · rintro front rest rfl hrest hencode
    refine refused_front (fun other hother => ?_) (decode_eq_ok_iff.2 (encode_eq_ok_iff.1 hencode))
    exact ⟨_, (decode_eq_ok_iff.1 hother).decode_longer hrest⟩
  · intro rest hrest hencode
    exact (encode_eq_ok_iff.1 hencode).decode_longer hrest

end PairEncoding

end Splittable
