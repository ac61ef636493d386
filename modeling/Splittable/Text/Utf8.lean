/-!
# UTF-8

A text as bytes and back.  Bytes that are no text are described by the first ill-formed sequence:
where it starts and how long it is.

* `encode`, `decode`   between texts and byte lists; `decode` accepts exactly what `encode` makes
  (`decode_eq_ok_iff`);
* `Flaw`   the first ill-formed sequence of a byte list, with its message;
* `lossy`  the text in which every ill-formed sequence is one replacement character.
-/

namespace Splittable

abbrev Bytes := List UInt8

namespace Utf8

/-- The first place where bytes stop being text: `validUpTo` bytes before it are well formed, and
the ill-formed sequence has `length` bytes, or the input ends inside a character. -/
structure Flaw where
  validUpTo : Nat
  length : Option Nat
deriving DecidableEq, Repr

def Flaw.message (f : Flaw) : String :=
  match f.length with
  | some n => s!"invalid utf-8 sequence of {n} bytes from index {f.validUpTo}"
  | none => s!"incomplete utf-8 byte sequence from index {f.validUpTo}"

/-- What a first byte announces: how many bytes follow it, and the range of the second one. -/
def announced (b : UInt8) : Option (Nat × UInt8 × UInt8) :=
  if 0xC2 ≤ b && b ≤ 0xDF then some (1, 0x80, 0xBF)
  else if b == 0xE0 then some (2, 0xA0, 0xBF)
  else if b == 0xED then some (2, 0x80, 0x9F)
  else if 0xE1 ≤ b && b ≤ 0xEF then some (2, 0x80, 0xBF)
  else if b == 0xF0 then some (3, 0x90, 0xBF)
  else if 0xF1 ≤ b && b ≤ 0xF3 then some (3, 0x80, 0xBF)
  else if b == 0xF4 then some (3, 0x80, 0x8F)
  else none

/-- The size of a character of which `seen` bytes are read and `owed` are to come; an error is the
length of the ill-formed sequence, or `none` where the input ends. -/
def continued : (owed seen : Nat) → Bytes → Except (Option Nat) Nat
  | 0, seen, _ => .ok seen
  | _ + 1, _, [] => .error none
  | owed + 1, seen, b :: rest =>
    if 0x80 ≤ b && b ≤ 0xBF then continued owed (seen + 1) rest else .error (some seen)

/-- The size of the character that starts with `b`. -/
def sizeAt (b : UInt8) (rest : Bytes) : Except (Option Nat) Nat :=
  if b < 0x80 then .ok 1
  else
    match announced b with
    | none => .error (some 1)
    | some (owed, low, high) =>
      match rest with
      | [] => .error none
      | c :: rest => if low ≤ c && c ≤ high then continued (owed - 1) 2 rest else .error (some 1)

/-- The first flaw at or after position `i`, when `skip` more bytes belong to a character. -/
def flawFrom : (skip i : Nat) → Bytes → Option Flaw
  | _, _, [] => none
  | skip + 1, i, _ :: rest => flawFrom skip (i + 1) rest
  | 0, i, b :: rest =>
    match sizeAt b rest with
    | .ok n => flawFrom (n - 1) (i + 1) rest
    | .error length => some ⟨i, length⟩

def flaw? (bs : Bytes) : Option Flaw := flawFrom 0 0 bs

def encode (s : String) : Bytes := s.toByteArray.data.toList

/-- The text that the bytes are, or the flaw that keeps them from being one. -/
def decode (bs : Bytes) : Except Flaw String :=
  if h : (ByteArray.mk bs.toArray).IsValidUTF8 then .ok (String.ofByteArray ⟨bs.toArray⟩ h)
  else .error ((flaw? bs).getD ⟨0, none⟩)

/-- **Decoding accepts exactly what encoding makes.** -/
theorem decode_eq_ok_iff {bs : Bytes} {s : String} : decode bs = .ok s ↔ bs = encode s := by
  constructor
  · intro h
    unfold decode at h
    split at h
    · cases h
      rfl
    · cases h
  · intro h
    subst h
    unfold decode
    rw [dif_pos (show (ByteArray.mk (encode s).toArray).IsValidUTF8 from s.isValidUTF8)]
    rfl

theorem decode_encode (s : String) : decode (encode s) = .ok s := decode_eq_ok_iff.2 rfl

theorem encode_eq_flatMap (s : String) : encode s = s.toList.flatMap String.utf8EncodeChar := by
  have h : (s.toList.flatMap String.utf8EncodeChar).toByteArray = s.toByteArray :=
    String.utf8Encode_toList
  unfold encode
  rw [← h, List.data_toByteArray]

/-- Every ill-formed sequence becomes one U+FFFD; `fuel` bounds their number. -/
def lossyFrom : (fuel : Nat) → Bytes → String → String
  | 0, _, out => out
  | fuel + 1, bs, out =>
    match decode bs with
    | .ok s => out ++ s
    | .error f =>
      let out := out ++ (decode (bs.take f.validUpTo)).toOption.getD "" ++ "\uFFFD"
      match f.length with
      | none => out
      | some n => lossyFrom fuel (bs.drop (f.validUpTo + n)) out

def lossy (bs : Bytes) : String := lossyFrom (bs.length + 1) bs ""

end Utf8

end Splittable
