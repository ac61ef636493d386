import Splittable.Proofs.LineText.Answers

/-!
# Lines

The lines of a text, and the records that the text format reads for them.

* `Text.lines`        the lines of a text, each with what ends it;
* `Text.body`         a line without its line feed, and without a carriage return before that;
* `Text.linePairs`    lines that follow one another, each at its offset in bytes;
* `LineText.onward_encode`   the pieces of a text behind its line feeds are its lines.
-/

namespace Splittable

namespace Text

/-- the lines of a text, each with the line feed that ends it -/
def lines : List Char → List (List Char)
  | [] => []
  | c :: cs =>
    if c = '\n' then [c] :: lines cs
    else
      match lines cs with
      | [] => [[c]]
      | line :: rest => (c :: line) :: rest

/-- a line without the line feed, or the carriage return and the line feed, that ends it -/
def body (line : List Char) : List Char :=
  match line.reverse with
  | '\n' :: '\r' :: before => before.reverse
  | '\n' :: before => before.reverse
  | _ => line

/-- the bytes of some characters -/
def bytesOf (cs : List Char) : Bytes := cs.flatMap String.utf8EncodeChar

/-- lines that follow one another: the offset of each, and its text -/
def linePairs : Nat → List (List Char) → List Pair
  | _, [] => []
  | offset, line :: rest =>
    ⟨.long offset.toUInt64, .text (String.ofList (body line))⟩ ::
      linePairs (offset + (bytesOf line).length) rest

/-- the records of a text: its lines, from offset 0 on -/
def pairs (text : String) : List Pair := linePairs 0 (lines text.toList)

example : pairs "a\r\n\nb" = [⟨.long 0, .text "a"⟩, ⟨.long 3, .text ""⟩, ⟨.long 4, .text "b"⟩] := by
  decide

theorem flatten_lines (cs : List Char) : (lines cs).flatten = cs := by
  induction cs with
  | nil => rfl
  | cons c cs ih =>
    unfold lines
    split
    · rw [List.flatten_cons, ih]
      rfl
    · cases hlines : lines cs with
      | nil =>
        rw [hlines] at ih
        rw [← ih]
        rfl
      | cons line rest =>
        rw [hlines, List.flatten_cons] at ih
        rw [List.flatten_cons, List.cons_append, ih]

theorem bytesOf_append (a b : List Char) : bytesOf (a ++ b) = bytesOf a ++ bytesOf b :=
  List.flatMap_append

theorem bytesOf_cons (c : Char) (cs : List Char) :
    bytesOf (c :: cs) = String.utf8EncodeChar c ++ bytesOf cs := List.flatMap_cons

theorem encode_ofList (cs : List Char) : Utf8.encode (String.ofList cs) = bytesOf cs := by
  rw [Utf8.encode_eq_flatMap, String.toList_ofList]
  rfl

theorem body_of_ne {c : Char} (hc : c ≠ '\n') (before : List Char) :
    body (before ++ [c]) = before ++ [c] := by
  unfold body
  rw [List.reverse_concat]
  split
  · rename_i h
    exact absurd (List.cons.inj h).1 hc
  · rename_i h
    exact absurd (List.cons.inj h).1 hc
  · rfl

theorem body_lineFeed {c : Char} (hc : c ≠ '\r') (before : List Char) :
    body (before ++ [c] ++ ['\n']) = before ++ [c] := by
  unfold body
  rw [List.reverse_concat, List.reverse_concat]
  split
  · rename_i h
    exact absurd (List.cons.inj (List.cons.inj h).2).1 hc
  · rename_i h
    rw [← (List.cons.inj h).2, ← List.reverse_concat, List.reverse_reverse]
  · rename_i h
    exact absurd rfl (h _)

theorem body_carriageReturn (before : List Char) : body (before ++ ['\r'] ++ ['\n']) = before := by
  unfold body
  rw [List.reverse_concat, List.reverse_concat]
  exact List.reverse_reverse before

/-- each line is followed by the lines of what follows it -/
theorem lines_flatten_tail {cs line : List Char} {rest : List (List Char)}
    (h : lines cs = line :: rest) : lines rest.flatten = rest := by
  induction cs generalizing line rest with
  | nil => cases h
  | cons c cs ih =>
    unfold lines at h
    split at h
    · obtain ⟨-, rfl⟩ := List.cons.inj h
      rw [flatten_lines]
    · cases hlines : lines cs with
      | nil =>
        rw [hlines] at h
        obtain ⟨-, rfl⟩ := List.cons.inj h
        rfl
      | cons line' rest' =>
        rw [hlines] at h
        obtain ⟨-, rfl⟩ := List.cons.inj h
        exact ih hlines

/-! ## bytes of characters -/

theorem utf8EncodeChar_of_mem {c : Char} {b : UInt8} (h : b ∈ String.utf8EncodeChar c)
    (hb : b.toNat < 0x80) : c.val.toNat = b.toNat := by
  unfold String.utf8EncodeChar at h
  dsimp only at h
  have hnat : ∀ n : Nat, (UInt8.ofNat n).toNat = n % 256 := fun _ => UInt8.toNat_ofNat'
  split at h
  · rename_i hv
    rw [List.mem_singleton] at h
    rw [h, hnat]
    omega
  · exfalso
    split at h
    · simp only [List.mem_cons, List.not_mem_nil, or_false] at h
      rcases h with rfl | rfl <;> rw [hnat] at hb <;> omega
    · split at h
      · simp only [List.mem_cons, List.not_mem_nil, or_false] at h
        rcases h with rfl | rfl | rfl <;> rw [hnat] at hb <;> omega
      · simp only [List.mem_cons, List.not_mem_nil, or_false] at h
        rcases h with rfl | rfl | rfl | rfl <;> rw [hnat] at hb <;> omega

theorem eq_of_mem_utf8EncodeChar {c a : Char} {b : UInt8} (h : b ∈ String.utf8EncodeChar c)
    (hb : b.toNat < 0x80) (ha : a.val.toNat = b.toNat) : c = a := by
  apply Char.ext
  apply UInt32.toNat_inj.1
  rw [utf8EncodeChar_of_mem h hb, ha]

theorem lineFeed_not_mem {c : Char} (h : c ≠ '\n') : (0x0A : UInt8) ∉ String.utf8EncodeChar c :=
  fun hmem => h (eq_of_mem_utf8EncodeChar hmem (by decide) rfl)

theorem bytesOf_concat (cs : List Char) (c : Char) :
    ∃ b before, bytesOf (cs ++ [c]) = before ++ [b] ∧ b ∈ String.utf8EncodeChar c := by
  obtain ⟨before, b, hc⟩ :=
    List.eq_nil_or_concat (String.utf8EncodeChar c) |>.resolve_left String.utf8EncodeChar_ne_nil
  refine ⟨b, bytesOf cs ++ before, ?_, ?_⟩
  · rw [bytesOf_append, bytesOf_cons, hc, List.append_assoc]
    show bytesOf cs ++ (before.concat b ++ []) = _
    rw [List.append_nil, List.concat_eq_append]
  · rw [hc]
    simp

end Text

namespace LineText

open Pieces Text

theorem size_append {xs bs : Bytes} (h : (0x0A : UInt8) ∉ xs) :
    size [0x0A] (xs ++ bs) = xs.length + size [0x0A] bs := by
  induction xs with
  | nil => simp
  | cons x xs ih =>
    have hp : ¬ ([0x0A] : Bytes).isPrefixOf (x :: (xs ++ bs)) = true := fun hp => by
      obtain ⟨hx, -⟩ := List.cons_prefix_cons.1 (List.isPrefixOf_iff_prefix.1 hp)
      rw [hx] at h
      exact h List.mem_cons_self
    rw [List.cons_append, size, if_neg hp, ih fun hmem => h (List.mem_cons_of_mem _ hmem),
      List.length_cons]
    omega

theorem size_bytesOf (cs : List Char) :
    size [0x0A] (bytesOf cs) = (bytesOf ((lines cs).headD [])).length := by
  induction cs with
  | nil => rfl
  | cons c cs ih =>
    rw [bytesOf_cons]
    unfold lines
    split
    · rename_i hc
      subst hc
      rfl
    · rename_i hc
      rw [size_append (lineFeed_not_mem hc), ih]
      cases hlines : lines cs with
      | nil =>
        show _ + ([] : Bytes).length = (bytesOf [c]).length
        rw [bytesOf_cons, List.length_append]
        rfl
      | cons line rest =>
        show _ + (bytesOf line).length = (bytesOf (c :: line)).length
        rw [bytesOf_cons, List.length_append]

/-- **The pieces of a text behind its line feeds are its lines.** -/
theorem ofBytes_bytesOf {cs : List Char} {found : List (List Char)} (h : lines cs = found) :
    ofBytes [0x0A] (bytesOf cs) = found.map bytesOf := by
  induction found generalizing cs with
  | nil =>
    have hcs : cs = [] := by rw [← flatten_lines cs, h]; rfl
    rw [hcs, ofBytes]
    rfl
  | cons line rest ih =>
    have hsize : size [0x0A] (bytesOf cs) = (bytesOf line).length := by
      rw [size_bytesOf, h]
      rfl
    have hcs : bytesOf cs = bytesOf line ++ bytesOf rest.flatten := by
      rw [← bytesOf_append, ← List.flatten_cons, ← h, flatten_lines]
    have hne : cs ≠ [] := fun hnil => by
      rw [hnil] at h
      cases h
    have hpos : 0 < size [0x0A] (bytesOf cs) := by
      refine size_pos (List.cons_ne_nil _ _) ?_
      obtain ⟨c, cs', rfl⟩ := List.exists_cons_of_ne_nil hne
      rw [bytesOf_cons]
      simp [String.utf8EncodeChar_ne_nil]
    rw [ofBytes, if_pos hpos, hsize, hcs, List.take_left, List.drop_left,
      ih (lines_flatten_tail h), List.map_cons]

theorem record_of_ne {before : Bytes} {b : UInt8} (hb : b ≠ 0x0A) :
    Delimiter.newline.record (before ++ [b]) = before ++ [b] := by
  refine if_neg fun hsuf => hb ?_
  obtain ⟨before', h⟩ := List.isSuffixOf_iff_suffix.1 hsuf
  exact (List.append_inj_right' h rfl |> List.cons.inj).1.symm

/-- with a line feed at its end it is read without it, and without a carriage return before it -/
theorem record_lineFeed (before : Bytes) :
    Delimiter.newline.record (before ++ [0x0A]) =
      (Delimiter.newline.strip (0x0A :: before.reverse)).reverse := by
  have hsuf : Delimiter.newline.bytes.isSuffixOf (before ++ [0x0A]) = true :=
    List.isSuffixOf_iff_suffix.2 (List.suffix_append before [0x0A])
  unfold Delimiter.record
  rw [if_pos hsuf, List.reverse_concat]

theorem strip_of_ne {before : Bytes} {b : UInt8} (hb : b ≠ 0x0D) :
    Delimiter.newline.strip (0x0A :: b :: before) = b :: before := by
  unfold Delimiter.strip
  rw [show (0x0A :: b :: before).drop Delimiter.newline.bytes.length = b :: before from rfl]
  split
  · rename_i h
    exact absurd (List.cons.inj h).1 hb
  · rfl

theorem ne_of_mem_utf8EncodeChar {c a : Char} {b x : UInt8} (h : b ∈ String.utf8EncodeChar c)
    (hx : x.toNat < 0x80) (ha : a.val.toNat = x.toNat) (hc : c ≠ a) : b ≠ x := by
  rintro rfl
  exact hc (eq_of_mem_utf8EncodeChar h hx ha)

/-- **A line is read without what ends it.** -/
theorem record_bytesOf (line : List Char) :
    Delimiter.newline.record (bytesOf line) = bytesOf (body line) := by
  rcases List.eq_nil_or_concat line with rfl | ⟨before, c, rfl⟩
  · rfl
  rw [List.concat_eq_append]
  by_cases hc : c = '\n'
  · subst hc
    rcases List.eq_nil_or_concat before with rfl | ⟨before, c, rfl⟩
    · rfl
    rw [List.concat_eq_append, bytesOf_append]
    show Delimiter.newline.record (bytesOf (before ++ [c]) ++ [0x0A]) = _
    rw [record_lineFeed]
    by_cases hc : c = '\r'
    · subst hc
      rw [body_carriageReturn, bytesOf_append]
      show (Delimiter.newline.strip (0x0A :: (bytesOf before ++ [0x0D]).reverse)).reverse = _
      rw [List.reverse_concat]
      exact List.reverse_reverse _
    · obtain ⟨b, bytes, hbytes, hb⟩ := bytesOf_concat before c
      have hne : b ≠ 0x0D := ne_of_mem_utf8EncodeChar hb (by decide) rfl hc
      rw [body_lineFeed hc, hbytes, List.reverse_concat, strip_of_ne hne, ← List.reverse_concat,
        List.reverse_reverse]
  · obtain ⟨b, bytes, hbytes, hb⟩ := bytesOf_concat before c
    have hne : b ≠ 0x0A := ne_of_mem_utf8EncodeChar hb (by decide) rfl hc
    rw [body_of_ne hc, hbytes, record_of_ne hne]

theorem answer_bytesOf (offset : Nat) (line : List Char) :
    Delimiter.newline.answer (offset, bytesOf line) =
      .ok ⟨.long offset.toUInt64, .text (String.ofList (body line))⟩ := by
  unfold Delimiter.answer LineCursor.pairOf
  rw [record_bytesOf, Utf8.decode_eq_ok_iff.2 (encode_ofList (body line)).symm]

theorem map_answer_placed (offset : Nat) (found : List (List Char)) :
    (placed offset (found.map bytesOf)).map Delimiter.newline.answer =
      (linePairs offset found).map .ok := by
  induction found generalizing offset with
  | nil => rfl
  | cons line rest ih =>
    rw [List.map_cons, placed, List.map_cons, answer_bytesOf, ih]
    rfl

/-- **The records of a text are its lines.** -/
theorem onward_encode (text : String) :
    (onward [0x0A] (Utf8.encode text) 0).map Delimiter.newline.answer =
      (Text.pairs text).map .ok := by
  have hbytes : Utf8.encode text = bytesOf text.toList := Utf8.encode_eq_flatMap text
  unfold onward
  rw [List.drop_zero, hbytes, ofBytes_bytesOf rfl, map_answer_placed]
  rfl

end LineText

end Splittable
