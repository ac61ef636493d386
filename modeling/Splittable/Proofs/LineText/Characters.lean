import Splittable.Proofs.LineText.Lines

/-!
# Delimiters lie between characters

The first byte of a character is told from its other bytes.  So a text occurs among the bytes of a
text only where it occurs among the characters, and bytes of a text that are cut behind a delimiter
are texts again.

* `Text.exists_of_occurs`      where a text occurs among bytes;
* `Text.exists_line_of_mem_ofBytes`   the pieces of the bytes of a text;
* `Delimiter.answer_of_text`   a piece that is a text is answered as a record.
-/

namespace Splittable

namespace Text

open Pieces

variable {cs ds : List Char} {i : Nat}

/-! ## characters among bytes -/

theorem utf8EncodeChar_append_inj {c c' : Char} {a b : Bytes}
    (h : String.utf8EncodeChar c ++ a = String.utf8EncodeChar c' ++ b) : c = c' ∧ a = b := by
  have hchar : c = c' := by
    have hdecode := congrArg (fun bs : Bytes => bs.toByteArray.utf8DecodeChar? 0) h
    simpa only [List.toByteArray_append, ByteArray.utf8DecodeChar?_utf8EncodeChar_append,
      Option.some.injEq] using hdecode
  subst hchar
  exact ⟨rfl, List.append_cancel_left h⟩

theorem prefix_of_bytesOf (h : bytesOf ds <+: bytesOf cs) : ds <+: cs := by
  induction ds generalizing cs with
  | nil => exact List.nil_prefix
  | cons d ds ih =>
    obtain ⟨rest, h⟩ := h
    rw [bytesOf_cons, List.append_assoc] at h
    cases cs with
    | nil => exact absurd (List.append_eq_nil_iff.1 h).1 String.utf8EncodeChar_ne_nil
    | cons c cs =>
      rw [bytesOf_cons] at h
      obtain ⟨rfl, hrest⟩ := utf8EncodeChar_append_inj h
      exact List.cons_prefix_cons.2 ⟨rfl, ih ⟨rest, hrest⟩⟩

theorem getElem?_zero_bytesOf (hds : ds ≠ []) :
    ∃ b, (bytesOf ds)[0]? = some b ∧ b.IsUTF8FirstByte := by
  obtain ⟨d, ds, rfl⟩ := List.exists_cons_of_ne_nil hds
  have hpos : 0 < (String.utf8EncodeChar d).length :=
    List.length_pos_iff.2 String.utf8EncodeChar_ne_nil
  refine ⟨(String.utf8EncodeChar d)[0], ?_, UInt8.isUTF8FirstByte_getElem_utf8EncodeChar.2 rfl⟩
  rw [bytesOf_cons, List.getElem?_append_left hpos, List.getElem?_eq_getElem hpos]

theorem bytesOf_ne_nil (hds : ds ≠ []) : bytesOf ds ≠ [] := by
  obtain ⟨b, hb, -⟩ := getElem?_zero_bytesOf hds
  intro hnil
  rw [hnil] at hb
  cases hb

/-- No text begins inside a character. -/
theorem not_occurs_inside {c : Char} (hds : ds ≠ []) (hi : 0 < i)
    (hlt : i < (String.utf8EncodeChar c).length) (rest : Bytes) :
    ¬ Occurs (bytesOf ds) (String.utf8EncodeChar c ++ rest) i := by
  intro hoc
  obtain ⟨b, hb, hfirst⟩ := getElem?_zero_bytesOf hds
  have hpos : 0 < (bytesOf ds).length := (List.getElem?_eq_some_iff.1 hb).1
  have hsame := List.prefix_iff_getElem?.1 hoc 0 hpos
  rw [List.getElem?_drop, Nat.add_zero, List.getElem?_append_left hlt,
    List.getElem?_eq_getElem hlt, ← List.getElem?_eq_getElem hpos, hb] at hsame
  rw [← Option.some.inj hsame] at hfirst
  exact Nat.ne_of_gt hi (UInt8.isUTF8FirstByte_getElem_utf8EncodeChar.1 hfirst)

/-- **A text occurs among bytes where it occurs among characters.** -/
theorem exists_of_occurs (hds : ds ≠ []) (h : Occurs (bytesOf ds) (bytesOf cs) i) :
    ∃ before after, cs = before ++ ds ++ after ∧ i = (bytesOf before).length := by
  induction cs generalizing i with
  | nil =>
    have hprefix : bytesOf ds <+: ([] : Bytes).drop i := h
    rw [List.drop_nil, List.prefix_nil] at hprefix
    exact absurd hprefix (bytesOf_ne_nil hds)
  | cons c cs ih =>
    rcases Nat.eq_zero_or_pos i with rfl | hpos
    · obtain ⟨after, hafter⟩ := prefix_of_bytesOf (show bytesOf ds <+: bytesOf (c :: cs) from h)
      exact ⟨[], after, hafter.symm, rfl⟩
    · rw [bytesOf_cons] at h
      rcases Nat.lt_or_ge i (String.utf8EncodeChar c).length with hlt | hge
      · exact absurd h (not_occurs_inside hds hpos hlt _)
      · obtain ⟨k, rfl⟩ := Nat.exists_eq_add_of_le hge
        rw [← occurs_drop, List.drop_left] at h
        obtain ⟨before, after, rfl, rfl⟩ := ih h
        exact ⟨c :: before, after, rfl, by rw [bytesOf_cons, List.length_append]⟩

/-! ## pieces -/

/-- The first piece of a text ends between two characters. -/
theorem exists_size_eq (hds : ds ≠ []) (cs : List Char) :
    ∃ front rest, cs = front ++ rest ∧
      size (bytesOf ds) (bytesOf cs) = (bytesOf front).length := by
  rcases first_or_none (bytesOf ds) (bytesOf cs) 0 with ⟨i, _, hoc, hfirst⟩ | hnone
  · obtain ⟨before, after, rfl, rfl⟩ := exists_of_occurs hds hoc
    refine ⟨before ++ ds, after, rfl, ?_⟩
    rw [size_of_first hoc fun j hj => hfirst j (Nat.zero_le j) hj, bytesOf_append,
      List.length_append]
  · exact ⟨cs, [], (List.append_nil cs).symm, size_of_none fun j => hnone j (Nat.zero_le j)⟩

/-- **The pieces of a text are texts.** -/
theorem exists_line_of_mem_ofBytes (hds : ds ≠ []) {piece : Bytes}
    (h : piece ∈ ofBytes (bytesOf ds) (bytesOf cs)) : ∃ line, piece = bytesOf line := by
  induction hn : cs.length using Nat.strong_induction_on generalizing cs with
  | _ n ih =>
    rw [ofBytes] at h
    split at h
    · rename_i hpos
      obtain ⟨front, rest, rfl, hsize⟩ := exists_size_eq hds cs
      rw [hsize, bytesOf_append, List.take_left, List.drop_left] at h
      have hfront : front ≠ [] := by
        rintro rfl
        rw [hsize] at hpos
        exact Nat.lt_irrefl 0 hpos
      rcases List.mem_cons.1 h with rfl | h
      · exact ⟨front, rfl⟩
      · refine ih rest.length ?_ h rfl
        have := List.length_pos_iff.2 hfront
        rw [List.length_append] at hn
        omega
    · cases h

theorem mem_of_mem_placed {pieces : List Bytes} {p offset : Nat} {piece : Bytes}
    (h : (offset, piece) ∈ placed p pieces) : piece ∈ pieces := by
  induction pieces generalizing p with
  | nil => cases h
  | cons head rest ih =>
    rcases List.mem_cons.1 h with h | h
    · cases h
      exact List.mem_cons_self
    · exact List.mem_cons_of_mem _ (ih h)

theorem exists_line_of_mem_onward (hds : ds ≠ []) {offset : Nat} {piece : Bytes}
    (h : (offset, piece) ∈ onward (bytesOf ds) (bytesOf cs) 0) : ∃ line, piece = bytesOf line :=
  exists_line_of_mem_ofBytes hds (mem_of_mem_placed h)

end Text

/-! ## records -/

namespace Delimiter

open Text

variable {delimiter : Delimiter}

theorem exists_bytes_eq {overrides : Overrides} (h : ofOverrides overrides = .ok delimiter) :
    ∃ ds, ds ≠ [] ∧ delimiter.bytes = bytesOf ds := by
  unfold ofOverrides at h
  split at h
  · cases h
    exact ⟨['\n'], List.cons_ne_nil _ _, rfl⟩
  · split at h
    · cases h
    · rename_i text _ hne
      cases h
      refine ⟨text.toList, fun hnil => hne ?_, Utf8.encode_eq_flatMap text⟩
      rw [String.isEmpty_iff, ← String.ofList_toList (s := text), hnil]

theorem record_custom (before bytes : Bytes) :
    (custom bytes).record (before ++ bytes) = before := by
  have hsuf : (custom bytes).bytes.isSuffixOf (before ++ bytes) = true :=
    List.isSuffixOf_iff_suffix.2 (List.suffix_append before bytes)
  have hstrip : (custom bytes).strip (before ++ bytes).reverse = before.reverse := by
    show (before ++ bytes).reverse.drop bytes.length = _
    rw [List.reverse_append, List.drop_left' List.length_reverse]
  unfold record
  rw [if_pos hsuf, hstrip, List.reverse_reverse]

/-- A line that is a text is a text without its delimiter. -/
theorem exists_record {ds : List Char} (hds : ds ≠ []) (hbytes : delimiter.bytes = bytesOf ds)
    (line : List Char) : ∃ body, delimiter.record (bytesOf line) = bytesOf body := by
  cases delimiter with
  | newline => exact ⟨body line, LineText.record_bytesOf line⟩
  | custom bytes =>
    change bytes = bytesOf ds at hbytes
    subst hbytes
    by_cases hsuf : bytesOf ds <:+ bytesOf line
    · have hoc := LineCursor.occurs_of_suffix hsuf []
      rw [List.append_nil] at hoc
      obtain ⟨before, after, rfl, hlength⟩ := exists_of_occurs hds hoc
      have hafter : bytesOf after = [] := by
        rw [bytesOf_append, bytesOf_append, List.length_append, List.length_append] at hlength
        exact List.length_eq_zero_iff.1 (by omega)
      refine ⟨before, ?_⟩
      rw [bytesOf_append, hafter, List.append_nil, bytesOf_append, record_custom]
    · refine ⟨line, if_neg fun h => hsuf (List.isSuffixOf_iff_suffix.1 h)⟩

/-- the text of a piece, without the delimiter that ends it -/
def line (delimiter : Delimiter) (piece : Bytes) : String :=
  (Utf8.decode (delimiter.record piece)).toOption.getD ""

/-- **A piece that is a text is answered as a record.** -/
theorem answer_of_text {ds : List Char} (hds : ds ≠ []) (hbytes : delimiter.bytes = bytesOf ds)
    (offset : Nat) (cs : List Char) : delimiter.answer (offset, bytesOf cs) =
      .ok ⟨.long offset.toUInt64, .text (delimiter.line (bytesOf cs))⟩ := by
  obtain ⟨body, hbody⟩ := exists_record hds hbytes cs
  have hdecode : Utf8.decode (bytesOf body) = .ok (String.ofList body) :=
    Utf8.decode_eq_ok_iff.2 (encode_ofList body).symm
  unfold answer LineCursor.pairOf line
  rw [hbody, hdecode]
  rfl

end Delimiter

end Splittable
