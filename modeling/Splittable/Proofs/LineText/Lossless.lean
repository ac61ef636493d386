import Splittable.Proofs.LineText.Characters
import Splittable.Proofs.LineText.Partition

/-!
# Reading a text between delimiters

With a delimiter that is a text, the records of a file of text are what stands between the
delimiters, each found as soon as it can be.  Nothing but the delimiters is missing from them.

* `Text.Cut`              a text cut at the leftmost delimiters that do not overlap;
* `Text.exists_cut`       every text is cut, and its pieces are the parts with their delimiters;
* `Text.delimitedPairs`   parts that follow one another, each at its offset in bytes;
* `LineText.reads_cut`    the records of a whole file.
-/

namespace Splittable

namespace Text

open Pieces

/-- A text is its parts, each with the delimiter behind it, and at its end perhaps a part that no
delimiter follows. -/
structure Cut (d cs : List Char) (parts : List (List Char)) (last : Option (List Char)) :
    Prop where
  whole : cs = (parts.flatMap fun part => part ++ d) ++ last.getD []
  free : ∀ part ∈ parts ++ last.toList, ¬d <:+: part
  /-- no delimiter begins before the one that ends a part -/
  leftmost : ∀ part ∈ parts, ∀ before after, part ++ d = before ++ d ++ after → after = []
  last_ne_nil : last ≠ some []

/-- parts that follow one another with a delimiter between them: the offset of each, and its
text -/
def delimitedPairs (d : List Char) : Nat → List (List Char) → List Pair
  | _, [] => []
  | offset, part :: rest =>
    ⟨.long offset.toUInt64, .text (String.ofList part)⟩ ::
      delimitedPairs d (offset + (bytesOf part).length + (bytesOf d).length) rest

variable {ds cs : List Char}

/-- A text without characters cannot be cut. -/
theorem Cut.nil_iff {parts : List (List Char)} {last : Option (List Char)} (hds : ds ≠ [])
    (h : Cut ds cs parts last) : cs = [] ↔ parts = [] ∧ last = none := by
  rw [h.whole, List.append_eq_nil_iff]
  constructor
  · rintro ⟨hparts, hlast⟩
    constructor
    · cases parts with
      | nil => rfl
      | cons part parts =>
        rw [List.flatMap_cons, List.append_eq_nil_iff, List.append_eq_nil_iff] at hparts
        exact absurd hparts.1.2 hds
    · cases last with
      | none => rfl
      | some part => exact absurd (congrArg some hlast) h.last_ne_nil
  · rintro ⟨rfl, rfl⟩
    exact ⟨rfl, rfl⟩

theorem occurs_bytesOf (ds before after : List Char) :
    Occurs (bytesOf ds) (bytesOf (before ++ ds ++ after)) (bytesOf before).length := by
  unfold Occurs
  rw [bytesOf_append, bytesOf_append, List.append_assoc, List.drop_left]
  exact List.prefix_append _ _

theorem eq_nil_of_length_bytesOf {after : List Char} (h : (bytesOf after).length = 0) :
    after = [] := by
  by_contra hne
  exact bytesOf_ne_nil hne (List.length_eq_zero_iff.1 h)

/-- What stands before the first delimiter has no delimiter, and none begins in it. -/
theorem of_first {before after : List Char} (hds : ds ≠ [])
    (hfirst : ∀ j < (bytesOf before).length,
      ¬Occurs (bytesOf ds) (bytesOf (before ++ ds ++ after)) j) :
    (∀ x y, before ++ ds = x ++ ds ++ y → y = []) ∧ ¬ds <:+: before := by
  have hleftmost : ∀ x y, before ++ ds = x ++ ds ++ y → y = [] := by
    intro x y h
    have hlength := congrArg (fun cs => (bytesOf cs).length) h
    simp only [bytesOf_append, List.length_append] at hlength
    have hoc := occurs_bytesOf ds x (y ++ after)
    rw [← List.append_assoc, ← h] at hoc
    refine eq_nil_of_length_bytesOf ?_
    by_contra hy
    exact hfirst _ (by omega) hoc
  refine ⟨hleftmost, ?_⟩
  rintro ⟨x, y, rfl⟩
  have hnil := hleftmost x (y ++ ds) (by simp only [List.append_assoc])
  exact hds (List.append_eq_nil_iff.1 hnil).2

/-- **Every text is cut**, and its pieces are the parts with their delimiters. -/
theorem exists_cut (hds : ds ≠ []) (cs : List Char) :
    ∃ parts last, Cut ds cs parts last ∧ ofBytes (bytesOf ds) (bytesOf cs) =
      (parts.map fun part => bytesOf (part ++ ds)) ++ last.toList.map bytesOf := by
  induction hn : cs.length using Nat.strong_induction_on generalizing cs with
  | _ n ih =>
    by_cases hcs : cs = []
    · subst hcs
      refine ⟨[], none, ⟨rfl, (fun _ h => nomatch h), (fun _ h => nomatch h), nofun⟩, ?_⟩
      rw [ofBytes]
      rfl
    have hpos : 0 < size (bytesOf ds) (bytesOf cs) :=
      size_pos (bytesOf_ne_nil hds) (bytesOf_ne_nil hcs)
    rw [ofBytes, if_pos hpos]
    rcases first_or_none (bytesOf ds) (bytesOf cs) 0 with ⟨i, -, hoc, hfirst⟩ | hnone
    · -- the first piece ends with the first delimiter, and the rest is shorter
      obtain ⟨before, after, rfl, rfl⟩ := exists_of_occurs hds hoc
      have hfirst := fun j hj => hfirst j (Nat.zero_le j) hj
      obtain ⟨hleftmost, hfree⟩ := of_first hds hfirst
      have hdpos := List.length_pos_iff.2 hds
      obtain ⟨parts, last, hcut, hrest⟩ := ih after.length (by
        rw [← hn, List.length_append, List.length_append]
        omega) after rfl
      have hsize : size (bytesOf ds) (bytesOf (before ++ ds ++ after)) =
          (bytesOf (before ++ ds)).length := by
        rw [size_of_first hoc hfirst, bytesOf_append, List.length_append]
      refine ⟨before :: parts, last, ⟨?_, ?_, ?_, hcut.last_ne_nil⟩, ?_⟩
      · rw [List.flatMap_cons, List.append_assoc (before ++ ds), ← hcut.whole]
      · rintro part hpart
        rcases List.mem_cons.1 hpart with rfl | hpart
        · exact hfree
        · exact hcut.free part hpart
      · rintro part hpart
        rcases List.mem_cons.1 hpart with rfl | hpart
        · exact hleftmost
        · exact hcut.leftmost part hpart
      · rw [hsize, bytesOf_append (before ++ ds), List.take_left, List.drop_left, hrest]
        rfl
    · refine ⟨[], some cs, ⟨rfl, ?_, (fun _ h => nomatch h), ?_⟩, ?_⟩
      · rintro part hpart ⟨x, y, h⟩
        obtain rfl := List.mem_singleton.1 hpart
        refine hnone _ (Nat.zero_le _) (?_ : Occurs _ _ (bytesOf x).length)
        rw [← h]
        exact occurs_bytesOf ds x y
      · exact fun h => hcs (Option.some.inj h)
      · rw [size_of_none fun j => hnone j (Nat.zero_le j), List.take_length, List.drop_length,
          ofBytes]
        rfl

end Text

namespace LineText

open Text Pieces

theorem pairOf_bytesOf (offset : UInt64) (cs : List Char) :
    LineCursor.pairOf offset (bytesOf cs) = .ok ⟨.long offset, .text (String.ofList cs)⟩ := by
  unfold LineCursor.pairOf
  rw [Utf8.decode_eq_ok_iff.2 (encode_ofList cs).symm]

theorem answer_delimited (ds : List Char) (offset : Nat) (part : List Char) :
    (Delimiter.custom (bytesOf ds)).answer (offset, bytesOf (part ++ ds)) =
      .ok ⟨.long offset.toUInt64, .text (String.ofList part)⟩ := by
  unfold Delimiter.answer
  rw [bytesOf_append, Delimiter.record_custom]
  exact pairOf_bytesOf _ part

/-- A part that no delimiter follows is a record as it is. -/
theorem answer_undelimited {ds part : List Char} (hds : ds ≠ []) (h : ¬ds <:+: part)
    (offset : Nat) : (Delimiter.custom (bytesOf ds)).answer (offset, bytesOf part) =
      .ok ⟨.long offset.toUInt64, .text (String.ofList part)⟩ := by
  have hsuffix : ¬bytesOf ds <:+ bytesOf part := by
    intro hsuffix
    have hoc := LineCursor.occurs_of_suffix hsuffix []
    rw [List.append_nil] at hoc
    obtain ⟨before, after, rfl, -⟩ := exists_of_occurs hds hoc
    exact h ⟨before, after, rfl⟩
  have hrecord : (Delimiter.custom (bytesOf ds)).record (bytesOf part) = bytesOf part :=
    if_neg fun h => hsuffix (List.isSuffixOf_iff_suffix.1 h)
  unfold Delimiter.answer
  rw [hrecord]
  exact pairOf_bytesOf _ part

theorem map_answer_cut {ds : List Char} {parts : List (List Char)}
    {last : Option (List Char)} (hds : ds ≠ []) (hlast : ∀ part, last = some part → ¬ds <:+: part)
    (offset : Nat) :
    (placed offset ((parts.map fun part => bytesOf (part ++ ds)) ++
      last.toList.map bytesOf)).map (Delimiter.custom (bytesOf ds)).answer =
        (delimitedPairs ds offset (parts ++ last.toList)).map .ok := by
  induction parts generalizing offset with
  | nil =>
    cases last with
    | none => rfl
    | some part =>
      show [(Delimiter.custom (bytesOf ds)).answer (offset, bytesOf part)] = _
      rw [answer_undelimited hds (hlast part rfl)]
      rfl
  | cons part parts ih =>
    rw [List.map_cons, List.cons_append, placed, List.map_cons, answer_delimited, ih,
      bytesOf_append, List.length_append, ← Nat.add_assoc]
    rfl

/-- **The records of a file of text are the parts between the delimiters**, at their offsets.  Put
together again with the delimiters they are the whole text. -/
theorem reads_cut {files : FileSystem} {overrides : Overrides} {d : String}
    (hfind : overrides.find? Delimiter.overrideKey = some d) (hne : d ≠ "") {path text : String}
    (hholds : files.Holds path (Utf8.encode text)) (interrupt : Flag) :
    ∃ parts last, Cut d.toList text.toList parts last ∧
      Answers files overrides interrupt ⟨path, 0, (Utf8.encode text).length.toUInt64⟩
        ((delimitedPairs d.toList 0 (parts ++ last.toList)).map .ok) ∧
      (text = "" ↔ parts ++ last.toList = []) := by
  have hds : d.toList ≠ [] := fun h => hne (by rw [← String.ofList_toList (s := d), h])
  obtain ⟨parts, last, hcut, hpieces⟩ := exists_cut hds text.toList
  have hanswers := answers_whole (ofOverrides_custom hfind hne) hholds interrupt
  refine ⟨parts, last, hcut, ?_, ?_⟩
  · have hd : Utf8.encode d = bytesOf d.toList := Utf8.encode_eq_flatMap d
    have htext : Utf8.encode text = bytesOf text.toList := Utf8.encode_eq_flatMap text
    rw [← map_answer_cut hds (fun part hpart => hcut.free part (by simp [hpart])) 0, ← hpieces,
      ← hd, ← htext]
    exact hanswers
  · rw [← String.toList_eq_nil_iff, hcut.nil_iff hds]
    cases last <;> simp

/-- overrides that ask for two letters as the delimiter -/
def letters : Overrides := .ofList [(Delimiter.overrideKey, "aa")]

/-- A delimiter that overlaps itself in the text: the first of the two counts. -/
theorem reads_cut_letters :
    letters.find? Delimiter.overrideKey = some "aa" ∧ "aa" ≠ "" ∧
      (FileSystem.single (Utf8.encode "xaaay")).Holds "f" (Utf8.encode "xaaay") ∧
      ∃ parts last, Cut "aa".toList "xaaay".toList parts last ∧
        Answers (FileSystem.single (Utf8.encode "xaaay")) letters ⟨0⟩
          ⟨"f", 0, (Utf8.encode "xaaay").length.toUInt64⟩
          ((delimitedPairs "aa".toList 0 (parts ++ last.toList)).map .ok) ∧
        ("xaaay" = "" ↔ parts ++ last.toList = []) := by
  have hfind : letters.find? Delimiter.overrideKey = some "aa" := by decide
  have hholds : (FileSystem.single (Utf8.encode "xaaay")).Holds "f" (Utf8.encode "xaaay") :=
    FileSystem.holds_single (by decide)
  exact ⟨hfind, by decide, hholds, reads_cut hfind (by decide) hholds ⟨0⟩⟩

end LineText

end Splittable
