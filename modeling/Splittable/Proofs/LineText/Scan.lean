import Splittable.LineText.Cursor
import Splittable.Proofs.LineText.Pieces

/-!
# Scanning an open file

What a scan takes from a file is the first piece of the bytes ahead, however the file's buffer
cuts them.

* `OpenFile.ahead`          the bytes that are left to take;
* `LineCursor.scan_eq`      a scan takes the first piece;
* `Delimiter.record`        a piece without its delimiter;
* `LineCursor.readRecord_eq`   the record that is read.
-/

namespace Splittable

/-! ## open files -/

/-- the bytes that are left to take -/
def OpenFile.ahead (bytes : ByteArray) (file : OpenFile) : Bytes :=
  file.pending ++ bytes.data.toList.drop file.offset

theorem OpenFile.remaining_eq (bytes : ByteArray) (file : OpenFile) :
    file.remaining bytes = (file.ahead bytes).length := by
  unfold remaining ahead
  rw [List.length_append, List.length_drop, Array.length_toList, ByteArray.size_data]

theorem OpenFile.extract_eq (bytes : ByteArray) (offset count : Nat) :
    (bytes.extract offset (offset + count)).data.toList =
      (bytes.data.toList.drop offset).take count := by
  rw [ByteArray.data_extract, Array.toList_extract, List.extract_eq_take_drop,
    Nat.add_sub_cancel_left]

theorem OpenFile.next_of_nil {bytes : ByteArray} {file : OpenFile}
    (h : file.ahead bytes = []) : file.next bytes = (none, file) := by
  obtain ⟨hp, hd⟩ := List.append_eq_nil_iff.1 h
  unfold next
  rw [hp]
  dsimp only
  rw [extract_eq, hd, List.take_nil]

theorem OpenFile.next_of_cons {bytes : ByteArray} {file : OpenFile} {b : UInt8} {rest : Bytes}
    (h : file.ahead bytes = b :: rest) :
    ∃ file', file.next bytes = (some b, file') ∧ file'.ahead bytes = rest ∧
      file'.node = file.node := by
  unfold next
  unfold ahead at h
  cases hp : file.pending with
  | cons c pending =>
    rw [hp, List.cons_append] at h
    obtain ⟨rfl, hrest⟩ := List.cons.inj h
    exact ⟨_, rfl, hrest, rfl⟩
  | nil =>
    rw [hp, List.nil_append] at h
    have hbuf : (bytes.extract file.offset (file.offset + bufferSize)).data.toList =
        b :: rest.take (bufferSize - 1) := by
      rw [extract_eq, h]
      rfl
    have hlater : bytes.data.toList.drop (file.offset + 1) = rest := by
      rw [← List.drop_drop, h, List.drop_one, List.tail_cons]
    refine ⟨{ file with
      offset := file.offset + (rest.take (bufferSize - 1)).length + 1
      pending := rest.take (bufferSize - 1) }, ?_, ?_, rfl⟩
    · dsimp only
      rw [hbuf]
    · have e : file.offset + (rest.take (bufferSize - 1)).length + 1 =
          file.offset + 1 + (rest.take (bufferSize - 1)).length := by omega
      show rest.take (bufferSize - 1) ++
        bytes.data.toList.drop (file.offset + (rest.take (bufferSize - 1)).length + 1) = rest
      rw [e, ← List.drop_drop, hlater, List.length_take]
      rcases Nat.le_total (bufferSize - 1) rest.length with hle | hle
      · rw [Nat.min_eq_left hle, List.take_append_drop]
      · rw [Nat.min_eq_right hle, List.take_of_length_le hle, List.drop_length, List.append_nil]

/-! ## scans -/

namespace LineCursor

open Pieces

theorem occurs_of_suffix {d taken : Bytes} (h : d <:+ taken) (rest : Bytes) :
    Occurs d (taken ++ rest) (taken.length - d.length) := by
  obtain ⟨before, rfl⟩ := h
  rw [List.length_append, Nat.add_sub_cancel, List.append_assoc]
  unfold Occurs
  rw [List.drop_left]
  exact List.prefix_append d rest

theorem suffix_of_occurs {d taken rest : Bytes} {i : Nat} (h : Occurs d (taken ++ rest) i)
    (hi : i + d.length = taken.length) : d <:+ taken := by
  obtain ⟨after, h⟩ := h
  have hle : i ≤ taken.length := by omega
  rw [List.drop_append_of_le_length hle] at h
  have hlen : (taken.drop i).length = d.length := by
    rw [List.length_drop]
    omega
  have e : d = taken.drop i := by
    have := congrArg (List.take d.length) h
    rwa [List.take_left, ← hlen, List.take_left] at this
  rw [e]
  exact List.drop_suffix i taken

/-- A scan that has taken some bytes, in which no delimiter ends, goes on to the end of the first
piece. -/
theorem scan_eq {bytes : ByteArray} {d : Bytes} (hd : d ≠ []) {fuel : Nat} {taken : Bytes}
    {file : OpenFile} (hfuel : (file.ahead bytes).length < fuel)
    (hnone : ∀ i, i + d.length ≤ taken.length →
      ¬ Occurs d (taken.reverse ++ file.ahead bytes) i) :
    let found := scan bytes d.reverse fuel taken file
    let all := taken.reverse ++ file.ahead bytes
    found.taken.reverse = all.take (size d all) ∧
      (found.complete = true ↔ ∃ i, Occurs d all i) ∧
      found.file.ahead bytes = all.drop (size d all) ∧ found.file.node = file.node := by
  induction fuel generalizing taken file with
  | zero => exact absurd hfuel (Nat.not_lt_zero _)
  | succ fuel ih =>
    unfold scan
    cases hahead : file.ahead bytes with
    | nil =>
      rw [OpenFile.next_of_nil hahead]
      rw [hahead, List.append_nil] at hnone
      have hno : ∀ i, ¬ Occurs d taken.reverse i := fun i hoc => by
        have := hoc.le_length hd
        rw [List.length_reverse] at this
        exact hnone i this hoc
      dsimp only
      rw [List.append_nil, size_of_none hno, List.take_length, List.drop_length]
      refine ⟨rfl, ?_, hahead, rfl⟩
      exact ⟨fun h => Bool.noConfusion h, fun ⟨i, hoc⟩ => absurd hoc (hno i)⟩
    | cons b rest =>
      obtain ⟨file', hnext, hahead', hnode⟩ := OpenFile.next_of_cons hahead
      rw [hnext]
      have hall : taken.reverse ++ b :: rest = (b :: taken).reverse ++ rest := by
        rw [List.reverse_cons, List.append_assoc, List.singleton_append]
      rw [hahead, hall] at hnone
      dsimp only
      rw [hall]
      -- either the delimiter ends with this byte, and then first here, or it has not ended yet
      by_cases hp : d.reverse.isPrefixOf (b :: taken) = true
      · rw [if_pos hp]
        have hsuf : d <:+ (b :: taken).reverse := by
          rw [← List.reverse_prefix, List.reverse_reverse]
          exact List.isPrefixOf_iff_prefix.1 hp
        have hle : d.length ≤ taken.length + 1 := by
          have := hsuf.length_le
          rwa [List.length_reverse] at this
        have hoc := occurs_of_suffix hsuf rest
        rw [List.length_reverse, List.length_cons] at hoc
        have hsize : size d ((b :: taken).reverse ++ rest) = (b :: taken).reverse.length := by
          rw [size_of_first hoc fun j hj => hnone j (by omega), List.length_reverse,
            List.length_cons]
          omega
        rw [hsize, List.take_left, List.drop_left]
        exact ⟨rfl, ⟨fun _ => ⟨_, hoc⟩, fun _ => rfl⟩, hahead', hnode⟩
      · rw [if_neg hp]
        have hno : ∀ i, i + d.length ≤ (b :: taken).length →
            ¬ Occurs d ((b :: taken).reverse ++ file'.ahead bytes) i := by
          intro i hi hoc
          rw [hahead'] at hoc
          rcases Nat.lt_or_ge (i + d.length) (taken.length + 1) with hlt | hge
          · exact hnone i (Nat.lt_succ_iff.1 hlt) hoc
          · refine hp (List.isPrefixOf_iff_prefix.2 ?_)
            have hsuf := suffix_of_occurs hoc (by
              rw [List.length_reverse]
              exact Nat.le_antisymm hi hge)
            rwa [← List.reverse_prefix, List.reverse_reverse] at hsuf
        have hfuel' : (file'.ahead bytes).length < fuel := by
          rw [hahead, List.length_cons] at hfuel
          rw [hahead']
          omega
        have := ih hfuel' hno
        rw [hahead', hnode] at this
        exact this

end LineCursor

/-! ## records -/

/-- a piece without the delimiter at its end -/
def Delimiter.record (delimiter : Delimiter) (piece : Bytes) : Bytes :=
  if delimiter.bytes.isSuffixOf piece then (delimiter.strip piece.reverse).reverse else piece

namespace LineCursor

open Pieces

theorem suffix_take_size_iff {d bs : Bytes} (hd : d ≠ []) :
    d <:+ bs.take (size d bs) ↔ ∃ i, Occurs d bs i := by
  constructor
  · intro h
    have hoc := occurs_of_suffix h (bs.drop (size d bs))
    rw [List.take_append_drop] at hoc
    exact ⟨_, hoc⟩
  · rintro ⟨k, hk⟩
    rcases first_or_none d bs 0 with ⟨i, _, hoc, hfirst⟩ | hnone
    · have hsize := size_of_first hoc fun j hj => hfirst j (Nat.zero_le j) hj
      have hle := hoc.le_length hd
      have e : bs.take (size d bs) ++ bs.drop (size d bs) = bs := List.take_append_drop _ _
      rw [← e] at hoc
      refine suffix_of_occurs hoc ?_
      rw [List.length_take, hsize]
      omega
    · exact absurd hk (hnone k (Nat.zero_le k))

/-- **A record is the first piece of the bytes ahead.** -/
theorem readRecord_eq {files : FileSystem} {delimiter : Delimiter} (hd : delimiter.bytes ≠ [])
    {file : OpenFile} {bytes : ByteArray} (hbytes : files.contents file.node = .ok bytes) :
    let n := size delimiter.bytes (file.ahead bytes)
    ∃ file', readRecord files delimiter file =
        .ok (delimiter.record ((file.ahead bytes).take n), n, file') ∧
      file'.ahead bytes = (file.ahead bytes).drop n ∧ file'.node = file.node := by
  have hfuel : (file.ahead bytes).length < file.remaining bytes + 1 := by
    rw [OpenFile.remaining_eq]
    exact Nat.lt_succ_self _
  have hno : ∀ i, i + delimiter.bytes.length ≤ ([] : Bytes).length →
      ¬ Occurs delimiter.bytes (([] : Bytes).reverse ++ file.ahead bytes) i := by
    intro i hi _
    have := List.length_pos_iff.2 hd
    rw [List.length_nil] at hi
    omega
  obtain ⟨htaken, hcomplete, hahead, hnode⟩ := scan_eq hd hfuel hno
  rw [List.reverse_nil, List.nil_append] at htaken hcomplete hahead
  refine ⟨_, ?_, hahead, hnode⟩
  unfold readRecord
  rw [hbytes]
  show Except.ok (_, _, _) = _
  have hlen : (scan bytes delimiter.bytes.reverse (file.remaining bytes + 1) [] file).taken.length
      = size delimiter.bytes (file.ahead bytes) := by
    rw [← List.length_reverse, htaken, List.length_take, Nat.min_eq_left size_le]
  rw [hlen]
  congr 2
  unfold Delimiter.record
  rw [← htaken, List.reverse_reverse]
  by_cases hc : (scan bytes delimiter.bytes.reverse (file.remaining bytes + 1) [] file).complete
      = true
  · have hsuf := (suffix_take_size_iff hd).2 (hcomplete.1 hc)
    rw [if_pos hc, if_pos]
    rw [htaken]
    exact List.isSuffixOf_iff_suffix.2 hsuf
  · rw [if_neg hc, if_neg]
    intro hsuf
    rw [htaken] at hsuf
    exact hc (hcomplete.2 ((suffix_take_size_iff hd).1 (List.isSuffixOf_iff_suffix.1 hsuf)))

end LineCursor

end Splittable
