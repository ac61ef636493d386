import Splittable.Split.FileSplit
import Splittable.Proofs.Encoding
import Mathlib.Algebra.Group.Nat.Defs

/-!
# The payload of a file split is exact

A file split and its payload determine each other: what is written is read back, and nothing else is
read.  A payload that ends too early, goes on, announces a path of another length than it has or has
a path that is no text is refused, and not taken for some other split.

* `FileSplit.layout`       the bytes of a file split, field by field;
* `FileSplit.payload_eq_ok_iff`, `ofPayload_eq_ok_iff`   writing and reading by the layout;
* `FileSplit.ofPayload_layout_append`   the layout is read, and what follows it is told as too much;
* `FileSplit.payload_iff_ofPayload`   writing and reading undo each other.
-/

namespace Splittable.FileSplit

/-- the bytes of a file split: the length of the path, the path, the start and the length -/
def layout (split : FileSplit) : Bytes :=
  BigEndian.ofNat 4 (Utf8.encode split.path).length ++ Utf8.encode split.path ++
    BigEndian.ofWord64 split.start ++ BigEndian.ofWord64 split.length

/-- The length of the path can be counted in four bytes. -/
def Counted (split : FileSplit) : Prop := (Utf8.encode split.path).length < UInt32.size

variable {split : FileSplit} {bs rest : Bytes}

theorem payload_eq_ok_iff : split.payload = .ok bs ↔ split.Counted ∧ bs = split.layout := by
  unfold payload Counted
  dsimp only
  split
  · rename_i hlength
    simp [hlength, layout, eq_comm]
  · rename_i hlength
    simp [hlength]

/-- The layout is read, and what follows it is told as too much. -/
theorem ofPayload_layout_append (h : split.Counted) (rest : Bytes) :
    ofPayload (split.layout ++ rest) =
      if rest = [] then .ok split else .error (.trailing rest.length) := by
  have hcount := BigEndian.takeWord32?_count h
  have hpath := BigEndian.take?_count h
  rw [layout, List.append_assoc, List.append_assoc, List.append_assoc]
  simp only [ofPayload, hcount, hpath, Utf8.decode_encode, BigEndian.takeWord64?_ofWord64]
  cases rest with
  | nil => rfl
  | cons b rest => rfl

/-- **Only the layout of a split is read**, field by field. -/
theorem ofPayload_eq_ok_iff : ofPayload bs = .ok split ↔ split.Counted ∧ bs = split.layout := by
  constructor
  · intro h
    unfold ofPayload at h
    split at h
    · cases h
    rename_i count afterCount hcount
    split at h
    · cases h
    rename_i path afterPath hpath
    split at h
    · cases h
    rename_i text htext
    split at h
    · cases h
    rename_i start afterStart hstart
    split at h
    · cases h
    · rename_i length hlength
      cases h
      obtain ⟨hpathLength, rfl⟩ := BigEndian.take?_eq_some_iff.1 hpath
      rw [Utf8.decode_eq_ok_iff.1 htext] at hpathLength hcount
      refine ⟨?_, ?_⟩
      · show (Utf8.encode text).length < UInt32.size
        rw [hpathLength]
        exact count.toNat_lt
      · rw [BigEndian.takeWord32?_eq_some_iff.1 hcount,
          BigEndian.takeWord64?_eq_some_iff.1 hstart, BigEndian.takeWord64?_eq_some_iff.1 hlength]
        simp only [layout, hpathLength, List.append_nil, List.append_assoc]
        rfl
    · cases h
  · rintro ⟨hcounted, rfl⟩
    have hread := ofPayload_layout_append hcounted []
    rwa [List.append_nil, if_pos rfl] at hread

/-- **A file split is made again from its payload.** -/
theorem ofPayload_of_payload {payload : Bytes} (h : split.payload = .ok payload) :
    ofPayload payload = .ok split :=
  ofPayload_eq_ok_iff.2 (payload_eq_ok_iff.1 h)

/-! ## what is refused -/

/-- What follows a payload is told as too much. -/
theorem refused_longer (h : ofPayload bs = .ok split) (hrest : rest ≠ []) :
    ofPayload (bs ++ rest) = .error (.trailing rest.length) := by
  obtain ⟨hcounted, rfl⟩ := ofPayload_eq_ok_iff.1 h
  rw [ofPayload_layout_append hcounted, if_neg hrest]

/-- The length of a path is announced as it is. -/
theorem refused_count {count : UInt32} (hcount : BigEndian.takeWord32? bs = some (count, rest))
    (hlength : count.toNat + 16 ≠ rest.length) : ∃ flaw, ofPayload bs = .error flaw := by
  refine refused_iff.2 fun split hsplit => hlength ?_
  obtain ⟨hcounted, hlayout⟩ := ofPayload_eq_ok_iff.1 hsplit
  have hfront := BigEndian.takeWord32?_count hcounted (Utf8.encode split.path ++
    (BigEndian.ofWord64 split.start ++ BigEndian.ofWord64 split.length))
  rw [hlayout, layout, List.append_assoc, List.append_assoc, hfront] at hcount
  cases hcount
  have hsame : (Utf8.encode split.path).length.toUInt32.toNat = (Utf8.encode split.path).length :=
    Nat.mod_eq_of_lt hcounted
  rw [hsame]
  simp only [BigEndian.ofWord64, List.length_append, BigEndian.length_ofNat]

/-- A path that is no text is refused for what is wrong with it. -/
theorem refused_path {path : Bytes} {flaw : Utf8.Flaw} (hpath : Utf8.decode path = .error flaw)
    (hlength : path.length < UInt32.size) (rest : Bytes) :
    ofPayload (BigEndian.ofNat 4 path.length ++ path ++ rest) = .error (.notText flaw) := by
  rw [List.append_assoc]
  simp only [ofPayload, BigEndian.takeWord32?_count hlength, BigEndian.take?_count hlength, hpath]

/-- **A file split and its payload determine each other.**  A split has a payload where four bytes
can count its path, and every other byte sequence is refused: one that ends too early, one that
goes on, one that announces another length and one whose path is no text. -/
theorem payload_iff_ofPayload (split : FileSplit) (bs : Bytes) :
    (split.payload = .ok bs ↔ ofPayload bs = .ok split) ∧
    ((∃ payload, split.payload = .ok payload) ↔ (Utf8.encode split.path).length ≤ 2 ^ 32 - 1) ∧
    ((∃ flaw, ofPayload bs = .error flaw) ↔ ∀ other : FileSplit, other.payload ≠ .ok bs) ∧
    (∀ front rest, bs = front ++ rest → rest ≠ [] → split.payload = .ok bs →
      ∃ flaw, ofPayload front = .error flaw) ∧
    (∀ rest, rest ≠ [] → split.payload = .ok bs →
      ofPayload (bs ++ rest) = .error (.trailing rest.length)) ∧
    (∀ count rest, BigEndian.takeWord32? bs = some (count, rest) →
      count.toNat + 16 ≠ rest.length → ∃ flaw, ofPayload bs = .error flaw) ∧
    (∀ path flaw rest, Utf8.decode path = .error flaw → path.length < UInt32.size →
      ofPayload (BigEndian.ofNat 4 path.length ++ path ++ rest) = .error (.notText flaw)) := by
  refine ⟨payload_eq_ok_iff.trans ofPayload_eq_ok_iff.symm, ?_, ?_, ?_, ?_,
    fun _ _ => refused_count, fun _ _ rest hpath hlength => refused_path hpath hlength rest⟩
  · simp only [payload_eq_ok_iff, exists_and_left, exists_eq, and_true]
    exact Nat.lt_succ_iff
  · rw [refused_iff]
    exact forall_congr' fun _ => not_congr (ofPayload_eq_ok_iff.trans payload_eq_ok_iff.symm)
  · rintro front rest rfl hrest hpayload
    refine refused_front (fun other hother => ?_) (ofPayload_of_payload hpayload)
    exact ⟨_, refused_longer hother hrest⟩
  · intro rest hrest hpayload
    exact refused_longer (ofPayload_of_payload hpayload) hrest

end Splittable.FileSplit
