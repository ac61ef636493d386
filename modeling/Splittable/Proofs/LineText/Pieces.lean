import Splittable.LineText.Delimiter
import Mathlib.Data.Nat.Find

/-!
# Bytes cut behind a delimiter

A byte sequence is cut behind each occurrence of a delimiter, from left to right, and no byte
counts for two occurrences.

* `Pieces.Occurs`      the delimiter begins at a place;
* `Pieces.size`        how many bytes the first piece has;
* `Pieces.ofBytes`, `Pieces.onward`   all pieces, and those from an offset on with their offsets;
* `Pieces.Apart`, `Pieces.Unbordered`   no two occurrences overlap, in one sequence or in any;
* `Pieces.dropWhile_onward`   where occurrences do not overlap, a search that starts in the middle
  of the bytes finds the same pieces.
-/

namespace Splittable.Pieces

/-- the delimiter `d` begins at place `i` of `bs` -/
def Occurs (d bs : Bytes) (i : Nat) : Prop := d <+: bs.drop i

/-- the size of the first piece: up to the end of the first delimiter, or of the bytes -/
def size (d : Bytes) : Bytes → Nat
  | [] => 0
  | b :: bs => if d.isPrefixOf (b :: bs) then d.length else size d bs + 1

variable {d bs : Bytes} {i p : Nat}

theorem occurs_drop : Occurs d (bs.drop p) i ↔ Occurs d bs (p + i) := by
  unfold Occurs
  rw [List.drop_drop]

theorem occurs_cons {b : UInt8} : Occurs d (b :: bs) (i + 1) ↔ Occurs d bs i := by
  unfold Occurs
  rw [List.drop_succ_cons]

theorem Occurs.le_length (hd : d ≠ []) (h : Occurs d bs i) : i + d.length ≤ bs.length := by
  have hle : d.length ≤ (bs.drop i).length := h.length_le
  have hpos : 0 < d.length := List.length_pos_iff.2 hd
  rw [List.length_drop] at hle
  omega

theorem size_le : size d bs ≤ bs.length := by
  induction bs with
  | nil => exact Nat.le_refl 0
  | cons b bs ih =>
    unfold size
    split
    · rename_i h
      exact (List.isPrefixOf_iff_prefix.1 h).length_le
    · exact Nat.succ_le_succ ih

/-- the first occurrence ends the first piece -/
theorem size_of_first (h : Occurs d bs i) (hfirst : ∀ j < i, ¬ Occurs d bs j) :
    size d bs = i + d.length := by
  induction bs generalizing i with
  | nil =>
    have hnil : d = [] := by simpa [Occurs] using h
    have hi : i = 0 := by
      by_contra hne
      exact hfirst 0 (Nat.pos_of_ne_zero hne) (by simp [Occurs, hnil])
    rw [hi, hnil]
    rfl
  | cons b bs ih =>
    unfold size
    cases i with
    | zero =>
      have hp : d.isPrefixOf (b :: bs) = true := List.isPrefixOf_iff_prefix.2 h
      rw [if_pos hp, Nat.zero_add]
    | succ i =>
      have hp : ¬ d.isPrefixOf (b :: bs) = true := fun hp =>
        hfirst 0 (Nat.succ_pos i) (List.isPrefixOf_iff_prefix.1 hp)
      rw [if_neg hp, ih (occurs_cons.1 h) fun j hj hoc =>
        hfirst (j + 1) (Nat.succ_lt_succ hj) (occurs_cons.2 hoc)]
      omega

theorem size_of_none (h : ∀ j, ¬ Occurs d bs j) : size d bs = bs.length := by
  induction bs with
  | nil => rfl
  | cons b bs ih =>
    unfold size
    have hp : ¬ d.isPrefixOf (b :: bs) = true := fun hp =>
      h 0 (List.isPrefixOf_iff_prefix.1 hp)
    rw [if_neg hp, ih fun j hoc => h (j + 1) (occurs_cons.2 hoc), List.length_cons]

theorem size_pos (hd : d ≠ []) (hbs : bs ≠ []) : 0 < size d bs := by
  cases bs with
  | nil => exact absurd rfl hbs
  | cons b bs =>
    unfold size
    split
    · exact List.length_pos_iff.2 hd
    · exact Nat.succ_pos _

theorem size_drop_pos (hd : d ≠ []) (hp : p < bs.length) : 0 < size d (bs.drop p) :=
  size_pos hd fun h => Nat.not_le_of_lt hp (List.drop_eq_nil_iff.1 h)

/-- There is a first occurrence from a place on, or there is none. -/
theorem first_or_none (d bs : Bytes) (p : Nat) :
    (∃ i, p ≤ i ∧ Occurs d bs i ∧ ∀ j, p ≤ j → j < i → ¬ Occurs d bs j) ∨
      ∀ j, p ≤ j → ¬ Occurs d bs j := by
  classical
  by_cases h : ∃ i, p ≤ i ∧ Occurs d bs i
  · obtain ⟨hle, hoc⟩ := Nat.find_spec h
    exact .inl ⟨Nat.find h, hle, hoc, fun j hpj hj hocj => Nat.find_min h hj ⟨hpj, hocj⟩⟩
  · exact .inr fun j hpj hoc => h ⟨j, hpj, hoc⟩

theorem add_size_of_first (hp : p ≤ i) (h : Occurs d bs i)
    (hfirst : ∀ j, p ≤ j → j < i → ¬ Occurs d bs j) :
    p + size d (bs.drop p) = i + d.length := by
  have hoc : Occurs d (bs.drop p) (i - p) := by
    rw [occurs_drop, Nat.add_sub_cancel' hp]
    exact h
  rw [size_of_first hoc fun j hj hocj =>
    hfirst (p + j) (Nat.le_add_right p j) (by omega) (occurs_drop.1 hocj)]
  omega

theorem add_size_of_none (hp : p ≤ bs.length) (h : ∀ j, p ≤ j → ¬ Occurs d bs j) :
    p + size d (bs.drop p) = bs.length := by
  rw [size_of_none fun j hoc => h (p + j) (Nat.le_add_right p j) (occurs_drop.1 hoc),
    List.length_drop]
  omega

/-! ## all pieces -/

/-- the pieces of a byte sequence, each with the delimiter that ends it -/
def ofBytes (d bs : Bytes) : List Bytes :=
  if 0 < size d bs then bs.take (size d bs) :: ofBytes d (bs.drop (size d bs)) else []
termination_by bs.length
decreasing_by
  have : size d bs ≤ bs.length := size_le
  rw [List.length_drop]
  omega

/-- pieces that follow one another, with their offsets -/
def placed : Nat → List Bytes → List (Nat × Bytes)
  | _, [] => []
  | offset, piece :: rest => (offset, piece) :: placed (offset + piece.length) rest

/-- the pieces from an offset on -/
def onward (d bs : Bytes) (p : Nat) : List (Nat × Bytes) := placed p (ofBytes d (bs.drop p))

theorem onward_of_lt (hd : d ≠ []) (hp : p < bs.length) :
    onward d bs p = (p, (bs.drop p).take (size d (bs.drop p))) ::
      onward d bs (p + size d (bs.drop p)) := by
  have hle : size d (bs.drop p) ≤ (bs.drop p).length := size_le
  unfold onward
  rw [ofBytes, if_pos (size_drop_pos hd hp), placed, List.length_take, Nat.min_eq_left hle,
    List.drop_drop]

theorem onward_of_le (hp : bs.length ≤ p) : onward d bs p = [] := by
  unfold onward
  rw [List.drop_eq_nil_of_le hp, ofBytes]
  rfl

/-- A piece begins where the bytes begin, behind a delimiter, or nowhere. -/
def Boundary (d bs : Bytes) (p : Nat) : Prop :=
  p = 0 ∨ bs.length ≤ p ∨ ∃ i, Occurs d bs i ∧ i + d.length = p

theorem boundary_add_size (p : Nat) (hp : p ≤ bs.length) :
    Boundary d bs (p + size d (bs.drop p)) := by
  rcases first_or_none d bs p with ⟨i, hpi, hoc, hfirst⟩ | hnone
  · exact .inr (.inr ⟨i, hoc, (add_size_of_first hpi hoc hfirst).symm⟩)
  · exact .inr (.inl (Nat.le_of_eq (add_size_of_none hp hnone).symm))

theorem fst_of_mem_onward (hd : d ≠ []) {o : Nat} {piece : Bytes}
    (h : (o, piece) ∈ onward d bs p) : p ≤ o ∧ o < bs.length := by
  induction hn : bs.length - p using Nat.strong_induction_on generalizing p with
  | _ n ih =>
    by_cases hp : p < bs.length
    · rw [onward_of_lt hd hp] at h
      rcases List.mem_cons.1 h with h | h
      · cases h
        exact ⟨Nat.le_refl _, hp⟩
      · have hpos : 0 < size d (bs.drop p) := size_drop_pos hd hp
        have := ih _ (by omega) h rfl
        omega
    · rw [onward_of_le (Nat.le_of_not_lt hp)] at h
      cases h

/-! ## occurrences that do not overlap -/

/-- no two occurrences overlap -/
def Apart (d bs : Bytes) : Prop :=
  ∀ i j, Occurs d bs i → Occurs d bs j → i < j → i + d.length ≤ j

/-- no part of the beginning is the end, other than all of it -/
def Unbordered (d : Bytes) : Prop :=
  ∀ k, 0 < k → k < d.length → d.take k ≠ d.drop (d.length - k)

theorem Unbordered.apart (h : Unbordered d) (bs : Bytes) : Apart d bs := by
  intro i j ⟨r, hi⟩ hj hij
  by_contra hlt
  have hlt : j < i + d.length := Nat.lt_of_not_le hlt
  obtain ⟨r', hj⟩ := hj
  have e : d.drop (j - i) ++ r = d ++ r' := by
    rw [hj, ← List.drop_append_of_le_length (by omega), hi, List.drop_drop]
    congr 1
    omega
  refine h (i + d.length - j) (by omega) (by omega) ?_
  have hlen : (d.drop (j - i)).length = i + d.length - j := by
    rw [List.length_drop]
    omega
  have hk : d.length - (i + d.length - j) = j - i := by omega
  calc d.take (i + d.length - j)
      = (d ++ r').take (i + d.length - j) := by
        rw [List.take_append_of_le_length (by omega)]
    _ = (d.drop (j - i) ++ r).take (d.drop (j - i)).length := by rw [e, hlen]
    _ = d.drop (d.length - (i + d.length - j)) := by rw [List.take_left, hk]

/-- A search from `seek` on sees the delimiters that end behind `start`, and no others. -/
structure Sees (d bs : Bytes) (start seek : Nat) : Prop where
  le : seek ≤ start
  iff : ∀ i, Occurs d bs i → (seek ≤ i ↔ start < i + d.length)

/-- where a search from `seek` on ends, if `p` is the last boundary up to `start` -/
theorem add_size_eq_of_sees (hapart : Apart d bs) {start seek : Nat}
    (hsees : Sees d bs start seek) (hb : Boundary d bs p) (hlen : p < bs.length) (hp : p ≤ start)
    (hq : start < p + size d (bs.drop p)) :
    seek + size d (bs.drop seek) = p + size d (bs.drop p) := by
  -- an occurrence that the search sees cannot begin before `p`: it would overlap the one there
  have hfrom : ∀ j, seek ≤ j → Occurs d bs j → p ≤ j := by
    intro j hj hoc
    have hend := (hsees.iff j hoc).1 hj
    by_contra hjp
    rcases hb with h0 | hl | ⟨k, hk, hkp⟩
    · omega
    · omega
    · have := hapart k j hk hoc (by omega)
      omega
  rcases first_or_none d bs p with ⟨i, hpi, hoc, hfirst⟩ | hnone
  · rw [add_size_of_first hpi hoc hfirst] at hq ⊢
    refine add_size_of_first ((hsees.iff i hoc).2 hq) hoc fun j hj hji hocj => ?_
    exact hfirst j (hfrom j hj hocj) hji hocj
  · rw [add_size_of_none (Nat.le_of_lt hlen) hnone] at hq ⊢
    have hseek : seek ≤ bs.length := Nat.le_trans hsees.le (Nat.le_of_lt hq)
    exact add_size_of_none hseek fun j hj hoc => hnone j (hfrom j hj hoc) hoc

/-- **A search in the middle finds the pieces that begin behind `start`.** -/
theorem dropWhile_onward (hd : d ≠ []) (hapart : Apart d bs) {start seek : Nat}
    (hsees : Sees d bs start seek) (hb : Boundary d bs p) (hp : p ≤ start) :
    (onward d bs p).dropWhile (fun r => decide (r.1 ≤ start)) =
      onward d bs (seek + size d (bs.drop seek)) := by
  -- piece by piece, until the next boundary lies behind `start`; the search ends at that one
  induction hn : bs.length - p using Nat.strong_induction_on generalizing p with
  | _ n ih =>
    by_cases hlen : p < bs.length
    · have hpos : 0 < size d (bs.drop p) := size_drop_pos hd hlen
      rw [onward_of_lt hd hlen, List.dropWhile_cons_of_pos (by simpa using hp)]
      by_cases hq : p + size d (bs.drop p) ≤ start
      · exact ih _ (by omega) (boundary_add_size p (Nat.le_of_lt hlen)) hq rfl
      · have hq : start < p + size d (bs.drop p) := Nat.lt_of_not_le hq
        rw [add_size_eq_of_sees hapart hsees hb hlen hp hq]
        by_cases hlen' : p + size d (bs.drop p) < bs.length
        · rw [onward_of_lt hd hlen', List.dropWhile_cons_of_neg (by simpa using hq)]
        · rw [onward_of_le (Nat.le_of_not_lt hlen')]
          rfl
    · have hnone : ∀ j, seek ≤ j → ¬ Occurs d bs j := fun j hj hoc => by
        have h1 := (hsees.iff j hoc).1 hj
        have h2 := hoc.le_length hd
        omega
      rw [onward_of_le (Nat.le_of_not_lt hlen), onward_of_le]
      · rfl
      · by_cases hseek : seek ≤ bs.length
        · exact Nat.le_of_eq (add_size_of_none hseek hnone).symm
        · omega

end Splittable.Pieces
