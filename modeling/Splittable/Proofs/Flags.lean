import Splittable.Flags

/-!
# Raising one flag

What a flag reads depends on the cells up to its own, so raising a flag is not seen by those that
were there before it.

* `Flags.Agree`           two stores have the same cells below a bound;
* `Flags.isRaised_congr`  flags below the bound read the same in both;
* `Flags.raisedAt_iff`    what a cell reads, by its own mark and by its parent;
* `Flags.isRaised_child`  a new child reads what its parent reads;
* `Flags.isRaised_raise`  a raised flag stays raised.
-/

namespace Splittable.Flags

variable {flags flags' : Flags} {flag : Flag} {n : Nat}

/-- the cells below a bound are the same -/
def Agree (n : Nat) (flags flags' : Flags) : Prop := ∀ i < n, flags.cells[i]? = flags'.cells[i]?

theorem raisedAt_congr {cells cells' : List Cell} {i : Nat}
    (h : ∀ j ≤ i, cells[j]? = cells'[j]?) : raisedAt cells i = raisedAt cells' i := by
  induction i using Nat.strongRecOn with
  | _ i ih =>
    rw [raisedAt, raisedAt, h i (Nat.le_refl i)]
    cases cells'[i]? with
    | none => rfl
    | some cell =>
      dsimp only
      cases cell.parent with
      | none => rfl
      | some parent =>
        dsimp only
        by_cases hparent : parent < i
        · rw [if_pos hparent, if_pos hparent,
            ih parent hparent fun j hj => h j (Nat.le_trans hj (Nat.le_of_lt hparent))]
        · rw [if_neg hparent, if_neg hparent]

/-- A cell reads as raised when it is, or when that of its parent does. -/
theorem raisedAt_iff {cells : List Cell} {i : Nat} : raisedAt cells i = true ↔
    ∃ cell, cells[i]? = some cell ∧
      (cell.raised = true ∨ ∃ p, cell.parent = some p ∧ p < i ∧ raisedAt cells p = true) := by
  rw [raisedAt]
  cases cells[i]? with
  | none => simp
  | some cell =>
    cases hparent : cell.parent with
    | none => simp [hparent]
    | some p =>
      by_cases hlt : p < i
      · simp [hparent, hlt]
      · simp [hparent, hlt]

theorem isRaised_empty (flag : Flag) : empty.isRaised flag = false := by
  unfold isRaised raisedAt
  rfl

theorem isRaised_congr (h : Agree n flags flags') (hflag : flag.cell < n) :
    flags.isRaised flag = flags'.isRaised flag :=
  raisedAt_congr fun j hj => h j (Nat.lt_of_le_of_lt hj hflag)

theorem getElem?_raise (i : Nat) : (flags.raise flag).cells[i]? =
    flags.cells[i]?.map fun cell => if flag.cell = i then { cell with raised := true } else cell :=
  List.getElem?_modify ..

theorem cells_raise_of_ne {i : Nat} (h : i ≠ flag.cell) :
    (flags.raise flag).cells[i]? = flags.cells[i]? := by
  simp [getElem?_raise, Ne.symm h]

theorem length_raise : (flags.raise flag).cells.length = flags.cells.length :=
  List.length_modify ..

theorem agree_child (parent : Flag) :
    Agree flags.cells.length (flags.child parent).2 flags :=
  fun _ hi => List.getElem?_append_left hi

/-- **A new child reads what its parent reads.** -/
theorem isRaised_child {parent : Flag} (hparent : parent.cell < flags.cells.length) :
    (flags.child parent).2.isRaised (flags.child parent).1 = flags.isRaised parent := by
  have hcell : (flags.child parent).2.cells[flags.cells.length]? =
      some ⟨false, some parent.cell⟩ := by
    show (flags.cells ++ [_])[flags.cells.length]? = _
    rw [List.getElem?_append_right (Nat.le_refl _), Nat.sub_self]
    rfl
  show raisedAt (flags.child parent).2.cells flags.cells.length = _
  rw [raisedAt, hcell]
  show (false || if parent.cell < flags.cells.length then _ else false) = _
  rw [if_pos hparent, Bool.false_or]
  exact isRaised_congr (agree_child parent) hparent

/-- **A raised flag stays raised**, whichever flag is raised next. -/
theorem isRaised_raise {other : Flag} (h : flags.isRaised other = true) :
    (flags.raise flag).isRaised other = true := by
  obtain ⟨i⟩ := other
  induction i using Nat.strongRecOn with
  | _ i ih =>
    obtain ⟨cell, hcell, hraised⟩ := raisedAt_iff.1 h
    have hcell' : (flags.raise flag).cells[i]? =
        some (if flag.cell = i then { cell with raised := true } else cell) := by
      rw [getElem?_raise, hcell]
      rfl
    refine raisedAt_iff.2 ⟨_, hcell', ?_⟩
    rcases hraised with hown | ⟨p, hp, hlt, hup⟩
    · left
      split
      · rfl
      · exact hown
    · right
      refine ⟨p, ?_, hlt, ih p hlt hup⟩
      split
      · exact hp
      · exact hp

theorem isRaised_raise_self (h : flag.cell < flags.cells.length) :
    (flags.raise flag).isRaised flag = true := by
  show raisedAt (flags.raise flag).cells flag.cell = true
  rw [raisedAt, getElem?_raise, List.getElem?_eq_getElem h]
  dsimp only [Option.map_some]
  rw [if_pos rfl]
  rfl

end Splittable.Flags
