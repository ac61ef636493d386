import Mathlib.Logic.Relation
import Splittable.Proofs.Flags

/-!
# Families of flags

Flags are made new, as children and as clones of others, and raised, in any order.  Each of these
steps leaves a mark in the store that no later one wipes out, and there are no other marks in it.

* `Family`, `Family.step`, `run`   the flags that are held, and steps on them by number;
* `Taken`, `Shares`, `Ancestor`, `Siblings`   how flags are related, told from the steps;
* `Family.Shows`, `Family.Grows.shows`   the mark of a step, which remains;
* `Traced`, `traced_of_run`   what the store knows of the steps, after every run;
* `exists_run`          steps on flags that were made before them run.
-/

namespace Splittable.Flags

/-! ## steps -/

/-- a step on the flags held so far, which are numbered in the order in which they came -/
inductive Step
  | create
  | child (i : Nat)
  | clone (i : Nat)
  | raise (i : Nat)

/-- The step is on one of the first `k` flags, where it is on one at all. -/
def Step.On : Step → Nat → Prop
  | .create, _ => True
  | .child i, k => i < k
  | .clone i, k => i < k
  | .raise i, k => i < k

/-- a store, and the flags held on it -/
structure Family where
  store : Flags
  held : List Flag

namespace Family

/-- one more flag is held, on the store in which it was made -/
def hold (family : Family) (made : Flag × Flags) : Family := ⟨made.2, family.held ++ [made.1]⟩

def raise (family : Family) (flag : Flag) : Family := ⟨family.store.raise flag, family.held⟩

/-- The flag that a step is on has to be held. -/
def step (family : Family) : Step → Option Family
  | .create => some (family.hold family.store.create)
  | .child i => family.held[i]?.map fun flag => family.hold (family.store.child flag)
  | .clone i => family.held[i]?.map fun flag => family.hold (flag, family.store)
  | .raise i => family.held[i]?.map family.raise

end Family

/-- the flags held after some steps, of which the latest comes first -/
def run : List Step → Option Family
  | [] => some ⟨empty, []⟩
  | step :: past => (run past).bind fun family => family.step step

/-! ## relations between flags -/

/-- the number of flags that some steps made -/
def makings : List Step → Nat
  | [] => 0
  | .raise _ :: past => makings past
  | _ :: past => makings past + 1

/-- The step was taken when `k` flags had been made, so `k` is the number of the flag it made. -/
def Taken (past : List Step) (step : Step) (k : Nat) : Prop :=
  ∃ later earlier, past = later ++ step :: earlier ∧ makings earlier = k

/-- one is a clone of the other, in either direction and over any number of clones -/
def Shares (past : List Step) : Nat → Nat → Prop :=
  Relation.EqvGen fun i k => Taken past (.clone i) k

/-- A flag was made as a child of `a` or of a flag below `a`; clones count as the flag itself. -/
inductive Ancestor (past : List Step) (a : Nat) : Nat → Prop
  | parent {p k i : Nat} (hparent : Shares past a p) (hchild : Taken past (.child p) k)
      (hclone : Shares past k i) : Ancestor past a i
  | above {p k i : Nat} (h : Ancestor past a p) (hchild : Taken past (.child p) k)
      (hclone : Shares past k i) : Ancestor past a i

/-- two children of one flag, or clones of these -/
def Siblings (past : List Step) (i j : Nat) : Prop :=
  ∃ p q k l, k ≠ l ∧ Shares past p q ∧ Taken past (.child p) k ∧ Taken past (.child q) l ∧
    Shares past k i ∧ Shares past l j

variable {past : List Step} {step other : Step} {family family' : Family} {flag : Flag}
  {i j k : Nat}

theorem taken_cons :
    Taken (step :: past) other k ↔ step = other ∧ makings past = k ∨ Taken past other k := by
  constructor
  · rintro ⟨later, earlier, hpast, hk⟩
    cases later with
    | nil =>
      obtain ⟨rfl, rfl⟩ := List.cons.inj hpast
      exact .inl ⟨rfl, hk⟩
    | cons first later =>
      obtain ⟨rfl, rfl⟩ := List.cons.inj hpast
      exact .inr ⟨later, earlier, rfl, hk⟩
  · rintro (⟨rfl, hk⟩ | ⟨later, earlier, rfl, hk⟩)
    · exact ⟨[], past, rfl, hk⟩
    · exact ⟨step :: later, earlier, rfl, hk⟩

theorem not_taken_nil : ¬Taken [] step k := by
  rintro ⟨later, earlier, hpast, -⟩
  simp at hpast

theorem exists_taken_iff : (∃ k, Taken past step k) ↔ step ∈ past := by
  constructor
  · rintro ⟨k, later, earlier, rfl, -⟩
    simp
  · intro h
    obtain ⟨later, earlier, rfl⟩ := List.append_of_mem h
    exact ⟨_, later, earlier, rfl, rfl⟩

theorem Taken.cons (h : Taken past other k) : Taken (step :: past) other k := taken_cons.2 (.inr h)

theorem Shares.cons (h : Shares past i j) : Shares (step :: past) i j :=
  Relation.EqvGen.mono (fun _ _ => Taken.cons) _ _ h

theorem Ancestor.cons (h : Ancestor past i j) : Ancestor (step :: past) i j := by
  induction h with
  | parent hparent hchild hclone => exact .parent hparent.cons hchild.cons hclone.cons
  | above _ hchild hclone ih => exact .above ih hchild.cons hclone.cons

/-! ## marks of the steps -/

namespace Family

/-- The mark of a step: a child has a cell of its own, which names that of its parent, a clone has
the cell of its original, and a raise leaves the cell raised. -/
def Shows (family : Family) : Step → Nat → Prop
  | .create, _ => True
  | .child i, k => ∃ parent flag cell, family.held[i]? = some parent ∧
      family.held[k]? = some flag ∧ family.store.cells[flag.cell]? = some cell ∧
      cell.parent = some parent.cell ∧ ∀ j, family.held[j]? = some flag → k ≤ j
  | .clone i, k => ∃ flag, family.held[i]? = some flag ∧ family.held[k]? = some flag
  | .raise i, _ => ∃ flag cell, family.held[i]? = some flag ∧
      family.store.cells[flag.cell]? = some cell ∧ cell.raised = true

/-- Flags stay where they are held, parents remain and nothing is lowered. -/
structure Grows (family family' : Family) : Prop where
  held : family.held <+: family'.held
  cells : ∀ {c : Nat} {cell : Cell}, family.store.cells[c]? = some cell → ∃ cell' : Cell,
    family'.store.cells[c]? = some cell' ∧ cell'.parent = cell.parent ∧
      (cell.raised = true → cell'.raised = true)

theorem Grows.getElem? (h : Grows family family') (hi : family.held[i]? = some flag) :
    family'.held[i]? = some flag := by
  obtain ⟨more, hmore⟩ := h.held
  have hlt := (List.getElem?_eq_some_iff.1 hi).1
  rw [← hmore, List.getElem?_append_left hlt, hi]

/-- **Marks remain.** -/
theorem Grows.shows (h : Grows family family') (hshows : family.Shows step k) :
    family'.Shows step k := by
  cases step with
  | create => trivial
  | child i =>
    obtain ⟨parent, flag, cell, hi, hk, hcell, hparent, hfirst⟩ := hshows
    obtain ⟨cell', hcell', hsame, -⟩ := h.cells hcell
    refine ⟨parent, flag, cell', h.getElem? hi, h.getElem? hk, hcell', hsame.trans hparent,
      fun j hj => ?_⟩
    obtain ⟨more, hmore⟩ := h.held
    rcases Nat.lt_or_ge j family.held.length with hlt | hge
    · rw [← hmore, List.getElem?_append_left hlt] at hj
      exact hfirst j hj
    · -- later names of the cell have greater numbers
      exact Nat.le_of_lt (Nat.lt_of_lt_of_le (List.getElem?_eq_some_iff.1 hk).1 hge)
  | clone i =>
    obtain ⟨flag, hi, hk⟩ := hshows
    exact ⟨flag, h.getElem? hi, h.getElem? hk⟩
  | raise i =>
    obtain ⟨flag, cell, hi, hcell, hraised⟩ := hshows
    obtain ⟨cell', hcell', -, hstays⟩ := h.cells hcell
    exact ⟨flag, cell', h.getElem? hi, hcell', hstays hraised⟩

theorem grows_hold_add (family : Family) (parent : Option Nat) :
    Grows family (family.hold (family.store.add parent)) where
  held := List.prefix_append ..
  cells {_ cell} hcell :=
    ⟨cell, (List.getElem?_append_left (List.getElem?_eq_some_iff.1 hcell).1).trans hcell, rfl, id⟩

theorem grows_hold_clone (family : Family) (flag : Flag) :
    Grows family (family.hold (flag, family.store)) where
  held := List.prefix_append ..
  cells {_ cell} hcell := ⟨cell, hcell, rfl, id⟩

theorem grows_raise (family : Family) (flag : Flag) : Grows family (family.raise flag) where
  held := List.prefix_rfl
  cells {c cell} hcell := by
    refine ⟨if flag.cell = c then { cell with raised := true } else cell, ?_, ?_, fun h => ?_⟩
    · show (family.store.raise flag).cells[c]? = _
      rw [getElem?_raise, hcell]
      rfl
    · split <;> rfl
    · split
      · rfl
      · exact h

theorem isSome_step : (family.step step).isSome = true ↔ step.On family.held.length := by
  cases step with
  | create => simp [Family.step, Step.On]
  | child i => simp [Family.step, Step.On]
  | clone i => simp [Family.step, Step.On]
  | raise i => simp [Family.step, Step.On]

theorem grows_step (hstep : family.step step = some family') : family.Grows family' := by
  cases step with
  | create =>
    cases hstep
    exact family.grows_hold_add none
  | child i =>
    obtain ⟨flag, -, rfl⟩ := Option.map_eq_some_iff.1 hstep
    exact family.grows_hold_add (some flag.cell)
  | clone i =>
    obtain ⟨flag, -, rfl⟩ := Option.map_eq_some_iff.1 hstep
    exact family.grows_hold_clone flag
  | raise i =>
    obtain ⟨flag, -, rfl⟩ := Option.map_eq_some_iff.1 hstep
    exact family.grows_raise flag

end Family

/-! ## what the store knows -/

theorem getElem?_concat_iff {α : Type} {xs : List α} {x y : α} :
    (xs ++ [x])[i]? = some y ↔ xs[i]? = some y ∨ i = xs.length ∧ x = y := by
  rw [List.getElem?_append, List.getElem?_singleton]
  by_cases hi : i < xs.length
  · rw [if_pos hi]
    exact ⟨.inl, fun h => h.resolve_right fun hnew => Nat.ne_of_lt hi hnew.1⟩
  · have hnone : xs[i]? = none := List.getElem?_eq_none (Nat.le_of_not_lt hi)
    rw [if_neg hi, hnone]
    by_cases hlast : i = xs.length
    · simp [hlast]
    · have hpos : i - xs.length ≠ 0 := by omega
      simp [hlast, hpos]

/-- Every step has left its mark, and what the store holds are marks of the steps. -/
structure Traced (past : List Step) (family : Family) : Prop where
  length_held : family.held.length = makings past
  cell_lt : ∀ {i : Nat} {flag : Flag}, family.held[i]? = some flag →
    flag.cell < family.store.cells.length
  parent_lt : ∀ {c p : Nat} {cell : Cell}, family.store.cells[c]? = some cell →
    cell.parent = some p → p < c
  shows : ∀ {step : Step} {k : Nat}, Taken past step k → family.Shows step k
  shares : ∀ {i j : Nat} {flag : Flag}, family.held[i]? = some flag →
    family.held[j]? = some flag → Shares past i j
  child : ∀ {c p : Nat} {cell : Cell}, family.store.cells[c]? = some cell →
    cell.parent = some p → ∃ i k, Taken past (.child i) k ∧ family.held[i]? = some ⟨p⟩ ∧
      family.held[k]? = some ⟨c⟩
  raise : ∀ {c : Nat} {cell : Cell}, family.store.cells[c]? = some cell → cell.raised = true →
    ∃ i, .raise i ∈ past ∧ family.held[i]? = some ⟨c⟩

namespace Traced

theorem nil : Traced [] ⟨empty, []⟩ where
  length_held := rfl
  cell_lt h := nomatch h
  parent_lt h := nomatch h
  shows h := absurd h not_taken_nil
  shares h := nomatch h
  child h := nomatch h
  raise h := nomatch h

theorem shows_cons (h : Traced past family) (hgrows : family.Grows family')
    (hnow : family'.Shows step (makings past)) (htaken : Taken (step :: past) other k) :
    family'.Shows other k := by
  rcases taken_cons.1 htaken with ⟨rfl, rfl⟩ | hbefore
  · exact hnow
  · exact hgrows.shows (h.shows hbefore)

section
variable (h : Traced past family) (hgrows : family.Grows family') {c : Nat} {cell : Cell}
  (hcell : family.store.cells[c]? = some cell)
include h hgrows hcell

theorem child_cons {p : Nat} (hparent : cell.parent = some p) :
    ∃ i k, Taken (step :: past) (.child i) k ∧ family'.held[i]? = some ⟨p⟩ ∧
      family'.held[k]? = some ⟨c⟩ := by
  obtain ⟨i, k, htaken, hi, hk⟩ := h.child hcell hparent
  exact ⟨i, k, htaken.cons, hgrows.getElem? hi, hgrows.getElem? hk⟩

theorem raise_cons (hraised : cell.raised = true) :
    ∃ i, .raise i ∈ step :: past ∧ family'.held[i]? = some ⟨c⟩ := by
  obtain ⟨i, hmem, hi⟩ := h.raise hcell hraised
  exact ⟨i, List.mem_cons_of_mem _ hmem, hgrows.getElem? hi⟩

end

/-- A new cell has a new number, and no raise fell on it. -/
theorem add (h : Traced past family) {parent : Option Nat}
    (hmakings : makings (step :: past) = makings past + 1)
    (hparent : ∀ p, parent = some p → ∃ i, step = .child i ∧ family.held[i]? = some ⟨p⟩)
    (hstep : (family.hold (family.store.add parent)).Shows step (makings past)) :
    Traced (step :: past) (family.hold (family.store.add parent)) := by
  have hgrows := family.grows_hold_add parent
  -- the flags held so far name other cells, so the new one shares with none of them
  have hnew : ∀ {i : Nat}, family.held[i]? ≠ some (Flag.mk family.store.cells.length) :=
    fun hi => Nat.lt_irrefl _ (h.cell_lt hi)
  refine ⟨?_, ?_, ?_, fun htaken => h.shows_cons hgrows hstep htaken, ?_, ?_, ?_⟩
  · rw [hmakings, ← h.length_held]
    exact List.length_append
  · intro i flag hi
    have hlength : (family.hold (family.store.add parent)).store.cells.length =
        family.store.cells.length + 1 := List.length_append
    rw [hlength]
    rcases getElem?_concat_iff.1 hi with hi | ⟨-, rfl⟩
    · exact Nat.lt_succ_of_lt (h.cell_lt hi)
    · exact Nat.lt_succ_self _
  · intro c p cell hcell hp
    rcases getElem?_concat_iff.1 hcell with hcell | ⟨rfl, rfl⟩
    · exact h.parent_lt hcell hp
    · obtain ⟨i, -, hi⟩ := hparent p hp
      exact h.cell_lt hi
  · intro i j flag hi hj
    rcases getElem?_concat_iff.1 hi with hi | ⟨rfl, rfl⟩
    · rcases getElem?_concat_iff.1 hj with hj | ⟨-, rfl⟩
      · exact (h.shares hi hj).cons
      · exact absurd hi hnew
    · rcases getElem?_concat_iff.1 hj with hj | ⟨rfl, -⟩
      · exact absurd hj hnew
      · exact .refl _
  · intro c p cell hcell hp
    rcases getElem?_concat_iff.1 hcell with hcell | ⟨rfl, rfl⟩
    · exact h.child_cons hgrows hcell hp
    · obtain ⟨i, rfl, hi⟩ := hparent p hp
      exact ⟨i, makings past, taken_cons.2 (.inl ⟨rfl, rfl⟩), hgrows.getElem? hi,
        getElem?_concat_iff.2 (.inr ⟨h.length_held.symm, rfl⟩)⟩
  · intro c cell hcell hraised
    rcases getElem?_concat_iff.1 hcell with hcell | ⟨-, rfl⟩
    · exact h.raise_cons hgrows hcell hraised
    · cases hraised

theorem create (h : Traced past family) :
    Traced (.create :: past) (family.hold family.store.create) :=
  h.add rfl (fun _ hp => nomatch hp) trivial

theorem make_child (h : Traced past family) (hi : family.held[i]? = some flag) :
    Traced (.child i :: past) (family.hold (family.store.child flag)) := by
  refine h.add rfl (fun p hp => ?_) ?_
  · cases hp
    exact ⟨i, rfl, hi⟩
  · have hgrows := family.grows_hold_add (some flag.cell)
    refine ⟨flag, ⟨family.store.cells.length⟩, ⟨false, some flag.cell⟩, hgrows.getElem? hi,
      getElem?_concat_iff.2 (.inr ⟨h.length_held.symm, rfl⟩),
      getElem?_concat_iff.2 (.inr ⟨rfl, rfl⟩), rfl, fun j hj => ?_⟩
    rcases getElem?_concat_iff.1 hj with hj | ⟨rfl, -⟩
    · exact absurd (h.cell_lt hj) (Nat.lt_irrefl _)
    · exact Nat.le_of_eq h.length_held.symm

/-- A clone is one more name of a cell. -/
theorem clone (h : Traced past family) (hi : family.held[i]? = some flag) :
    Traced (.clone i :: past) (family.hold (flag, family.store)) := by
  have hgrows := family.grows_hold_clone flag
  have htaken : Taken (.clone i :: past) (.clone i) family.held.length :=
    taken_cons.2 (.inl ⟨rfl, h.length_held.symm⟩)
  have hsame : ∀ {j}, family.held[j]? = some flag →
      Shares (.clone i :: past) j family.held.length := fun hj =>
    (h.shares hj hi).cons.trans _ _ _ (.rel _ _ htaken)
  refine ⟨?_, ?_, h.parent_lt, fun htaken => h.shows_cons hgrows ?_ htaken, ?_,
    fun hcell hp => h.child_cons hgrows hcell hp,
    fun hcell hraised => h.raise_cons hgrows hcell hraised⟩
  · show _ = makings past + 1
    rw [← h.length_held]
    exact List.length_append
  · intro j flag' hj
    rcases getElem?_concat_iff.1 hj with hj | ⟨-, rfl⟩
    · exact h.cell_lt hj
    · exact h.cell_lt hi
  · exact ⟨flag, hgrows.getElem? hi, getElem?_concat_iff.2 (.inr ⟨h.length_held.symm, rfl⟩)⟩
  · intro j k flag' hj hk
    rcases getElem?_concat_iff.1 hj with hj | ⟨rfl, rfl⟩
    · rcases getElem?_concat_iff.1 hk with hk | ⟨rfl, rfl⟩
      · exact (h.shares hj hk).cons
      · exact hsame hj
    · rcases getElem?_concat_iff.1 hk with hk | ⟨rfl, -⟩
      · exact (hsame hk).symm
      · exact .refl _

/-- A raise changes no parent, and one cell at most is raised by it. -/
theorem make_raise (h : Traced past family) (hi : family.held[i]? = some flag) :
    Traced (.raise i :: past) (family.raise flag) := by
  have hgrows := family.grows_raise flag
  -- every cell was there before, and only that of the flag may not have been raised
  have hback : ∀ {c : Nat} {cell' : Cell}, (family.raise flag).store.cells[c]? = some cell' →
      ∃ cell, family.store.cells[c]? = some cell ∧ cell'.parent = cell.parent ∧
        (cell'.raised = true → flag.cell = c ∨ cell.raised = true) := by
    intro c cell' hcell'
    change (family.store.raise flag).cells[c]? = _ at hcell'
    rw [getElem?_raise, Option.map_eq_some_iff] at hcell'
    obtain ⟨cell, hcell, rfl⟩ := hcell'
    refine ⟨cell, hcell, ?_, fun hraised => ?_⟩
    · split <;> rfl
    · by_cases hc : flag.cell = c
      · exact .inl hc
      · rw [if_neg hc] at hraised
        exact .inr hraised
  refine ⟨h.length_held, ?_, ?_, fun htaken => h.shows_cons hgrows ?_ htaken,
    fun hj hk => (h.shares hj hk).cons, ?_, ?_⟩
  · intro j flag' hj
    exact Nat.lt_of_lt_of_eq (h.cell_lt hj) length_raise.symm
  · intro c p cell' hcell' hp
    obtain ⟨cell, hcell, hparent, -⟩ := hback hcell'
    exact h.parent_lt hcell (hparent ▸ hp)
  · obtain ⟨cell, hcell⟩ : ∃ cell, family.store.cells[flag.cell]? = some cell :=
      ⟨_, List.getElem?_eq_getElem (h.cell_lt hi)⟩
    refine ⟨flag, { cell with raised := true }, hi, ?_, rfl⟩
    show (family.store.raise flag).cells[flag.cell]? = _
    rw [getElem?_raise, hcell, Option.map_some, if_pos rfl]
  · intro c p cell' hcell' hp
    obtain ⟨cell, hcell, hparent, -⟩ := hback hcell'
    exact h.child_cons hgrows hcell (hparent ▸ hp)
  · intro c cell' hcell' hraised
    obtain ⟨cell, hcell, -, hwhich⟩ := hback hcell'
    rcases hwhich hraised with rfl | hraised
    · exact ⟨i, List.mem_cons_self, hi⟩
    · exact h.raise_cons hgrows hcell hraised

/-- **Every step leaves its mark and no other.** -/
theorem next (h : Traced past family) (hstep : family.step step = some family') :
    Traced (step :: past) family' := by
  cases step with
  | create =>
    cases hstep
    exact h.create
  | child i =>
    obtain ⟨flag, hi, rfl⟩ := Option.map_eq_some_iff.1 hstep
    exact h.make_child hi
  | clone i =>
    obtain ⟨flag, hi, rfl⟩ := Option.map_eq_some_iff.1 hstep
    exact h.clone hi
  | raise i =>
    obtain ⟨flag, hi, rfl⟩ := Option.map_eq_some_iff.1 hstep
    exact h.make_raise hi

end Traced

/-- **The store knows the steps of every run.** -/
theorem traced_of_run (h : run past = some family) : Traced past family := by
  induction past generalizing family with
  | nil =>
    cases h
    exact .nil
  | cons step past ih =>
    obtain ⟨before, hbefore, hstep⟩ := Option.bind_eq_some_iff.1 h
    exact (ih hbefore).next hstep

/-- Steps on flags that were made before them run. -/
theorem exists_run (hon : ∀ step k, Taken past step k → step.On k) :
    ∃ family, run past = some family := by
  induction past with
  | nil => exact ⟨_, rfl⟩
  | cons step past ih =>
    obtain ⟨family, hfamily⟩ := ih fun other k htaken => hon other k htaken.cons
    have hnow := hon step _ (taken_cons.2 (.inl ⟨rfl, rfl⟩))
    rw [← (traced_of_run hfamily).length_held] at hnow
    obtain ⟨family', hstep⟩ := Option.isSome_iff_exists.1 (Family.isSome_step.2 hnow)
    exact ⟨family', Option.bind_eq_some_iff.2 ⟨family, hfamily, hstep⟩⟩

end Splittable.Flags
