import Splittable.Proofs.Flags.Family

/-!
# Raised flags

Which flags of a family read as raised is told by the steps alone: those that a raise fell on, their
clones, and all that was made under these, before the raise or after it.

* `Traced.ancestor_cells`   the cells of ancestors come first;
* `Traced.isRaised_iff`     what a flag reads, in terms of the steps;
* `isRaised_run_append`, `isRaised_raise_of_not`   what later steps change;
* `isRaised_run_iff`    which flags read as raised after any run.
-/

namespace Splittable.Flags

variable {past : List Step} {family family' : Family} {flag : Flag} {i j k : Nat}

/-! ## what a flag reads -/

namespace Traced

theorem held_eq (h : Traced past family) (hshares : Shares past i j) :
    family.held[i]? = family.held[j]? := by
  induction hshares with
  | rel i k htaken =>
    obtain ⟨flag, hi, hk⟩ := h.shows htaken
    rw [hi, hk]
  | refl => rfl
  | symm _ _ _ ih => exact ih.symm
  | trans _ _ _ _ _ ih ih' => exact ih.trans ih'

/-- An ancestor's cell comes no later than the one that a flag was made under. -/
theorem ancestor_cells (h : Traced past family) (hancestor : Ancestor past i j) :
    ∃ above flag cell p, family.held[i]? = some above ∧ family.held[j]? = some flag ∧
      family.store.cells[flag.cell]? = some cell ∧ cell.parent = some p ∧ above.cell ≤ p := by
  induction hancestor with
  | parent hparent hchild hclone =>
    obtain ⟨parent, flag, cell, hp, hk, hcell, hcp, -⟩ := h.shows hchild
    exact ⟨parent, flag, cell, parent.cell, (h.held_eq hparent).trans hp,
      (h.held_eq hclone).symm.trans hk, hcell, hcp, Nat.le_refl _⟩
  | above _ hchild hclone ih =>
    obtain ⟨above, _, _, _, habove, hp', hcell', hcp', hle⟩ := ih
    obtain ⟨parent, flag, cell, hp, hk, hcell, hcp, -⟩ := h.shows hchild
    cases hp'.symm.trans hp
    exact ⟨above, flag, cell, _, habove, (h.held_eq hclone).symm.trans hk, hcell, hcp,
      Nat.le_trans hle (Nat.le_of_lt (h.parent_lt hcell' hcp'))⟩

theorem ancestor_lt (h : Traced past family) (hancestor : Ancestor past i j) :
    ∃ above flag, family.held[i]? = some above ∧ family.held[j]? = some flag ∧
      above.cell < flag.cell := by
  obtain ⟨above, flag, _, p, hi, hj, hcell, hparent, hle⟩ := h.ancestor_cells hancestor
  exact ⟨above, flag, hi, hj, Nat.lt_of_le_of_lt hle (h.parent_lt hcell hparent)⟩

/-- **A flag neither shares the cell of a flag below it nor is below that.** -/
theorem not_of_ancestor (h : Traced past family) (hancestor : Ancestor past i j) :
    ¬(Shares past i j ∨ Ancestor past j i) := by
  obtain ⟨above, flag, hi, hj, hlt⟩ := h.ancestor_lt hancestor
  rintro (hshares | hback)
  · have hsame := h.held_eq hshares
    rw [hi, hj] at hsame
    cases hsame
    exact Nat.lt_irrefl _ hlt
  · obtain ⟨above', flag', hj', hi', hlt'⟩ := h.ancestor_lt hback
    cases hi'.symm.trans hi
    cases hj'.symm.trans hj
    exact Nat.lt_asymm hlt hlt'

/-- Two children of one flag have cells of their own, and their parent's comes before both. -/
theorem not_of_siblings (h : Traced past family) (hsiblings : Siblings past i j) :
    ¬(Shares past i j ∨ Ancestor past j i) := by
  obtain ⟨p, q, k, l, hne, hpq, hchild, hchild', hki, hlj⟩ := hsiblings
  obtain ⟨parent, flag, cell, hp, hk, hcell, hparent, hfirst⟩ := h.shows hchild
  obtain ⟨parent', flag', cell', hq, hl, hcell', hparent', hfirst'⟩ := h.shows hchild'
  cases (hp.symm.trans (h.held_eq hpq)).trans hq
  rintro (hshares | hancestor)
  · have hsame : family.held[k]? = family.held[l]? :=
      (h.held_eq hki).trans ((h.held_eq hshares).trans (h.held_eq hlj).symm)
    exact hne (Nat.le_antisymm (hfirst l (hsame.symm.trans hk)) (hfirst' k (hsame.trans hl)))
  · -- the cell of `j` would come no later than that of the parent, which comes before it
    obtain ⟨above, below, cell'', p', hj, hi, hcell'', hparent'', hle⟩ :=
      h.ancestor_cells hancestor
    cases (hl.symm.trans (h.held_eq hlj)).trans hj
    cases (hk.symm.trans (h.held_eq hki)).trans hi
    cases hcell.symm.trans hcell''
    cases hparent.symm.trans hparent''
    exact Nat.not_lt_of_le hle (h.parent_lt hcell' hparent')

theorem isRaised_child (h : Traced past family) {parent flag : Flag} {cell : Cell}
    (hcell : family.store.cells[flag.cell]? = some cell) (hparent : cell.parent = some parent.cell)
    (hraised : family.store.isRaised parent = true) : family.store.isRaised flag = true :=
  raisedAt_iff.2 ⟨cell, hcell, .inr ⟨_, hparent, h.parent_lt hcell hparent, hraised⟩⟩

theorem isRaised_of_ancestor (h : Traced past family) (hancestor : Ancestor past i j)
    {above : Flag} (habove : family.held[i]? = some above)
    (hraised : family.store.isRaised above = true) (hj : family.held[j]? = some flag) :
    family.store.isRaised flag = true := by
  induction hancestor generalizing flag with
  | parent hparent hchild hclone =>
    obtain ⟨parent, child, cell, hp, hk, hcell, hcp, -⟩ := h.shows hchild
    cases (habove.symm.trans (h.held_eq hparent)).trans hp
    cases (hk.symm.trans (h.held_eq hclone)).trans hj
    exact h.isRaised_child hcell hcp hraised
  | above _ hchild hclone ih =>
    obtain ⟨parent, child, cell, hp, hk, hcell, hcp, -⟩ := h.shows hchild
    cases (hk.symm.trans (h.held_eq hclone)).trans hj
    exact h.isRaised_child hcell hcp (ih hp)

theorem isRaised_of_raise (h : Traced past family) (hmem : .raise j ∈ past)
    (hrelated : Shares past i j ∨ Ancestor past j i) (hi : family.held[i]? = some flag) :
    family.store.isRaised flag = true := by
  obtain ⟨_, htaken⟩ := exists_taken_iff.2 hmem
  obtain ⟨target, cell, hj, hcell, hown⟩ := h.shows htaken
  have hraised : family.store.isRaised target = true :=
    raisedAt_iff.2 ⟨cell, hcell, .inl hown⟩
  rcases hrelated with hshares | hancestor
  · cases (hi.symm.trans (h.held_eq hshares)).trans hj
    exact hraised
  · exact h.isRaised_of_ancestor hancestor hj hraised hi

theorem exists_raise (h : Traced past family) (hi : family.held[i]? = some flag)
    (hraised : family.store.isRaised flag = true) :
    ∃ j, .raise j ∈ past ∧ (Shares past i j ∨ Ancestor past j i) := by
  obtain ⟨c⟩ := flag
  -- up from the cell to those it was made under, which all come before it
  induction c using Nat.strongRecOn generalizing i with
  | _ c ih =>
    obtain ⟨cell, hcell, hown | ⟨p, hp, hlt, hup⟩⟩ := raisedAt_iff.1 hraised
    · obtain ⟨j, hmem, hj⟩ := h.raise hcell hown
      exact ⟨j, hmem, .inl (h.shares hi hj)⟩
    · obtain ⟨q, k, hchild, hq, hk⟩ := h.child hcell hp
      obtain ⟨j, hmem, hshares | hancestor⟩ := ih p hlt hq hup
      · exact ⟨j, hmem, .inr (.parent hshares.symm hchild (h.shares hk hi))⟩
      · exact ⟨j, hmem, .inr (.above hancestor hchild (h.shares hk hi))⟩

theorem isRaised_iff (h : Traced past family) (hi : family.held[i]? = some flag) :
    family.store.isRaised flag = true ↔
      ∃ j, .raise j ∈ past ∧ (Shares past i j ∨ Ancestor past j i) :=
  ⟨h.exists_raise hi, fun ⟨_, hmem, hrelated⟩ => h.isRaised_of_raise hmem hrelated hi⟩

end Traced

/-! ## later steps -/

/-- **No flag is lowered.** -/
theorem isRaised_run_append {later : List Step} (h : run past = some family)
    (hlater : run (later ++ past) = some family') (hi : family.held[i]? = some flag) :
    family'.held[i]? = some flag ∧
      (family.store.isRaised flag = true → family'.store.isRaised flag = true) := by
  induction later generalizing family' with
  | nil =>
    cases h.symm.trans hlater
    exact ⟨hi, id⟩
  | cons step later ih =>
    obtain ⟨before, hbefore, hstep⟩ := Option.bind_eq_some_iff.1 hlater
    obtain ⟨hheld, hraised⟩ := ih hbefore
    have hheld' := (Family.grows_step hstep).getElem? hheld
    refine ⟨hheld', fun hnow => ?_⟩
    obtain ⟨j, hmem, hrelated⟩ := ((traced_of_run hbefore).isRaised_iff hheld).1 (hraised hnow)
    exact ((traced_of_run hlater).isRaised_iff hheld').2
      ⟨j, List.mem_cons_of_mem _ hmem, hrelated.imp .cons .cons⟩

theorem shares_raise : Shares (.raise j :: past) = Shares past := by
  have htaken : ∀ i k, Taken (.raise j :: past) (.clone i) k ↔ Taken past (.clone i) k :=
    fun i k => taken_cons.trans (or_iff_right fun hnow => nomatch hnow.1)
  unfold Shares
  simp only [htaken]

theorem Ancestor.of_raise {a : Nat} (h : Ancestor (.raise j :: past) a i) : Ancestor past a i := by
  induction h with
  | parent hparent hchild hclone =>
    rw [shares_raise] at hparent hclone
    exact .parent hparent ((taken_cons.1 hchild).resolve_left fun hnow => nomatch hnow.1) hclone
  | above _ hchild hclone ih =>
    rw [shares_raise] at hclone
    exact .above ih ((taken_cons.1 hchild).resolve_left fun hnow => nomatch hnow.1) hclone

/-- **A raise is seen by those that share the cell it fell on or are below it, by no others.** -/
theorem isRaised_raise_of_not (h : run past = some family)
    (hraise : run (.raise j :: past) = some family') (hi : family.held[i]? = some flag)
    (hnot : ¬(Shares past i j ∨ Ancestor past j i)) :
    family'.store.isRaised flag = family.store.isRaised flag := by
  have hlater : run ([.raise j] ++ past) = some family' := hraise
  obtain ⟨hheld, hstays⟩ := isRaised_run_append h hlater hi
  rw [Bool.eq_iff_iff]
  refine ⟨fun hnow => ?_, hstays⟩
  obtain ⟨k, hmem, hrelated⟩ := ((traced_of_run hraise).isRaised_iff hheld).1 hnow
  -- a raise makes no flag, so the relations were there before it
  rw [shares_raise] at hrelated
  have hrelated' : Shares past i k ∨ Ancestor past k i := hrelated.imp_right .of_raise
  rcases List.mem_cons.1 hmem with heq | hmem
  · cases heq
    exact absurd hrelated' hnot
  · exact ((traced_of_run h).isRaised_iff hi).2 ⟨k, hmem, hrelated'⟩

/-- **Which flags read as raised** after any steps on flags that were made before them: those for
which a raise fell on a flag that shares their cell or on one they were made under, whichever came
first.  No later step lowers a flag.  A raise changes nothing for the flags above the one that it
falls on, for the siblings of that one and for all that neither share its cell nor are below it. -/
theorem isRaised_run_iff (hon : ∀ step k, Taken past step k → step.On k) :
    ∃ family, run past = some family ∧ family.held.length = makings past ∧
      ∀ i flag, family.held[i]? = some flag →
        (family.store.isRaised flag = true ↔
          ∃ j, .raise j ∈ past ∧ (Shares past i j ∨ Ancestor past j i)) ∧
        (∀ later family', run (later ++ past) = some family' →
          family'.held[i]? = some flag ∧
            (family.store.isRaised flag = true → family'.store.isRaised flag = true)) ∧
        ∀ j family', run (.raise j :: past) = some family' →
          (Ancestor past i j ∨ Siblings past i j ∨ ¬(Shares past i j ∨ Ancestor past j i)) →
          family'.store.isRaised flag = family.store.isRaised flag := by
  obtain ⟨family, hfamily⟩ := exists_run hon
  have htraced := traced_of_run hfamily
  refine ⟨family, hfamily, htraced.length_held, fun i flag hi => ⟨htraced.isRaised_iff hi,
    fun later family' hlater => isRaised_run_append hfamily hlater hi,
    fun j family' hraise hwhich => ?_⟩⟩
  refine isRaised_raise_of_not hfamily hraise hi ?_
  rcases hwhich with hancestor | hsiblings | hnot
  · exact htraced.not_of_ancestor hancestor
  · exact htraced.not_of_siblings hsiblings
  · exact hnot

/-- a raise on the clone of one of two children: that child reads as raised, the parent does not -/
theorem isRaised_run_iff_children :
    (∀ step k, Taken [.raise 2, .child 0, .clone 1, .child 0, .create] step k → step.On k) ∧
      ∃ family, run [.raise 2, .child 0, .clone 1, .child 0, .create] = some family ∧
        (∃ flag, family.held[1]? = some flag ∧ family.store.isRaised flag = true) ∧
        ∃ flag, family.held[0]? = some flag ∧ family.store.isRaised flag = false := by
  have hon : ∀ step k, Taken [.raise 2, .child 0, .clone 1, .child 0, .create] step k →
      step.On k := by
    intro step k htaken
    simp only [taken_cons, not_taken_nil, or_false] at htaken
    rcases htaken with ⟨rfl, rfl⟩ | ⟨rfl, rfl⟩ | ⟨rfl, rfl⟩ | ⟨rfl, rfl⟩ | ⟨rfl, -⟩ <;>
      simp [Step.On, makings]
  obtain ⟨family, hrun, -, hflags⟩ := isRaised_run_iff hon
  have hclone : Taken [.raise 2, .child 0, .clone 1, .child 0, .create] (.clone 1) 2 :=
    ⟨[.raise 2, .child 0], [.child 0, .create], rfl, rfl⟩
  have hraised := (hflags 1 ⟨1⟩ (by cases hrun; rfl)).1.2
    ⟨2, List.mem_cons_self, .inl (.rel _ _ hclone)⟩
  refine ⟨hon, family, hrun, ⟨⟨1⟩, by cases hrun; rfl, hraised⟩, ⟨0⟩, by cases hrun; rfl, ?_⟩
  cases hrun
  simp [isRaised, raisedAt, Family.hold, Family.raise, raise, child, create, add, empty]

end Splittable.Flags
