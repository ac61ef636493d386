import Splittable.Proofs.Reader.Fraction

/-!
# A reader that has read everything

Whatever progress the cursors of a library tell, be it less than nothing or more than all of their
split, the fraction of a reader stays between nothing and one.  It is one exactly when the reader
has answered that there is no further record, and keeps being one when the reader is closed then.

* `Reader.Gauged`           such a fraction, by the mark of a reader that has read everything;
* `Reader.serve_gauged`     a call keeps that;
* `Reader.Ended`            how a call changes the mark;
* `Reader.fraction_one_iff_finished`   what the fraction tells of the calls before it.
-/

namespace Splittable.Reader

variable {ε : Type}

/-! ## one call -/

section
variable {library : Library ℚ ε} {reader : Reader library}

/-- The fraction lies between nothing and one, and is one where the mark is set. -/
structure Gauged (reader : Reader library) : Prop where
  nonneg : 0 ≤ reader.fraction
  le_one : reader.fraction ≤ 1
  full : reader.fraction = 1 ↔ reader.done = true

theorem belowOne_lt_one : (Ratio.belowOne : ℚ) < 1 := by
  show (1 - 1 / 2 ^ 53 : ℚ) < 1
  norm_num

/-- A reader without the mark has a fraction below one, whatever its cursor tells.  One without a
split to read is the exception, and no reader stays active like that. -/
theorem gauged_of_undone (hphase : ¬(reader.phase = .failed ∨ reader.phase = .closed))
    (hdone : reader.done = false)
    (hsplits : reader.phase = .active → 0 < reader.opened ∨ reader.splits ≠ []) :
    reader.Gauged := by
  have hfraction : 0 ≤ reader.fraction ∧ reader.fraction < 1 := by
    unfold fraction
    rw [if_neg hphase, hdone, if_neg Bool.false_ne_true]
    cases hopened : reader.opened with
    | zero =>
      have hsome : ¬(reader.phase = .active ∧ reader.splits.isEmpty = true) := by
        rintro ⟨hactive, hempty⟩
        obtain hpos | hne := hsplits hactive
        · omega
        · exact hne (List.isEmpty_iff.1 hempty)
      dsimp only
      rw [if_neg hsome, Ratio.zero_rat]
      exact ⟨le_rfl, zero_lt_one⟩
    | succ before =>
      dsimp only
      rw [Ratio.zero_rat, Ratio.clamp_rat Ratio.belowOne_rat.1]
      exact ⟨le_max_left _ _,
        max_lt zero_lt_one ((min_le_left _ _).trans_lt belowOne_lt_one)⟩
  exact ⟨hfraction.1, hfraction.2.le, by simp [hdone, hfraction.2.ne]⟩

/-- A search that fails has a split to read. -/
theorem Searched.splits_of_error {unopened : List Descriptor} {w : World ε}
    {outcome : Outcome library Bool} (h : Searched unopened reader w outcome)
    (hunopened : reader.splits.drop reader.opened = unopened) (howns : reader.Owns)
    {e : SourceError} (herror : outcome.1 = .error e) :
    0 < outcome.2.1.opened ∨ outcome.2.1.splits ≠ [] := by
  have hopened {cursor : library.Cursor} (hcursor : reader.cursor = some cursor) :
      0 < reader.opened := howns.opened_pos (by rw [hcursor]; rfl)
  cases h with
  | record | finished => cases herror
  | broken hcursor => exact .inl (hopened hcursor)
  | unclosed hcursor => exact .inl (hopened hcursor)
  | interrupted =>
    refine .inr fun hnil => ?_
    rw [show reader.splits = [] from hnil, List.drop_nil] at hunopened
    cases hunopened
  | unopened => exact .inl (Nat.succ_pos _)
  | onward _ _ _ hlater => exact .inl ((Nat.succ_pos _).trans_le hlater.opened_le)

theorem advance_gauged (hactive : reader.phase = .active) (hdone : reader.done = false)
    (howns : reader.Owns) (w : World ε) : (reader.advance w).2.1.Gauged := by
  have hsearched := searched (reader.splits.drop reader.opened) reader w
  rcases hsearch : search (reader.splits.drop reader.opened) reader w with ⟨e | _ | _, found, w₁⟩
  all_goals
    rw [hsearch] at hsearched
    have hphase : found.phase = .active := hsearched.frame.2.2.trans hactive
    have hfound : found.done = false := hsearched.marks.1.trans hdone
  · have hgauged : found.Gauged :=
      gauged_of_undone (by simp [hphase]) hfound
        fun _ => hsearched.splits_of_error rfl howns rfl
    rw [advance_of_error hactive hsearch, fail_reader]
    exact ⟨hgauged.nonneg, hgauged.le_one, hgauged.full⟩
  · have hone : found.exhausted.fraction = 1 := fraction_of_done rfl rfl
    rw [advance_of_finished hactive hsearch]
    exact ⟨hone ▸ zero_le_one, hone.le, iff_of_true hone rfl⟩
  · rw [advance_of_record hactive hsearch]
    exact gauged_of_undone (by simp [hphase]) hfound fun _ =>
      .inl ((hsearched.owns rfl howns).opened_pos (hsearched.of_true rfl).1)

theorem start_gauged (hphase : reader.phase = .notStarted) (h : reader.Metered) (w : World ε) :
    (reader.start w).2.1.Gauged := by
  have hdone : reader.done = false := h.marked.undone (by simp [hphase]) (by simp [hphase])
  have hcursor : reader.cursor = none := by simpa [hphase] using h.settled.cursor
  have hresolved : (reader.resolveSplits w).2.1.frozen = 0 ∧
      (reader.resolveSplits w).2.1.done = false ∧
      (reader.resolveSplits w).2.1.cursor = none := by
    obtain ⟨handle, hreader⟩ := resolveSplits_reader reader w
    rw [hreader]
    exact ⟨(h.fresh hphase).2, hdone, hcursor⟩
  rcases hresolve : reader.resolveSplits w with ⟨e | splits, found, w₁⟩
  all_goals
    rw [hresolve] at hresolved
    obtain ⟨hfrozen, hundone, hnone⟩ := hresolved
  · have hzero : ({ found with phase := .failed } : Reader library).fraction = 0 :=
      (fraction_of_over (.inl rfl)).trans hfrozen
    rw [start_of_unresolved hphase hresolve]
    refine ⟨hzero.ge, hzero.le.trans zero_le_one, ?_⟩
    show _ ↔ found.done = true
    rw [hzero, show found.done = false from hundone]
    simp
  · rw [start_of_resolved hphase hresolve]
    have hbegun : ({ found with splits, phase := .active } : Reader library).phase = .active := rfl
    exact advance_gauged hbegun hundone (owns_of_cursor_none hnone) w₁

/-- **A call keeps the fraction between its bounds**, and in step with the mark. -/
theorem serve_gauged (hmetered : reader.Metered) (h : reader.Gauged) (request : Request ℚ)
    (w : World ε) : (reader.serve request w).2.1.Gauged := by
  cases request with
  | start =>
    dsimp only [serve]
    by_cases hphase : reader.phase = .notStarted
    · exact start_gauged hphase hmetered w
    · rw [start_of_refused hphase]
      exact h
  | advance =>
    dsimp only [serve]
    by_cases hactive : reader.phase = .active
    · exact advance_gauged hactive (hmetered.undone hactive) hmetered.settled.owns w
    · by_cases hexhausted : reader.phase = .exhausted
      · rw [advance_of_exhausted hexhausted]
        exact h
      · rw [advance_of_refused hactive hexhausted]
        exact h
  | close =>
    dsimp only [serve]
    have hfraction := close_fraction reader w
    have hdone := (close_done reader w).2
    exact ⟨hfraction ▸ h.nonneg, hfraction ▸ h.le_one, by rw [hfraction, hdone]; exact h.full⟩
  | current | fraction | splitPoints | splitAt => exact h

theorem make_gauged (library : Library ℚ ε) (source : Source) (context : Context ℚ ε) :
    (make library source context).Gauged :=
  gauged_of_undone (by simp [make]) rfl fun h => by cases h

theorem after_gauged (hmetered : reader.Metered) (h : reader.Gauged) (turns : List (Turn ℚ ε)) :
    (reader.after turns).Gauged := by
  induction turns generalizing reader with
  | nil => exact h
  | cons turn turns ih =>
    exact ih (serve_metered hmetered turn.request turn.world)
      (serve_gauged hmetered h turn.request turn.world)

end

/-! ## the answer that there is no further record -/

section
variable {ρ : Type} [Ratio ρ] {library : Library ρ ε} {reader : Reader library}
  {request : Request ρ} {w : World ε}

/-- A call sets the mark when it answers that there is no further record.  Every other call leaves
the mark as it is, and gives that answer only where the mark is set. -/
inductive Ended (reader : Reader library) (request : Request ρ) (w : World ε) : Prop
  | ends : (reader.serve request w).1 = .moved (.ok false) →
      (reader.serve request w).2.1.done = true →
      (reader.serve request w).2.1.phase = .exhausted → Ended _ _ _
  | keeps : (reader.serve request w).2.1.done = reader.done →
      ((reader.serve request w).1 = .moved (.ok false) → reader.done = true) → Ended _ _ _

theorem advance_ended (hactive : reader.phase = .active) (w : World ε) :
    ((reader.advance w).1 = .ok false ∧ (reader.advance w).2.1.done = true ∧
      (reader.advance w).2.1.phase = .exhausted) ∨
    ((reader.advance w).2.1.done = reader.done ∧ (reader.advance w).1 ≠ .ok false) := by
  have hsearched := searched (reader.splits.drop reader.opened) reader w
  rcases hsearch : search (reader.splits.drop reader.opened) reader w with ⟨e | _ | _, found, w₁⟩
  all_goals
    rw [hsearch] at hsearched
    have hfound : found.done = reader.done := hsearched.marks.1
  · rw [advance_of_error hactive hsearch, fail_reader]
    exact .inr ⟨hfound, fun h => by cases h⟩
  · rw [advance_of_finished hactive hsearch]
    exact .inl ⟨rfl, rfl, rfl⟩
  · rw [advance_of_record hactive hsearch]
    exact .inr ⟨hfound, fun h => by cases h⟩

theorem start_ended (hphase : reader.phase = .notStarted) (w : World ε) :
    ((reader.start w).1 = .ok false ∧ (reader.start w).2.1.done = true ∧
      (reader.start w).2.1.phase = .exhausted) ∨
    ((reader.start w).2.1.done = reader.done ∧ (reader.start w).1 ≠ .ok false) := by
  have hresolved : (reader.resolveSplits w).2.1.done = reader.done := by
    obtain ⟨handle, hreader⟩ := resolveSplits_reader reader w
    rw [hreader]
  rcases hresolve : reader.resolveSplits w with ⟨e | splits, found, w₁⟩
  all_goals rw [hresolve] at hresolved
  · rw [start_of_unresolved hphase hresolve]
    exact .inr ⟨hresolved, fun h => by cases h⟩
  · have hbegun : ({ found with splits, phase := .active } : Reader library).phase = .active := rfl
    rw [start_of_resolved hphase hresolve]
    obtain hends | ⟨hdone, hanswer⟩ := advance_ended hbegun w₁
    · exact .inl hends
    · exact .inr ⟨hdone.trans hresolved, hanswer⟩

theorem serve_ended (h : reader.Marked) (request : Request ρ) (w : World ε) :
    reader.Ended request w := by
  cases request with
  | start =>
    by_cases hphase : reader.phase = .notStarted
    · obtain ⟨hanswer, hdone, hexhausted⟩ | ⟨hdone, hanswer⟩ := start_ended hphase w
      · exact .ends (congrArg Reply.moved hanswer) hdone hexhausted
      · exact .keeps hdone fun hreply => absurd (Reply.moved.inj hreply) hanswer
    · refine .keeps ?_ fun hreply => ?_
      · rw [serve, start_of_refused hphase]
      · rw [serve, start_of_refused hphase] at hreply
        cases hreply
  | advance =>
    by_cases hactive : reader.phase = .active
    · obtain ⟨hanswer, hdone, hexhausted⟩ | ⟨hdone, hanswer⟩ := advance_ended hactive w
      · exact .ends (congrArg Reply.moved hanswer) hdone hexhausted
      · exact .keeps hdone fun hreply => absurd (Reply.moved.inj hreply) hanswer
    · by_cases hexhausted : reader.phase = .exhausted
      · refine .keeps ?_ fun _ => h.noted hexhausted
        rw [serve, advance_of_exhausted hexhausted]
      · refine .keeps ?_ fun hreply => ?_
        · rw [serve, advance_of_refused hactive hexhausted]
        · rw [serve, advance_of_refused hactive hexhausted] at hreply
          cases hreply
  | close => exact .keeps (close_done reader w).2 fun hreply => by cases hreply
  | current | fraction | splitPoints | splitAt => exact .keeps rfl fun hreply => by cases hreply

/-- **The mark is set exactly once the answer was given** that there is no further record. -/
theorem done_after_iff (h : reader.Marked) (turns : List (Turn ρ ε)) :
    (reader.after turns).done = true ↔
      reader.done = true ∨ .moved (.ok false) ∈ reader.replies turns := by
  induction turns generalizing reader with
  | nil => simp [after, replies]
  | cons turn turns ih =>
    rw [after, replies, List.mem_cons, ih (serve_marked h turn.request turn.world)]
    cases serve_ended h turn.request turn.world with
    | ends hreply hdone _ => simp [hreply, hdone]
    | keeps hdone hreply =>
      rw [hdone]
      constructor
      · rintro (hdone | hlater)
        · exact .inl hdone
        · exact .inr (.inr hlater)
      · rintro (hdone | hnow | hlater)
        · exact .inl hdone
        · exact .inl (hreply hnow.symm)
        · exact .inr hlater

/-- A reader that gets the mark is exhausted by then. -/
theorem exists_exhausted (h : reader.Marked) (hundone : reader.done = false)
    {turns : List (Turn ρ ε)} (hdone : (reader.after turns).done = true) :
    ∃ past later, turns = past ++ later ∧ (reader.after past).phase = .exhausted := by
  induction turns generalizing reader with
  | nil =>
    rw [after, hundone] at hdone
    cases hdone
  | cons turn turns ih =>
    cases serve_ended h turn.request turn.world with
    | ends _ _ hexhausted => exact ⟨[turn], turns, rfl, hexhausted⟩
    | keeps hkept _ =>
      obtain ⟨past, later, rfl, hexhausted⟩ :=
        ih (serve_marked h turn.request turn.world) (hkept.trans hundone) hdone
      exact ⟨turn :: past, later, rfl, hexhausted⟩

end

/-! ## all calls -/

/-- **The fraction of a reader, whatever was called and whatever its cursors told**: it lies
between nothing and one, and is one exactly if a start or an advance has answered that there is no
further record.  These are the readers that are exhausted, or were so before they were closed. -/
theorem fraction_one_iff_finished (library : Library ℚ ε) (source : Source)
    (context : Context ℚ ε) (turns : List (Turn ℚ ε)) :
    let fresh := make library source context
    let reader := fresh.after turns
    0 ≤ reader.fraction ∧ reader.fraction ≤ 1 ∧
    (reader.fraction = 1 ↔ .moved (.ok false) ∈ fresh.replies turns) ∧
    (reader.fraction = 1 ↔ reader.phase = .exhausted ∨
      reader.phase = .closed ∧
        ∃ past later, turns = past ++ later ∧ (fresh.after past).phase = .exhausted) := by
  intro fresh reader
  have hmarked : fresh.Marked := make_marked library source context
  have hgauged : reader.Gauged :=
    after_gauged (make_metered library source context) (make_gauged library source context) turns
  have hreader : reader.Marked := after_marked hmarked turns
  refine ⟨hgauged.nonneg, hgauged.le_one, ?_, ?_⟩
  · rw [hgauged.full, done_after_iff hmarked]
    simp [fresh, make]
  · rw [hgauged.full]
    constructor
    · intro hdone
      obtain hexhausted | hclosed := hreader.ended hdone
      · exact .inl hexhausted
      · exact .inr ⟨hclosed, exists_exhausted hmarked rfl hdone⟩
    · rintro (hexhausted | ⟨-, past, later, rfl, hexhausted⟩)
      · exact hreader.noted hexhausted
      · have hpast : (fresh.after past).Marked := after_marked hmarked past
        show (fresh.after (past ++ later)).done = true
        rw [after_append]
        exact after_done hpast (hpast.noted hexhausted) later

end Splittable.Reader
