import Splittable.Proofs.Ratio.Rational
import Splittable.Proofs.Reader.Points
import Mathlib.Tactic.Positivity
import Mathlib.Tactic.GCongr

/-!
# The fraction that is read

With cursors whose progress goes from nothing to all of their split, the fraction that a reader
reports goes up from call to call, also where reading fails or ends.  One thing sets it back: the
open cursor has no more records and reading fails before the next split is opened, so that the
fraction is taken when the cursor is already gone.

* `Library.Steady`          cursors that always tell their progress, and never less than before;
* `Library.counted`         a library with such cursors, which count their records;
* `Reader.share`, `passed`  the fraction as a share of the splits, and how many are passed;
* `Reader.Lapses`           an advance that sets the fraction back, and `begun`, where to;
* `Searched.passed_le`      a search goes forward, unless it lapses;
* `Reader.serve_fraction_le`, `serve_of_lapse`   so does a call;
* `Reader.fraction_falls_iff`   the fraction falls where an advance lapses, and nowhere else.
-/

namespace Splittable

variable {ε : Type}

/-- Open cursors tell how much of their split they have read, between nothing and all of it, and
never less than before. -/
structure Library.Steady (library : Library ℚ ε) : Prop where
  tells : ∀ {overrides flag split cursor}, library.CursorOf overrides flag split cursor →
    ∃ p, library.progress cursor = some p ∧ 0 ≤ p ∧ p ≤ 1
  forward : ∀ {overrides flag split cursor after answer w w₁ p q},
    library.CursorOf overrides flag split cursor →
    library.next cursor w = ((answer, after), w₁) →
    library.progress cursor = some p → library.progress after = some q → p ≤ q

/-- A library that finds given splits, each with so many records.  Its cursors count the records
they have read. -/
def Library.counted (ε : Type) (count : Nat) (closing : Except Fault Unit)
    (splits : List Descriptor) : Library ℚ ε where
  name := "counted"
  Cursor := Nat
  listing _ _ w := (.ok [], w)
  discover _ _ _ w := (.ok splits, w)
  openCursor _ _ _ w := (.ok 0, w)
  next read w :=
    if read < count then ((.ok (some ⟨.long read.toUInt64, .void⟩), read + 1), w)
    else ((.ok none, read), w)
  progress read := some (read / count)
  close read w := ((closing, read), w)

namespace Library.counted

variable {count : Nat} {closing : Except Fault Unit} {splits : List Descriptor}

/-- how many records a cursor has read -/
def read (cursor : (counted ε count closing splits).Cursor) : Nat := cursor

/-- A move counts a record, or stays where all are counted. -/
theorem read_next {cursor after : (counted ε count closing splits).Cursor}
    {answer : Except Fault (Option Pair)} {w w₁ : World ε}
    (h : (counted ε count closing splits).next cursor w = ((answer, after), w₁)) :
    read cursor ≤ read after ∧ (read cursor ≤ count → read after ≤ count) := by
  dsimp only [counted] at h
  split at h
  · rename_i hread
    cases h
    exact ⟨Nat.le_succ _, fun _ => hread⟩
  · cases h
    exact ⟨Nat.le_refl _, id⟩

theorem read_le {overrides : Overrides} {flag : Flag} {split : Descriptor}
    {cursor : (counted ε count closing splits).Cursor}
    (h : (counted ε count closing splits).CursorOf overrides flag split cursor) :
    read cursor ≤ count := by
  induction h with
  | opened hopen =>
    cases hopen
    exact Nat.zero_le _
  | moved _ hnext ih => exact (read_next hnext).2 ih

theorem steady (ε : Type) (count : Nat) (closing : Except Fault Unit) (splits : List Descriptor) :
    (counted ε count closing splits).Steady where
  tells {_ _ _ cursor} horigin := by
    have hle : (read cursor : ℚ) ≤ count := Nat.cast_le.2 (read_le horigin)
    exact ⟨read cursor / count, rfl, by positivity, div_le_one_of_le₀ hle (Nat.cast_nonneg _)⟩
  forward {_ _ _ cursor after _ _ _ _ _} _ hnext hp hq := by
    cases hp
    cases hq
    have hle : (read cursor : ℚ) ≤ read after := Nat.cast_le.2 (read_next hnext).1
    show (read cursor / count : ℚ) ≤ read after / count
    gcongr

end Library.counted

namespace Reader

variable {library : Library ℚ ε} {reader : Reader library} {w : World ε}

/-! ## shares -/

/-- a share of the splits, one being kept for the reader that has read everything -/
def share (total : Nat) (passed : ℚ) : ℚ := max 0 (min Ratio.belowOne (passed / total))

theorem share_le_one (total : Nat) (passed : ℚ) : share total passed ≤ 1 :=
  max_le zero_le_one ((min_le_left _ _).trans Ratio.belowOne_rat.2)

theorem share_mono (total : Nat) {passed later : ℚ} (h : passed ≤ later) :
    share total passed ≤ share total later := by
  have hdiv : passed / total ≤ later / total := by gcongr
  exact max_le_max le_rfl (min_le_min le_rfl hdiv)

/-- how much of its split the open cursor has read, and nothing where none is open -/
def inside (reader : Reader library) : ℚ := (reader.cursor.bind library.progress).getD 0

/-- how many splits are passed, the open one in part -/
def passed (reader : Reader library) : ℚ := (reader.opened - 1 : Nat) + reader.inside

/-- the fraction at which the open split was begun -/
def begun (reader : Reader library) : ℚ := share reader.splits.length (reader.opened - 1 : Nat)

theorem inside_of_none (h : reader.cursor = none) : reader.inside = 0 := by
  rw [inside, h]
  rfl

theorem inside_of_some {cursor : library.Cursor} {p : ℚ} (hcursor : reader.cursor = some cursor)
    (hp : library.progress cursor = some p) : reader.inside = p := by
  rw [inside, hcursor, Option.bind_some, hp]
  rfl

theorem inside_bounds (hsteady : library.Steady) (howns : reader.Owns) :
    0 ≤ reader.inside ∧ reader.inside ≤ 1 := by
  cases hcursor : reader.cursor with
  | none =>
    rw [inside_of_none hcursor]
    exact ⟨le_rfl, zero_le_one⟩
  | some cursor =>
    obtain ⟨_, _, _, _, horigin⟩ := howns cursor hcursor
    obtain ⟨p, hp, hbounds⟩ := hsteady.tells horigin
    rw [inside_of_some hcursor hp]
    exact hbounds

theorem Owns.opened_pos (h : reader.Owns) (hcursor : reader.cursor.isSome = true) :
    0 < reader.opened := by
  obtain ⟨cursor, hcursor⟩ := Option.isSome_iff_exists.1 hcursor
  obtain ⟨before, _, hopened, -⟩ := h cursor hcursor
  omega

/-- While a reader is active its fraction is its share. -/
theorem fraction_of_active (hactive : reader.phase = .active) (hdone : reader.done = false)
    (hopened : 0 < reader.opened) (hinside : 0 ≤ reader.inside ∧ reader.inside ≤ 1) :
    reader.fraction = share reader.splits.length reader.passed := by
  obtain ⟨before, hbefore⟩ : ∃ before, reader.opened = before + 1 := ⟨reader.opened - 1, by omega⟩
  have hclamp : Ratio.clamp Ratio.zero Ratio.one
      ((reader.cursor.bind library.progress).getD Ratio.zero) = reader.inside := by
    rw [Ratio.zero_rat, Ratio.one_rat, Ratio.clamp_rat zero_le_one]
    show max 0 (min 1 reader.inside) = _
    rw [min_eq_right hinside.2, max_eq_right hinside.1]
  unfold fraction
  rw [if_neg (by simp [hactive]), hdone, if_neg Bool.false_ne_true, hbefore]
  dsimp only
  rw [hclamp, Ratio.zero_rat, Ratio.clamp_rat Ratio.belowOne_rat.1, share, passed, hbefore]
  rfl

theorem fraction_of_over (h : reader.phase = .failed ∨ reader.phase = .closed) :
    reader.fraction = reader.frozen := by
  rw [fraction, if_pos h]

theorem fraction_of_done (hphase : reader.phase = .exhausted) (hdone : reader.done = true) :
    reader.fraction = 1 := by
  rw [fraction, if_neg (by simp [hphase]), if_pos hdone, Ratio.one_rat]

theorem fraction_of_fresh (hphase : reader.phase = .notStarted) (hdone : reader.done = false)
    (hopened : reader.opened = 0) : reader.fraction = 0 := by
  unfold fraction
  rw [if_neg (by simp [hphase]), hdone, if_neg Bool.false_ne_true, hopened]
  dsimp only
  rw [if_neg (by simp [hphase]), Ratio.zero_rat]

theorem fraction_nonneg (h : 0 ≤ reader.frozen) : 0 ≤ reader.fraction := by
  unfold fraction
  split
  · exact h
  · rw [Ratio.one_rat, Ratio.zero_rat]
    split
    · exact zero_le_one
    · split
      · split
        · exact zero_le_one
        · exact le_rfl
      · rw [Ratio.clamp_rat Ratio.belowOne_rat.1]
        exact le_max_left _ _

/-! ## searching -/

/-- An advance that sets the fraction back: the open cursor has no more records, and then it does
not close, or the flag is raised before the next split is opened. -/
inductive Lapses (reader : Reader library) (w : World ε) : Prop
  | unclosed {w₁ w₂ : World ε} {cursor after closed : library.Cursor} {fault : Fault} :
      reader.cursor = some cursor → library.next cursor w = ((.ok none, after), w₁) →
      library.close after w₁ = ((.error fault, closed), w₂) → Lapses reader w
  | interrupted {w₁ : World ε} :
      reader.Drained w w₁ → reader.opened < reader.splits.length →
      w₁.isRaised reader.interrupt = true → Lapses reader w

theorem Lapses.searched (h : reader.Lapses w) :
    ∃ e w₁, Searched (reader.splits.drop reader.opened) reader w
      (.error e, { reader with cursor := none }, w₁) := by
  cases h with
  | unclosed hcursor hnext hclose => exact ⟨_, _, .unclosed hcursor hnext hclose⟩
  | interrupted hdrained hopened hraised =>
    rw [List.drop_eq_getElem_cons hopened]
    exact ⟨_, _, .interrupted hdrained hraised⟩

section
variable {unopened : List Descriptor} {outcome : Outcome library Bool}

theorem Searched.opened_le (h : Searched unopened reader w outcome) :
    reader.opened ≤ outcome.2.1.opened := by
  induction h with
  | onward _ _ _ _ ih => exact (Nat.le_succ _).trans ih
  | unopened => exact Nat.le_succ _
  | _ => exact Nat.le_refl _

/-- More is passed where a later split is open. -/
theorem passed_le_of_opened_lt {found : Reader library} (hopened : 0 < reader.opened)
    (hlater : reader.opened < found.opened) (hinside : reader.inside ≤ 1)
    (hfound : 0 ≤ found.inside) : reader.passed ≤ found.passed := by
  have hcast : ((reader.opened - 1 : Nat) : ℚ) + 1 ≤ (found.opened - 1 : Nat) := by
    have hnat : reader.opened - 1 + 1 ≤ found.opened - 1 := by omega
    exact_mod_cast hnat
  unfold passed
  linarith

/-- **A search goes forward**, unless the reader lapses or has read everything. -/
theorem Searched.passed_le (hsteady : library.Steady) (h : Searched unopened reader w outcome)
    (hunopened : reader.splits.drop reader.opened = unopened) (howns : reader.Owns)
    (hopened : 0 < reader.opened) :
    outcome.1 = .ok false ∨ reader.Lapses w ∨ reader.passed ≤ outcome.2.1.passed := by
  have hinside := inside_bounds hsteady howns
  have hfound := inside_bounds hsteady (h.owns hunopened howns)
  -- where the cursor stays open it only moves on in its split
  have hmoved {cursor after : library.Cursor} {answer : Except Fault (Option Pair)} {w₁ : World ε}
      (hcursor : reader.cursor = some cursor)
      (hnext : library.next cursor w = ((answer, after), w₁)) {found : Reader library}
      (hafter : found.cursor = some after) (hsame : found.opened = reader.opened) :
      reader.passed ≤ found.passed := by
    obtain ⟨_, _, _, _, horigin⟩ := howns _ hcursor
    obtain ⟨p, hp, -⟩ := hsteady.tells horigin
    obtain ⟨q, hq, -⟩ := hsteady.tells (horigin.moved hnext)
    have hle := hsteady.forward horigin hnext hp hq
    rw [passed, passed, hsame, inside_of_some hcursor hp, inside_of_some hafter hq]
    linarith
  cases h with
  | record hcursor hnext => exact .inr (.inr (hmoved hcursor hnext rfl rfl))
  | broken hcursor hnext => exact .inr (.inr (hmoved hcursor hnext rfl rfl))
  | unclosed hcursor hnext hclose => exact .inr (.inl (.unclosed hcursor hnext hclose))
  | finished => exact .inl rfl
  | interrupted hdrained hraised =>
    have hlength : reader.opened < reader.splits.length := by
      by_contra hle
      rw [List.drop_eq_nil_of_le (Nat.le_of_not_lt hle)] at hunopened
      cases hunopened
    exact .inr (.inl (.interrupted hdrained hlength hraised))
  | unopened =>
    exact .inr (.inr (passed_le_of_opened_lt hopened (Nat.lt_succ_self _) hinside.2 hfound.1))
  | onward _ _ _ hlater =>
    exact .inr (.inr (passed_le_of_opened_lt hopened hlater.opened_le hinside.2 hfound.1))

end

/-! ## one call -/

/-- what the fraction of a reader rests on between two calls -/
structure Metered (reader : Reader library) : Prop where
  settled : reader.Settled
  marked : reader.Marked
  fresh : reader.phase = .notStarted → reader.opened = 0 ∧ reader.frozen = 0

theorem Metered.undone (h : reader.Metered) (hactive : reader.phase = .active) :
    reader.done = false := h.marked.undone (by simp [hactive]) (by simp [hactive])

theorem Metered.opened_pos (h : reader.Metered) (hactive : reader.phase = .active) :
    0 < reader.opened := h.settled.owns.opened_pos (h.settled.cursor.1 hactive)

theorem make_metered (library : Library ℚ ε) (source : Source) (context : Context ℚ ε) :
    (make library source context).Metered :=
  ⟨make_settled library source context, make_marked library source context,
    fun _ => ⟨rfl, Ratio.zero_rat⟩⟩

theorem serve_metered (h : reader.Metered) (request : Request ℚ) (w : World ε) :
    (reader.serve request w).2.1.Metered where
  settled := serve_settled h.settled request w
  marked := serve_marked h.marked request w
  fresh hphase := by
    rw [serve_of_notStarted hphase]
    exact h.fresh (serve_of_notStarted hphase ▸ hphase)

theorem after_metered (h : reader.Metered) (turns : List (Turn ℚ ε)) :
    (reader.after turns).Metered := by
  induction turns generalizing reader with
  | nil => exact h
  | cons turn turns ih => exact ih (serve_metered h turn.request turn.world)

/-- Closing a reader keeps its fraction. -/
theorem close_fraction (reader : Reader library) (w : World ε) :
    (reader.close w).2.1.fraction = reader.fraction := by
  by_cases hclosed : reader.phase = .closed
  · rw [close_of_closed hclosed]
  · rw [close_of_open hclosed, release_reader, fraction_of_over (.inr rfl)]

theorem advance_fraction_nonneg (hactive : reader.phase = .active) (h : 0 ≤ reader.frozen)
    (w : World ε) : 0 ≤ (reader.advance w).2.1.fraction := by
  have hsearched := searched (reader.splits.drop reader.opened) reader w
  rcases hsearch : search (reader.splits.drop reader.opened) reader w with ⟨e | _ | _, found, w₁⟩
  all_goals
    rw [hsearch] at hsearched
    have hfound : 0 ≤ found.fraction := fraction_nonneg (h.trans_eq hsearched.marks.2.symm)
  · rw [advance_of_error hactive hsearch, fail_reader, fraction_of_over (.inl rfl)]
    exact hfound
  · rw [advance_of_finished hactive hsearch, fraction_of_done rfl rfl]
    exact zero_le_one
  · rw [advance_of_record hactive hsearch]
    exact hfound

theorem start_fraction_nonneg (hphase : reader.phase = .notStarted) (h : reader.frozen = 0)
    (w : World ε) : 0 ≤ (reader.start w).2.1.fraction := by
  have hfrozen : 0 ≤ (reader.resolveSplits w).2.1.frozen := by
    obtain ⟨handle, hreader⟩ := resolveSplits_reader reader w
    rw [hreader]
    exact h.ge
  rcases hresolve : reader.resolveSplits w with ⟨e | splits, found, w₁⟩
  all_goals rw [hresolve] at hfrozen
  · rw [start_of_unresolved hphase hresolve]
    exact fraction_nonneg hfrozen
  · rw [start_of_resolved hphase hresolve]
    have hbegun : ({ found with splits, phase := .active } : Reader library).phase = .active := rfl
    exact advance_fraction_nonneg hbegun hfrozen w₁

theorem advance_fraction_le (hsteady : library.Steady) (h : reader.Metered)
    (hactive : reader.phase = .active) (hlapse : ¬reader.Lapses w) :
    reader.fraction ≤ (reader.advance w).2.1.fraction := by
  have hdone := h.undone hactive
  have hopened := h.opened_pos hactive
  rw [fraction_of_active hactive hdone hopened (inside_bounds hsteady h.settled.owns)]
  have hsearched := searched (reader.splits.drop reader.opened) reader w
  rcases hsearch : search (reader.splits.drop reader.opened) reader w with ⟨e | _ | _, found, w₁⟩
  case ok.false =>
    rw [advance_of_finished hactive hsearch, fraction_of_done rfl rfl]
    exact share_le_one _ _
  all_goals
    rw [hsearch] at hsearched
    obtain ⟨hsplits, -, hphase⟩ := hsearched.frame
    have hpassed : reader.passed ≤ found.passed := by
      obtain hfinished | hlapses | hle :=
        hsearched.passed_le hsteady rfl h.settled.owns hopened
      · cases hfinished
      · exact absurd hlapses hlapse
      · exact hle
    have hfound : found.fraction = share reader.splits.length found.passed := by
      rw [← hsplits]
      exact fraction_of_active (hphase.trans hactive) (hsearched.marks.1.trans hdone)
        (hopened.trans_le hsearched.opened_le)
        (inside_bounds hsteady (hsearched.owns rfl h.settled.owns))
  · rw [advance_of_error hactive hsearch, fail_reader, fraction_of_over (.inl rfl)]
    exact (share_mono _ hpassed).trans_eq hfound.symm
  · rw [advance_of_record hactive hsearch]
    exact (share_mono _ hpassed).trans_eq hfound.symm

/-- A turn in which an active reader lapses. -/
structure LapsesIn (reader : Reader library) (turn : Turn ℚ ε) : Prop where
  request : turn.request = .advance
  active : reader.phase = .active
  lapses : reader.Lapses turn.world

/-- **The fraction does not fall in a call in which the reader does not lapse.** -/
theorem serve_fraction_le (hsteady : library.Steady) (h : reader.Metered) {turn : Turn ℚ ε}
    (hlapse : ¬reader.LapsesIn turn) :
    reader.fraction ≤ (reader.serve turn.request turn.world).2.1.fraction := by
  obtain ⟨request, w⟩ := turn
  cases request with
  | start =>
    dsimp only [serve]
    by_cases hphase : reader.phase = .notStarted
    · obtain ⟨hopened, hfrozen⟩ := h.fresh hphase
      have hdone : reader.done = false := h.marked.undone (by simp [hphase]) (by simp [hphase])
      rw [fraction_of_fresh hphase hdone hopened]
      exact start_fraction_nonneg hphase hfrozen w
    · rw [start_of_refused hphase]
  | advance =>
    dsimp only [serve]
    by_cases hactive : reader.phase = .active
    · exact advance_fraction_le hsteady h hactive fun hlapses => hlapse ⟨rfl, hactive, hlapses⟩
    · by_cases hexhausted : reader.phase = .exhausted
      · rw [advance_of_exhausted hexhausted]
      · rw [advance_of_refused hactive hexhausted]
  | close =>
    dsimp only [serve]
    rw [close_fraction]
  | current | fraction | splitPoints | splitAt => exact le_rfl

/-- A reader that lapses has failed, and its fraction is where the open split was begun. -/
theorem serve_of_lapse (h : reader.Metered) {turn : Turn ℚ ε} (hlapse : reader.LapsesIn turn) :
    (reader.serve turn.request turn.world).2.1.phase = .failed ∧
      (reader.serve turn.request turn.world).2.1.fraction = reader.begun := by
  obtain ⟨request, w⟩ := turn
  obtain ⟨hrequest, hactive, hlapses⟩ := hlapse
  dsimp only at hrequest hlapses
  subst hrequest
  dsimp only [serve]
  obtain ⟨e, w₁, hsearched⟩ := hlapses.searched
  let idle : Reader library := { reader with cursor := none }
  have hinside : idle.inside = 0 := inside_of_none rfl
  have hidle : idle.fraction = share idle.splits.length idle.passed :=
    fraction_of_active hactive (h.undone hactive) (h.opened_pos hactive) (by simp [hinside])
  rw [passed, hinside, add_zero] at hidle
  rw [advance_of_error hactive hsearched.eq, fail_reader]
  refine ⟨rfl, ?_⟩
  rw [fraction_of_over (.inl rfl)]
  exact hidle

/-! ## all calls -/

/-- The fraction of a reader that has failed stays. -/
theorem after_fraction_of_failed (h : reader.phase = .failed) (turns : List (Turn ℚ ε)) :
    (reader.after turns).fraction = reader.fraction := by
  induction turns with
  | nil => rfl
  | cons turn turns ih =>
    rw [after]
    by_cases hrequest : turn.request = .close
    · rw [serve_of_close hrequest, after_of_closed (close_done reader turn.world).1, close_fraction]
    · rw [serve_of_failed h hrequest]
      exact ih

theorem after_append (reader : Reader library) (turns later : List (Turn ℚ ε)) :
    reader.after (turns ++ later) = (reader.after turns).after later := by
  induction turns generalizing reader with
  | nil => rfl
  | cons turn turns ih => exact ih _

/-- Either the fraction does not fall, or the reader lapses on the way and then has the fraction at
which the split was begun. -/
theorem after_fraction_le_or_lapse (hsteady : library.Steady) (h : reader.Metered)
    (later : List (Turn ℚ ε)) :
    reader.fraction ≤ (reader.after later).fraction ∨
      ∃ past turn future, later = past ++ turn :: future ∧
        (reader.after past).LapsesIn turn ∧
        (reader.after later).fraction = (reader.after past).begun := by
  induction later generalizing reader with
  | nil => exact .inl le_rfl
  | cons turn later ih =>
    by_cases hlapse : reader.LapsesIn turn
    · obtain ⟨hfailed, hbegun⟩ := serve_of_lapse h hlapse
      exact .inr ⟨[], turn, later, rfl, hlapse,
        (after_fraction_of_failed hfailed later).trans hbegun⟩
    · obtain hle | ⟨past, next, future, rfl, hlater, hbegun⟩ :=
        ih (serve_metered h turn.request turn.world)
      · exact .inl ((serve_fraction_le hsteady h hlapse).trans hle)
      · exact .inr ⟨turn :: past, next, future, rfl, hlater, hbegun⟩

/-- **The fraction falls exactly where an advance lapses**: the open cursor has no more records,
reading fails before the next split is opened, and the fraction goes back to where the split was
begun.  No other call sets it back, be it a failure of another kind or the end of reading. -/
theorem fraction_falls_iff (hsteady : library.Steady) (source : Source) (context : Context ℚ ε)
    (turns later : List (Turn ℚ ε)) :
    let reader := (make library source context).after turns
    (reader.after later).fraction < reader.fraction ↔
      ∃ past turn future, later = past ++ turn :: future ∧
        (reader.after past).LapsesIn turn ∧ (reader.after past).begun < reader.fraction := by
  intro reader
  have hmetered : reader.Metered := after_metered (make_metered library source context) turns
  constructor
  · intro hfalls
    obtain hle | ⟨past, turn, future, hlater, hlapse, hbegun⟩ :=
      after_fraction_le_or_lapse hsteady hmetered later
    · exact absurd hfalls (not_lt.2 hle)
    · exact ⟨past, turn, future, hlater, hlapse, hbegun ▸ hfalls⟩
  · rintro ⟨past, turn, future, rfl, hlapse, hbegun⟩
    obtain ⟨hfailed, hfraction⟩ := serve_of_lapse (after_metered hmetered past) hlapse
    rw [after_append, after, after_fraction_of_failed hfailed, hfraction]
    exact hbegun

/-! ## a cursor that does not close -/

section
variable (ε) (fault : Fault) (split : Descriptor)

/-- a reader of a split with one record that does not close -/
def unread : Reader (Library.counted ε 1 (.error fault) [split]) :=
  make _ (Source.text "f") (.standard ℚ ε ⟨0⟩)

/-- the same reader at that record -/
def atOnly : Reader (Library.counted ε 1 (.error fault) [split]) :=
  { unread ε fault split with
    splits := [split], opened := 1, cursor := some (1 : Nat),
    current := some ⟨.long 0, .void⟩, phase := .active }

variable {ε fault split} {w : World ε}

theorem start_unread (hquiet : w.isRaised ⟨0⟩ = false) :
    ((unread ε fault split).start w).2.1 = atOnly ε fault split := by
  let begun : Reader (Library.counted ε 1 (.error fault) [split]) :=
    { unread ε fault split with splits := [split], phase := .active }
  have hresolve : (unread ε fault split).resolveSplits w =
      (.ok [split], unread ε fault split, w) := rfl
  have hopen : (Library.counted ε 1 (.error fault) [split]).openCursor split
      begun.source.overrides begun.interrupt w = (.ok (0 : Nat), w) := rfl
  have hsearched : Searched [split] begun w (.ok true, atOnly ε fault split, w) :=
    .onward (.idle rfl) hquiet hopen (.record rfl rfl)
  have hadvance : begun.advance w = (.ok true, atOnly ε fault split, w) :=
    advance_of_record rfl hsearched.eq
  rw [start_of_resolved rfl hresolve]
  show (begun.advance w).2.1 = _
  rw [hadvance]

/-- All is read but not yet ended. -/
theorem atOnly_fraction : (atOnly ε fault split).fraction = 1 - 1 / 2 ^ 53 := by
  have hinside : (atOnly ε fault split).inside = 1 :=
    inside_of_some rfl (show some ((1 : Nat) / (1 : Nat) : ℚ) = some 1 by norm_num)
  rw [fraction_of_active rfl rfl Nat.one_pos (by simp [hinside]), passed, hinside]
  show max 0 (min (1 - 1 / 2 ^ 53) (((1 - 1 : Nat) + 1) / (1 : Nat) : ℚ)) = 1 - 1 / 2 ^ 53
  norm_num

theorem atOnly_lapses : (atOnly ε fault split).Lapses w := by
  have hclose : (Library.counted ε 1 (.error fault) [split]).close (1 : Nat) w =
      ((.error fault, (1 : Nat)), w) := rfl
  exact .unclosed rfl rfl hclose

theorem atOnly_begun : (atOnly ε fault split).begun = 0 := by
  show max 0 (min (1 - 1 / 2 ^ 53) ((1 - 1 : Nat) / (1 : Nat) : ℚ)) = 0
  norm_num

end

/-- A split does not close once its only record is read. -/
theorem fraction_falls_unclosed :
    let library := Library.counted Unit 1 (.error (.of .other "stuck"))
      [.custom ⟨"part", 0, 1, "part 0", .ok []⟩]
    let w : World Unit := ⟨.empty, .empty, [], fun _ => 0, 0, ()⟩
    let reader := (make library (Source.text "f") (.standard ℚ Unit ⟨0⟩)).after [⟨.start, w⟩]
    library.Steady ∧ reader.fraction = 1 - 1 / 2 ^ 53 ∧
      (reader.after [⟨.advance, w⟩]).fraction = 0 := by
  intro library w reader
  have hquiet : w.isRaised ⟨0⟩ = false := Flags.isRaised_empty _
  have hreader : reader = atOnly _ _ _ := start_unread hquiet
  have hmetered : reader.Metered := after_metered (make_metered library _ _) _
  have hlapse : reader.LapsesIn ⟨.advance, w⟩ := by
    rw [hreader]
    exact ⟨rfl, rfl, atOnly_lapses⟩
  have hfraction := (serve_of_lapse hmetered hlapse).2
  refine ⟨Library.counted.steady _ _ _ _, ?_, ?_⟩
  · rw [hreader, atOnly_fraction]
  · show (reader.serve .advance w).2.1.fraction = 0
    rw [hfraction, hreader, atOnly_begun]

/-- The same run, with the advance that lapses told from the fall. -/
theorem fraction_falls_iff_unclosed :
    let library := Library.counted Unit 1 (.error (.of .other "stuck"))
      [.custom ⟨"part", 0, 1, "part 0", .ok []⟩]
    let w : World Unit := ⟨.empty, .empty, [], fun _ => 0, 0, ()⟩
    let reader := (make library (Source.text "f") (.standard ℚ Unit ⟨0⟩)).after [⟨.start, w⟩]
    library.Steady ∧ (reader.after [⟨.advance, w⟩, ⟨.close, w⟩]).fraction < reader.fraction := by
  intro library w reader
  have hquiet : w.isRaised ⟨0⟩ = false := Flags.isRaised_empty _
  have hreader : reader = atOnly _ _ _ := start_unread hquiet
  have hsteady : library.Steady := Library.counted.steady _ _ _ _
  refine ⟨hsteady, (fraction_falls_iff hsteady _ _ _ _).2 ?_⟩
  refine ⟨[], ⟨.advance, w⟩, [⟨.close, w⟩], rfl, ?_⟩
  show reader.LapsesIn _ ∧ reader.begun < reader.fraction
  rw [hreader, atOnly_begun, atOnly_fraction]
  exact ⟨⟨rfl, rfl, atOnly_lapses⟩, by norm_num⟩

end Reader

end Splittable
