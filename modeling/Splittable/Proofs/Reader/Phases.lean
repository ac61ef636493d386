import Splittable.Proofs.Reader.Calls

/-!
# The phases of a reader

Between two calls a reader is active exactly while it has a cursor open and a record to show, and
the cursor is one of the split that was opened last.

* `Library.CursorOf`    the cursors of a split: the one it was opened with, and what becomes of it;
* `Reader.Settled`      what holds of a reader between two calls;
* `Phase.Leads`         the phases that may follow a phase;
* `Reader.serve_settled`, `serve_leads`   a call keeps what holds, and moves the phase on;
* `Reader.phases_settled`   the phases of a reader, whatever is called.
-/

namespace Splittable

variable {ρ ε : Type}

/-- the cursor that a split was opened with, and what becomes of it as it is moved -/
inductive Library.CursorOf (library : Library ρ ε) (overrides : Overrides) (flag : Flag)
    (split : Descriptor) : library.Cursor → Prop
  | opened {w w₁ : World ε} {cursor : library.Cursor} :
      library.openCursor split overrides flag w = (.ok cursor, w₁) →
      CursorOf library overrides flag split cursor
  | moved {w w₁ : World ε} {cursor after : library.Cursor} {answer : Except Fault (Option Pair)} :
      CursorOf library overrides flag split cursor →
      library.next cursor w = ((answer, after), w₁) → CursorOf library overrides flag split after

/-- the phases that a call may lead to -/
inductive Phase.Leads : Phase → Phase → Prop
  | begins : Leads .notStarted .active
  | empty : Leads .notStarted .exhausted
  | failsToStart : Leads .notStarted .failed
  | unused : Leads .notStarted .closed
  | ends : Leads .active .exhausted
  | fails : Leads .active .failed
  | abandoned : Leads .active .closed
  | done : Leads .exhausted .closed
  | givenUp : Leads .failed .closed

theorem Phase.Leads.closed {before later : Phase} (h : before.Leads later)
    (hbefore : before = .failed ∨ before = .closed) : later = .closed := by
  cases h with
  | givenUp => rfl
  | _ => simp at hbefore

namespace Reader

variable {library : Library ρ ε} {reader : Reader library} {unopened : List Descriptor}
  {w : World ε} {outcome : Outcome library Bool}

/-- An open cursor belongs to the split opened last. -/
def Owns (reader : Reader library) : Prop :=
  ∀ cursor, reader.cursor = some cursor →
    ∃ before split, reader.opened = before + 1 ∧ reader.splits[before]? = some split ∧
      library.CursorOf reader.source.overrides reader.interrupt split cursor

/-- what holds of a reader between two calls -/
structure Settled (reader : Reader library) : Prop where
  cursor : reader.phase = .active ↔ reader.cursor.isSome = true
  current : reader.phase = .active ↔ reader.current.isSome = true
  owns : reader.Owns

theorem owns_of_cursor_none (h : reader.cursor = none) : reader.Owns := by
  intro cursor hcursor
  rw [h] at hcursor
  cases hcursor

/-- a reader without a cursor and without a record, which is not active -/
theorem settled_of_idle (hphase : reader.phase ≠ .active) (hcursor : reader.cursor = none)
    (hcurrent : reader.current = none) : reader.Settled where
  cursor := by simp [hphase, hcursor]
  current := by simp [hphase, hcurrent]
  owns := owns_of_cursor_none hcursor

/-! ## searching -/

/-- A search leaves the splits, the flag and the phase of a reader as they are. -/
theorem Searched.frame (h : Searched unopened reader w outcome) :
    outcome.2.1.splits = reader.splits ∧ outcome.2.1.interrupt = reader.interrupt ∧
      outcome.2.1.phase = reader.phase := by
  induction h with
  | onward _ _ _ _ ih => exact ih
  | _ => exact ⟨rfl, rfl, rfl⟩

theorem Searched.owns (h : Searched unopened reader w outcome)
    (hunopened : reader.splits.drop reader.opened = unopened) (howns : reader.Owns) :
    outcome.2.1.Owns := by
  induction h with
  | record hcursor hnext =>
    obtain ⟨before, split, hopened, hsplit, horigin⟩ := howns _ hcursor
    intro cursor hafter
    cases hafter
    exact ⟨before, split, hopened, hsplit, .moved horigin hnext⟩
  | broken hcursor hnext =>
    obtain ⟨before, split, hopened, hsplit, horigin⟩ := howns _ hcursor
    intro cursor hafter
    cases hafter
    exact ⟨before, split, hopened, hsplit, .moved horigin hnext⟩
  | @onward split unopened reader w w₁ w₂ cursor _ _ _ hopen _ ih =>
    obtain ⟨hsplit, hrest⟩ := of_drop_eq_cons hunopened
    refine ih hrest ?_
    intro other hother
    cases hother
    exact ⟨reader.opened, split, rfl, hsplit, .opened hopen⟩
  | unclosed | finished | interrupted | unopened => exact owns_of_cursor_none rfl

/-- With a record found there is a cursor and a record to show. -/
theorem Searched.of_true (h : Searched unopened reader w outcome) (htrue : outcome.1 = .ok true) :
    outcome.2.1.cursor.isSome = true ∧ outcome.2.1.current.isSome = true := by
  induction h with
  | record => exact ⟨rfl, rfl⟩
  | onward _ _ _ _ ih => exact ih htrue
  | _ => cases htrue

theorem Searched.of_false (h : Searched unopened reader w outcome)
    (hfalse : outcome.1 = .ok false) :
    outcome.2.1.cursor = none := by
  induction h with
  | finished => rfl
  | onward _ _ _ _ ih => exact ih hfalse
  | _ => cases hfalse

theorem Searched.of_error (h : Searched unopened reader w outcome) {e : SourceError}
    (herror : outcome.1 = .error e) : ∃ label fault, e = .read label fault := by
  induction h with
  | onward _ _ _ _ ih => exact ih herror
  | record | finished => cases herror
  | _ =>
    cases herror
    exact ⟨_, _, rfl⟩

/-! ## one call -/

variable [Ratio ρ]

theorem advance_phase (hactive : reader.phase = .active) (w : World ε) :
    (reader.advance w).2.1.phase = .active ∨ (reader.advance w).2.1.phase = .exhausted ∨
      (reader.advance w).2.1.phase = .failed := by
  have hsearched := searched (reader.splits.drop reader.opened) reader w
  rcases hsearch : search (reader.splits.drop reader.opened) reader w with ⟨e | _ | _, found, w₁⟩
  · rw [advance_of_error hactive hsearch, fail_reader]
    exact .inr (.inr rfl)
  · rw [advance_of_finished hactive hsearch]
    exact .inr (.inl rfl)
  · rw [hsearch] at hsearched
    rw [advance_of_record hactive hsearch]
    exact .inl (hsearched.frame.2.2.trans hactive)

theorem start_leads (hphase : reader.phase = .notStarted) (w : World ε) :
    Phase.Leads .notStarted (reader.start w).2.1.phase := by
  rcases hresolve : reader.resolveSplits w with ⟨e | splits, found, w₁⟩
  · rw [start_of_unresolved hphase hresolve]
    exact .failsToStart
  · rw [start_of_resolved hphase hresolve]
    have hbegun : ({ found with splits, phase := .active } : Reader library).phase = .active := rfl
    obtain hactive | hexhausted | hfailed := advance_phase hbegun w₁
    · rw [hactive]
      exact .begins
    · rw [hexhausted]
      exact .empty
    · rw [hfailed]
      exact .failsToStart

/-- **A call leaves a reader in its phase or leads on from there.** -/
theorem serve_leads (reader : Reader library) (request : Request ρ) (w : World ε) :
    (reader.serve request w).2.1.phase = reader.phase ∨
      Phase.Leads reader.phase (reader.serve request w).2.1.phase := by
  cases request with
  | start =>
    dsimp only [serve]
    by_cases hphase : reader.phase = .notStarted
    · exact .inr (hphase ▸ start_leads hphase w)
    · rw [start_of_refused hphase]
      exact .inl rfl
  | advance =>
    dsimp only [serve]
    by_cases hactive : reader.phase = .active
    · obtain hphase | hphase | hphase := advance_phase hactive w
      · exact .inl (hphase.trans hactive.symm)
      · exact .inr (by rw [hactive, hphase]; exact .ends)
      · exact .inr (by rw [hactive, hphase]; exact .fails)
    · by_cases hexhausted : reader.phase = .exhausted
      · rw [advance_of_exhausted hexhausted]
        exact .inl rfl
      · rw [advance_of_refused hactive hexhausted]
        exact .inl rfl
  | close =>
    dsimp only [serve]
    by_cases hclosed : reader.phase = .closed
    · rw [close_of_closed hclosed]
      exact .inl rfl
    · rw [close_of_open hclosed, release_reader]
      right
      dsimp only
      cases hbefore : reader.phase with
      | notStarted => exact .unused
      | active => exact .abandoned
      | exhausted => exact .done
      | failed => exact .givenUp
      | closed => exact absurd hbefore hclosed
  | current | fraction | splitPoints | splitAt => exact .inl rfl

theorem advance_settled (hactive : reader.phase = .active) (howns : reader.Owns) (w : World ε) :
    (reader.advance w).2.1.Settled := by
  have hsearched := searched (reader.splits.drop reader.opened) reader w
  rcases hsearch : search (reader.splits.drop reader.opened) reader w with ⟨e | _ | _, found, w₁⟩
  · rw [advance_of_error hactive hsearch, fail_reader]
    exact settled_of_idle (fun h => by cases h) rfl rfl
  · rw [advance_of_finished hactive hsearch]
    rw [hsearch] at hsearched
    have hcursor : found.cursor = none := hsearched.of_false rfl
    exact settled_of_idle (fun h => by cases h) hcursor rfl
  · rw [advance_of_record hactive hsearch]
    rw [hsearch] at hsearched
    have hphase : found.phase = .active := hsearched.frame.2.2.trans hactive
    obtain ⟨hcursor, hcurrent⟩ := hsearched.of_true rfl
    exact ⟨by simp [hphase, hcursor], by simp [hphase, hcurrent], hsearched.owns rfl howns⟩

theorem start_settled (hphase : reader.phase = .notStarted) (h : reader.Settled) (w : World ε) :
    (reader.start w).2.1.Settled := by
  have hresolved : (reader.resolveSplits w).2.1.cursor = none ∧
      (reader.resolveSplits w).2.1.current = none := by
    obtain ⟨handle, hreader⟩ := resolveSplits_reader reader w
    rw [hreader]
    simpa [hphase] using And.intro h.cursor h.current
  rcases hresolve : reader.resolveSplits w with ⟨e | splits, found, w₁⟩
  · rw [hresolve] at hresolved
    rw [start_of_unresolved hphase hresolve]
    exact settled_of_idle (fun h => by cases h) hresolved.1 hresolved.2
  · rw [hresolve] at hresolved
    rw [start_of_resolved hphase hresolve]
    -- the reader is active here before it has a cursor, so it is settled only by its first search
    have hbegun : ({ found with splits, phase := .active } : Reader library).phase = .active := rfl
    exact advance_settled hbegun (owns_of_cursor_none hresolved.1) w₁

/-- **A call keeps what holds of a reader.** -/
theorem serve_settled (h : reader.Settled) (request : Request ρ) (w : World ε) :
    (reader.serve request w).2.1.Settled := by
  cases request with
  | start =>
    dsimp only [serve]
    by_cases hphase : reader.phase = .notStarted
    · exact start_settled hphase h w
    · rw [start_of_refused hphase]
      exact h
  | advance =>
    dsimp only [serve]
    by_cases hactive : reader.phase = .active
    · exact advance_settled hactive h.owns w
    · by_cases hexhausted : reader.phase = .exhausted
      · rw [advance_of_exhausted hexhausted]
        exact h
      · rw [advance_of_refused hactive hexhausted]
        exact h
  | close =>
    dsimp only [serve]
    by_cases hclosed : reader.phase = .closed
    · rw [close_of_closed hclosed]
      exact h
    · rw [close_of_open hclosed, release_reader]
      exact settled_of_idle (fun h => by cases h) rfl rfl
  | current | fraction | splitPoints | splitAt => exact h

/-! ## all calls -/

theorem make_settled (library : Library ρ ε) (source : Source) (context : Context ρ ε) :
    (make library source context).Settled :=
  settled_of_idle (fun h => by cases h) rfl rfl

theorem after_settled (h : reader.Settled) (turns : List (Turn ρ ε)) :
    (reader.after turns).Settled := by
  induction turns generalizing reader with
  | nil => exact h
  | cons turn turns ih => exact ih (serve_settled h turn.request turn.world)

omit [Ratio ρ] in
theorem current_iff (h : reader.Settled) :
    (∃ pair, reader.current? = .ok pair) ↔ reader.phase = .active := by
  constructor
  · rintro ⟨pair, hpair⟩
    unfold current? at hpair
    split at hpair
    · assumption
    · cases hpair
  · intro hactive
    obtain ⟨pair, hpair⟩ := Option.isSome_iff_exists.1 (h.current.1 hactive)
    exact ⟨pair, by simp only [current?, hactive, hpair]⟩

omit [Ratio ρ] in
theorem resolveSplits_ne_illegal (operation : String) (phase : Phase) :
    (reader.resolveSplits w).1 ≠ .error (.illegalState operation phase) := by
  unfold resolveSplits
  cases reader.source.split with
  | some handle =>
    dsimp only
    rcases handle.split reader.decoders w with ⟨⟨error | split, handle'⟩, w₁⟩
    · exact fun h => by cases h
    · exact fun h => by cases h
  | none =>
    dsimp only
    rcases library.discover reader.source.resourceText reader.source.overrides none w with
      ⟨fault | splits, w₁⟩
    · exact fun h => by cases h
    · exact fun h => by cases h

theorem advance_of_illegal {operation : String} {phase : Phase}
    (h : (reader.advance w).1 = .error (.illegalState operation phase)) :
    reader.phase ≠ .active ∧ reader.phase ≠ .exhausted := by
  constructor
  · intro hactive
    have hsearched := searched (reader.splits.drop reader.opened) reader w
    rcases hsearch : search (reader.splits.drop reader.opened) reader w with ⟨e | _ | _, found, w₁⟩
    · rw [hsearch] at hsearched
      obtain ⟨label, fault, rfl⟩ := hsearched.of_error rfl
      rw [advance_of_error hactive hsearch] at h
      cases h
    · rw [advance_of_finished hactive hsearch] at h
      cases h
    · rw [advance_of_record hactive hsearch] at h
      cases h
  · intro hexhausted
    rw [advance_of_exhausted hexhausted] at h
    cases h

theorem start_of_illegal {operation : String} {phase : Phase}
    (h : (reader.start w).1 = .error (.illegalState operation phase)) :
    reader.phase ≠ .notStarted := by
  intro hphase
  rcases hresolve : reader.resolveSplits w with ⟨e | splits, found, w₁⟩
  · rw [start_of_unresolved hphase hresolve] at h
    cases h
    exact resolveSplits_ne_illegal operation phase (by rw [hresolve])
  · rw [start_of_resolved hphase hresolve] at h
    exact (advance_of_illegal h).1 rfl

/-- A call that does not touch anything: it is refused, or there is nothing to be done. -/
inductive Idle (reader : Reader library) (request : Request ρ) (w : World ε) : Prop
  | refused {operation : String} {phase : Phase} :
      (reader.serve request w).1 = .moved (.error (.illegalState operation phase)) → Idle _ _ _
  | exhausted : request = .advance → reader.phase = .exhausted → Idle _ _ _
  | closed : request = .close → reader.phase = .closed → Idle _ _ _

theorem Idle.untouched {request : Request ρ} (h : reader.Idle request w) :
    (reader.serve request w).2 = (reader, w) := by
  cases h with
  | refused hrefused =>
    cases request with
    | start =>
      rw [serve, start_of_refused (start_of_illegal (Reply.moved.inj hrefused))]
    | advance =>
      obtain ⟨hactive, hexhausted⟩ := advance_of_illegal (Reply.moved.inj hrefused)
      rw [serve, advance_of_refused hactive hexhausted]
    | _ => cases hrefused
  | exhausted hrequest hexhausted =>
    subst hrequest
    rw [serve, advance_of_exhausted hexhausted]
  | closed hrequest hclosed =>
    subst hrequest
    rw [serve, close_of_closed hclosed]

/-- **The phases of a reader, whatever was called before**: it is active exactly while a cursor is
open and exactly while there is a record, the cursor belongs to the split opened last, the phase
moves in one direction only, and calls that are refused or have nothing to do touch neither the
reader nor the world. -/
theorem phases_settled (library : Library ρ ε) (source : Source) (context : Context ρ ε)
    (turns : List (Turn ρ ε)) :
    let reader := (make library source context).after turns
    (reader.phase = .active ↔ reader.cursor.isSome = true) ∧
    (reader.phase = .active ↔ reader.current.isSome = true) ∧
    (∀ cursor, reader.cursor = some cursor →
      ∃ before split, reader.opened = before + 1 ∧ reader.splits[before]? = some split ∧
        library.CursorOf reader.source.overrides reader.interrupt split cursor) ∧
    ((∃ pair, reader.current? = .ok pair) ↔ reader.phase = .active) ∧
    (∀ request w, (reader.serve request w).2.1.phase = reader.phase ∨
      Phase.Leads reader.phase (reader.serve request w).2.1.phase) ∧
    ∀ request w, reader.Idle request w → (reader.serve request w).2 = (reader, w) := by
  have h := after_settled (make_settled library source context) turns
  exact ⟨h.cursor, h.current, h.owns, current_iff h,
    serve_leads _, fun _ _ hidle => hidle.untouched⟩

end Reader

end Splittable
