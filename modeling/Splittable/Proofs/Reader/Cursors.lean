import Splittable.Proofs.Reader.Traced
import Mathlib.Data.List.Induction

/-!
# Cursors are opened and closed in turn

Whatever is called, a reader opens the splits in their order, each once, and closes every cursor
that it has opened before it opens the next split.

* `InTurn`                       events of one cursor at a time, one rule for each event;
* `openAfter`, `Orderly`         the cursors that are open after some events, and what a list of
  events must be like once a reader is done with;
* `Reader.Tracked`               what holds of a traced reader and its events;
* `Reader.cursors_in_turn`       the cursors of a reader, whatever is called.
-/

namespace Splittable

variable {ρ ε : Type}

open CursorEvent (openings)

/-- Events of one cursor at a time, the splits that they open, and the cursor that is left open. -/
inductive InTurn : List CursorEvent → List Descriptor → Option Nat → Prop
  | nothing : InTurn [] [] none
  | opened {events : List CursorEvent} {splits : List Descriptor} (split : Descriptor) :
      InTurn events splits none →
      InTurn (events ++ [.opened split splits.length]) (splits ++ [split]) (some splits.length)
  | refused {events : List CursorEvent} {splits : List Descriptor} (split : Descriptor) :
      InTurn events splits none → InTurn (events ++ [.refused split]) (splits ++ [split]) none
  | closed {events : List CursorEvent} {splits : List Descriptor} {number : Nat} :
      InTurn events splits (some number) → InTurn (events ++ [.closed number]) splits none

/-- the numbers of the cursors that are open after some events -/
def openAfter (events : List CursorEvent) : List Nat :=
  events.foldl (fun numbers event =>
    match event with
    | .opened _ number => number :: numbers
    | .refused _ => numbers
    | .closed number => numbers.erase number) []

namespace CursorEvent

def opens (number : Nat) : CursorEvent → Bool
  | .opened _ n => n == number
  | _ => false

def closes (number : Nat) : CursorEvent → Bool
  | .closed n => n == number
  | _ => false

end CursorEvent

/-- Events after which everything is closed: the splits were opened in their order, each once and
none left out, never was more than one cursor open, none when a split was opened, and every cursor
that was opened was closed once. -/
structure Orderly (events : List CursorEvent) (splits : List Descriptor) : Prop where
  openings : openings events = splits
  one : ∀ past, past <+: events → (openAfter past).length ≤ 1
  before : ∀ past event, past ++ [event] <+: events → event.split?.isSome = true →
    openAfter past = []
  after : openAfter events = []
  once : ∀ number, events.any (CursorEvent.opens number) = true →
    events.countP (CursorEvent.closes number) = 1

namespace InTurn

variable {events : List CursorEvent} {splits : List Descriptor} {left : Option Nat}

theorem openings (h : InTurn events splits left) : openings events = splits := by
  induction h with
  | nothing => rfl
  | opened split _ ih | refused split _ ih =>
    rw [CursorEvent.openings_append, ih]
    rfl
  | closed _ ih =>
    rw [CursorEvent.openings_append, ih]
    exact List.append_nil _

theorem openAfter (h : InTurn events splits left) : openAfter events = left.toList := by
  induction h with
  | nothing => rfl
  | opened split _ ih | refused split _ ih | closed _ ih =>
    unfold Splittable.openAfter at ih ⊢
    rw [List.foldl_append, ih]
    simp

/-- The events so far are as those after them. -/
theorem past {past future : List CursorEvent} (h : InTurn (past ++ future) splits left) :
    ∃ splits' left', InTurn past splits' left' := by
  induction future using List.reverseRecOn generalizing splits left with
  | nil =>
    rw [List.append_nil] at h
    exact ⟨_, _, h⟩
  | append_singleton future event ih =>
    rw [← List.append_assoc] at h
    generalize hwhole : past ++ future ++ [event] = whole at h
    cases h with
    | nothing => simp at hwhole
    | opened split h | refused split h | closed h =>
      obtain ⟨rfl, -⟩ := List.append_inj' hwhole rfl
      exact ih h

/-- A cursor is opened where none is open. -/
theorem idle_of_opening {event : CursorEvent} (h : InTurn (events ++ [event]) splits left)
    (hopening : event.split?.isSome = true) : ∃ splits', InTurn events splits' none := by
  generalize hwhole : events ++ [event] = whole at h
  cases h with
  | nothing => simp at hwhole
  | opened split h | refused split h =>
    obtain ⟨rfl, -⟩ := List.append_inj' hwhole rfl
    exact ⟨_, h⟩
  | closed h =>
    obtain ⟨-, hevent⟩ := List.append_inj' hwhole rfl
    cases hevent
    cases hopening

/-- A number is given once, and closed once unless its cursor is the one that is open. -/
theorem count_closes (h : InTurn events splits left) (number : Nat) :
    events.countP (CursorEvent.closes number) + (if left = some number then 1 else 0) =
        events.countP (CursorEvent.opens number) ∧
      events.countP (CursorEvent.opens number) ≤ 1 ∧
      (splits.length ≤ number → events.countP (CursorEvent.opens number) = 0) := by
  induction h with
  | nothing => simp
  | @opened events splits split h ih =>
    obtain ⟨hcount, hone, hnone⟩ := ih
    simp only [List.countP_append, List.countP_singleton, CursorEvent.closes, CursorEvent.opens,
      List.length_append, List.length_singleton, beq_iff_eq, Option.some.injEq, reduceCtorEq,
      Bool.false_eq_true, if_false] at hcount ⊢
    by_cases hnumber : splits.length = number
    · have hfresh := hnone (Nat.le_of_eq hnumber)
      simp only [if_pos hnumber]
      omega
    · simp only [if_neg hnumber]
      omega
  | refused split _ ih =>
    obtain ⟨hcount, hone, hnone⟩ := ih
    simp only [List.countP_append, List.countP_singleton, CursorEvent.closes, CursorEvent.opens,
      List.length_append, List.length_singleton, reduceCtorEq, Bool.false_eq_true, if_false]
      at hcount ⊢
    omega
  | @closed events splits n h ih =>
    obtain ⟨hcount, hone, hnone⟩ := ih
    simp only [List.countP_append, List.countP_singleton, CursorEvent.closes, CursorEvent.opens,
      beq_iff_eq, Option.some.injEq, reduceCtorEq, Bool.false_eq_true, if_false] at hcount ⊢
    by_cases hnumber : n = number
    · simp only [if_pos hnumber] at hcount ⊢
      omega
    · simp only [if_neg hnumber] at hcount ⊢
      omega

theorem orderly (h : InTurn events splits none) : Orderly events splits where
  openings := h.openings
  one past hpast := by
    obtain ⟨future, rfl⟩ := hpast
    obtain ⟨_, left, hin⟩ := h.past
    rw [hin.openAfter]
    cases left with
    | none => simp
    | some number => simp
  before past event hpast hopening := by
    obtain ⟨future, rfl⟩ := hpast
    obtain ⟨_, _, hin⟩ := h.past
    obtain ⟨_, hidle⟩ := hin.idle_of_opening hopening
    exact hidle.openAfter
  after := h.openAfter
  once number hopened := by
    obtain ⟨hcount, hone, -⟩ := h.count_closes number
    have hpos : 0 < events.countP (CursorEvent.opens number) := by
      rw [List.countP_pos_iff]
      exact List.any_eq_true.1 hopened
    simp only [reduceCtorEq, if_false] at hcount
    omega

end InTurn

namespace Reader

variable {library : Library ρ ε} {reader : Reader library.traced} {w w₁ : World (Traced ε)}

/-! ## what is noted -/

section
variable {c after : library.traced.Cursor}

theorem next_traced {answer : Except Fault (Option Pair)}
    (h : library.traced.next c w = ((answer, after), w₁)) :
    Library.number after = Library.number c ∧ w₁.events = w.events := by
  cases h
  exact ⟨rfl, rfl⟩

theorem close_traced {answer : Except Fault Unit}
    (h : library.traced.close c w = ((answer, after), w₁)) :
    w₁.events = w.events ++ [.closed (Library.number c)] := by
  cases h
  rfl

theorem openCursor_traced_error {split : Descriptor} {overrides : Overrides} {flag : Flag}
    {fault : Fault} (h : library.traced.openCursor split overrides flag w = (.error fault, w₁)) :
    w₁.events = w.events ++ [.refused split] := by
  dsimp only [Library.traced] at h
  rcases hopen : library.openCursor split overrides flag w.bare with ⟨fault | cursor, v⟩
  · rw [hopen] at h
    cases h
    rfl
  · rw [hopen] at h
    cases h

theorem openCursor_traced_ok {split : Descriptor} {overrides : Overrides} {flag : Flag}
    (h : library.traced.openCursor split overrides flag w = (.ok c, w₁)) :
    Library.number c = (openings w.events).length ∧
      w₁.events = w.events ++ [.opened split (Library.number c)] := by
  dsimp only [Library.traced] at h
  rcases hopen : library.openCursor split overrides flag w.bare with ⟨fault | cursor, v⟩
  · rw [hopen] at h
    cases h
  · rw [hopen] at h
    cases h
    exact ⟨rfl, rfl⟩

end

/-! ## one cursor at a time -/

/-- The events are those of opening the splits up to now in turn, and the cursor that is open is the
one left. -/
def Tidy (reader : Reader library.traced) (events : List CursorEvent) : Prop :=
  InTurn events (reader.splits.take reader.opened) (reader.cursor.map Library.number)

theorem Tidy.idle {events : List CursorEvent} (h : reader.Tidy events)
    (hcursor : reader.cursor = none) :
    InTurn events (reader.splits.take reader.opened) none := by
  unfold Tidy at h
  rwa [hcursor] at h

theorem Tidy.close {events : List CursorEvent} {c : library.traced.Cursor} (h : reader.Tidy events)
    (hcursor : reader.cursor = some c) :
    InTurn (events ++ [.closed (Library.number c)]) (reader.splits.take reader.opened) none := by
  unfold Tidy at h
  rw [hcursor] at h
  exact .closed h

theorem Drained.inTurn (hdrained : reader.Drained w w₁) (h : reader.Tidy w.events) :
    InTurn w₁.events (reader.splits.take reader.opened) none := by
  cases hdrained with
  | idle hcursor => exact h.idle hcursor
  | closed hcursor hnext hclose =>
    obtain ⟨hnumber, hevents⟩ := next_traced hnext
    rw [close_traced hclose, hnumber, hevents]
    exact h.close hcursor

theorem Searched.tidy {unopened : List Descriptor} {outcome : Outcome library.traced Bool}
    (hsearched : Searched unopened reader w outcome)
    (hunopened : reader.splits.drop reader.opened = unopened) (h : reader.Tidy w.events) :
    outcome.2.1.Tidy outcome.2.2.events := by
  induction hsearched with
  | record hcursor hnext | broken hcursor hnext =>
    obtain ⟨hnumber, hevents⟩ := next_traced hnext
    unfold Tidy at h ⊢
    rw [hcursor] at h
    dsimp only [Option.map_some]
    rw [hnumber, hevents]
    exact h
  | unclosed hcursor hnext hclose =>
    obtain ⟨hnumber, hevents⟩ := next_traced hnext
    show InTurn _ _ none
    rw [close_traced hclose, hnumber, hevents]
    exact h.close hcursor
  | finished hdrained | interrupted hdrained => exact hdrained.inTurn h
  | @unopened split _ reader _ _ _ _ hdrained _ hopen =>
    obtain ⟨hsplit, -⟩ := of_drop_eq_cons hunopened
    show InTurn _ (reader.splits.take (reader.opened + 1)) none
    rw [openCursor_traced_error hopen, List.take_add_one, hsplit]
    exact .refused split (hdrained.inTurn h)
  | @onward split _ reader _ _ _ c _ hdrained _ hopen _ ih =>
    obtain ⟨hsplit, hrest⟩ := of_drop_eq_cons hunopened
    refine ih hrest ?_
    have hidle := hdrained.inTurn h
    obtain ⟨hnumber, hevents⟩ := openCursor_traced_ok hopen
    rw [hidle.openings] at hnumber
    show InTurn _ (reader.splits.take (reader.opened + 1)) (some (Library.number c))
    rw [hevents, hnumber, List.take_add_one, hsplit]
    exact .opened split hidle

theorem release_tidy (h : reader.Tidy w.events) :
    InTurn (reader.release w).2.2.events (reader.splits.take reader.opened) none := by
  cases hcursor : reader.cursor with
  | none =>
    simp only [release, hcursor]
    exact h.idle hcursor
  | some c =>
    rcases hclose : library.traced.close c w with ⟨⟨fault | _, closed⟩, w₁⟩
    · simp only [release, hcursor, hclose]
      rw [close_traced hclose]
      exact h.close hcursor
    · simp only [release, hcursor, hclose]
      rw [close_traced hclose]
      exact h.close hcursor

/-- A reader that is dropped closes what it would release. -/
theorem drop_events (reader : Reader library.traced) (w : World (Traced ε)) :
    (reader.drop w).events = (reader.release w).2.2.events := by
  unfold drop release
  cases reader.cursor with
  | none => rfl
  | some c =>
    dsimp only
    rcases library.traced.close c w with ⟨⟨fault | _, closed⟩, w₁⟩
    · rfl
    · rfl

theorem drop_tidy (h : reader.Tidy w.events) :
    InTurn (reader.drop w).events (reader.splits.take reader.opened) none := by
  rw [drop_events]
  exact release_tidy h

section
variable [Ratio ρ]

/-- A reader that has failed closes what it would release. -/
theorem fail_events (reader : Reader library.traced) (w : World (Traced ε)) :
    (reader.fail w).2.events = (reader.release w).2.2.events := by
  unfold fail release
  cases reader.cursor with
  | none => rfl
  | some c =>
    dsimp only
    rcases library.traced.close c w with ⟨⟨fault | _, closed⟩, w₁⟩
    · rfl
    · rfl

theorem fail_tidy (h : reader.Tidy w.events) :
    InTurn (reader.fail w).2.events (reader.splits.take reader.opened) none := by
  rw [fail_events]
  exact release_tidy h

theorem advance_tidy (h : reader.Tidy w.events) :
    (reader.advance w).2.1.Tidy (reader.advance w).2.2.events := by
  by_cases hactive : reader.phase = .active
  · have hfound := (searched (reader.splits.drop reader.opened) reader w).tidy rfl h
    rcases hsearch : search (reader.splits.drop reader.opened) reader w with ⟨e | _ | _, found, w₁⟩
    all_goals rw [hsearch] at hfound
    · rw [advance_of_error hactive hsearch]
      show Tidy (found.fail w₁).1 _
      rw [fail_reader]
      exact fail_tidy hfound
    · rw [advance_of_finished hactive hsearch]
      exact hfound
    · rw [advance_of_record hactive hsearch]
      exact hfound
  · by_cases hexhausted : reader.phase = .exhausted
    · rw [advance_of_exhausted hexhausted]
      exact h
    · rw [advance_of_refused hactive hexhausted]
      exact h

end

/-- what holds of a traced reader and of the events up to now -/
structure Tracked (reader : Reader library.traced) (events : List CursorEvent) : Prop where
  settled : reader.Settled
  tidy : reader.Tidy events
  fresh : reader.phase = .notStarted → reader.opened = 0 ∧
    ∃ decoders : Decoders ε, reader.decoders = decoders.traced

theorem Tracked.cursor_none {events : List CursorEvent} (h : reader.Tracked events)
    (hphase : reader.phase ≠ .active) : reader.cursor = none := by
  simpa [hphase] using h.settled.cursor

/-- Resolving splits opens no cursor. -/
theorem resolveSplits_events {decoders : Decoders ε} (h : reader.decoders = decoders.traced) :
    (reader.resolveSplits w).2.2.events = w.events := by
  unfold resolveSplits
  cases reader.source.split with
  | some handle =>
    dsimp only
    rw [h, Handle.split_traced]
    rcases handle.split decoders w.bare with ⟨⟨error | split, handle'⟩, w₁⟩
    · rfl
    · rfl
  | none =>
    dsimp only [Library.traced, Act.untraced]
    rcases library.discover reader.source.resourceText reader.source.overrides none w.bare with
      ⟨fault | splits, w₁⟩
    · rfl
    · rfl

variable [Ratio ρ]

theorem start_tidy (h : reader.Tracked w.events) :
    (reader.start w).2.1.Tidy (reader.start w).2.2.events := by
  by_cases hphase : reader.phase = .notStarted
  · obtain ⟨hopened, decoders, hdecoders⟩ := h.fresh hphase
    have hcursor : reader.cursor = none := h.cursor_none (by rw [hphase]; exact fun h => by cases h)
    have hevents := resolveSplits_events (w := w) hdecoders
    obtain ⟨handle, hreader⟩ := resolveSplits_reader reader w
    have hnothing : InTurn w.events [] none := by
      have htidy := h.tidy.idle hcursor
      rwa [hopened, List.take_zero] at htidy
    rcases hresolve : reader.resolveSplits w with ⟨e | splits, found, w₁⟩
    all_goals
      rw [hresolve] at hevents hreader
      dsimp only at hevents hreader
      subst hreader
      rw [← hevents] at hnothing
    · rw [start_of_unresolved hphase hresolve]
      show InTurn w₁.events (reader.splits.take reader.opened) (reader.cursor.map Library.number)
      rw [hopened, hcursor]
      exact hnothing
    · rw [start_of_resolved hphase hresolve]
      refine advance_tidy ?_
      show InTurn w₁.events (splits.take reader.opened) (reader.cursor.map Library.number)
      rw [hopened, hcursor]
      exact hnothing
  · rw [start_of_refused hphase]
    exact h.tidy

theorem close_tidy (h : reader.Tracked w.events) :
    (reader.close w).2.1.Tidy (reader.close w).2.2.events ∧
      InTurn (reader.close w).2.2.events (reader.splits.take reader.opened) none := by
  by_cases hclosed : reader.phase = .closed
  · rw [close_of_closed hclosed]
    exact ⟨h.tidy, h.tidy.idle (h.cursor_none (by rw [hclosed]; exact fun h => by cases h))⟩
  · have hreleased :
        InTurn (reader.close w).2.2.events (reader.splits.take reader.opened) none := by
      rw [close_of_open hclosed]
      exact release_tidy h.tidy
    refine ⟨?_, hreleased⟩
    rw [close_of_open hclosed] at hreleased ⊢
    unfold Tidy
    rw [release_reader]
    exact hreleased

/-- **A call keeps one cursor at a time.** -/
theorem serve_tracked (h : reader.Tracked w.events) (request : Request ρ) :
    (reader.serve request w).2.1.Tracked (reader.serve request w).2.2.events where
  settled := serve_settled h.settled request w
  tidy := by
    cases request with
    | start => exact start_tidy h
    | advance => exact advance_tidy h.tidy
    | close => exact (close_tidy h).1
    | current | fraction | splitPoints | splitAt => exact h.tidy
  fresh hphase := by
    rw [serve_of_notStarted hphase]
    exact h.fresh (serve_of_notStarted hphase ▸ hphase)

theorem trace_tracked {events : List CursorEvent} (h : reader.Tracked events)
    (turns : List (Turn ρ ε)) :
    (reader.trace events turns).2.1.Tracked (reader.trace events turns).2.2 := by
  induction turns generalizing reader events with
  | nil => exact h
  | cons turn turns ih => exact ih (serve_tracked (w := turn.world.traced events) h turn.request)

theorem make_tracked (library : Library ρ ε) (source : Source) (context : Context ρ ε) :
    (make library.traced source context.traced).Tracked [] where
  settled := make_settled _ source context.traced
  tidy := .nothing
  fresh _ := ⟨rfl, context.decoders, rfl⟩

/-! ## a reader that is done -/

section
variable {library : Library ρ ε} {reader : Reader library} {w : World ε}

/-- reading has failed or was ended -/
def Over (reader : Reader library) : Prop := reader.phase = .failed ∨ reader.phase = .closed

/-- No call to a reader that is over opens a split. -/
theorem Over.serve (h : reader.Over) (request : Request ρ) :
    (reader.serve request w).2.1.Over ∧ (reader.serve request w).2.1.splits = reader.splits ∧
      (reader.serve request w).2.1.opened = reader.opened := by
  have hphase :
      reader.phase ≠ .notStarted ∧ reader.phase ≠ .active ∧ reader.phase ≠ .exhausted := by
    obtain h | h := h
    · rw [h]
      simp
    · rw [h]
      simp
  cases request with
  | start =>
    dsimp only [Reader.serve]
    rw [start_of_refused hphase.1]
    exact ⟨h, rfl, rfl⟩
  | advance =>
    dsimp only [Reader.serve]
    rw [advance_of_refused hphase.2.1 hphase.2.2]
    exact ⟨h, rfl, rfl⟩
  | close =>
    dsimp only [Reader.serve]
    by_cases hclosed : reader.phase = .closed
    · rw [close_of_closed hclosed]
      exact ⟨h, rfl, rfl⟩
    · rw [close_of_open hclosed, release_reader]
      exact ⟨.inr rfl, rfl, rfl⟩
  | current | fraction | splitPoints | splitAt => exact ⟨h, rfl, rfl⟩

/-- A call after which a reader is over: it closes the reader, or fails although it was allowed. -/
inductive Ends (reader : Reader library) (request : Request ρ) (w : World ε) : Prop
  | closes : request = .close → Ends _ _ _
  | fails {e : SourceError} : (reader.serve request w).1 = .moved (.error e) →
      (∀ operation phase, e ≠ .illegalState operation phase) → Ends _ _ _

theorem advance_over {e : SourceError} (h : (reader.advance w).1 = .error e)
    (he : ∀ operation phase, e ≠ .illegalState operation phase) : (reader.advance w).2.1.Over := by
  by_cases hactive : reader.phase = .active
  · rcases hsearch : search (reader.splits.drop reader.opened) reader w with ⟨e | _ | _, found, w₁⟩
    · rw [advance_of_error hactive hsearch, fail_reader]
      exact .inl rfl
    · rw [advance_of_finished hactive hsearch] at h
      cases h
    · rw [advance_of_record hactive hsearch] at h
      cases h
  · by_cases hexhausted : reader.phase = .exhausted
    · rw [advance_of_exhausted hexhausted] at h
      cases h
    · rw [advance_of_refused hactive hexhausted] at h
      cases h
      exact absurd rfl (he _ _)

theorem Ends.over {request : Request ρ} (h : reader.Ends request w) :
    (reader.serve request w).2.1.Over := by
  cases h with
  | closes hrequest =>
    subst hrequest
    dsimp only [Reader.serve]
    by_cases hclosed : reader.phase = .closed
    · rw [close_of_closed hclosed]
      exact .inr hclosed
    · rw [close_of_open hclosed, release_reader]
      exact .inr rfl
  | @fails e herror he =>
    cases request with
    | start =>
      replace herror : (reader.start w).1 = .error e := Reply.moved.inj herror
      dsimp only [Reader.serve]
      by_cases hphase : reader.phase = .notStarted
      · rcases hresolve : reader.resolveSplits w with ⟨e | splits, found, w₁⟩
        · rw [start_of_unresolved hphase hresolve]
          exact .inl rfl
        · rw [start_of_resolved hphase hresolve] at herror ⊢
          exact advance_over herror he
      · rw [start_of_refused hphase] at herror
        cases herror
        exact absurd rfl (he _ _)
    | advance => exact advance_over (Reply.moved.inj herror) he
    | _ => cases herror

end

theorem Over.trace (h : reader.Over) (events : List CursorEvent) (turns : List (Turn ρ ε)) :
    (reader.trace events turns).2.1.splits = reader.splits ∧
      (reader.trace events turns).2.1.opened = reader.opened := by
  induction turns generalizing reader events with
  | nil => exact ⟨rfl, rfl⟩
  | cons turn turns ih =>
    obtain ⟨hover, hsplits, hopened⟩ := h.serve (w := turn.world.traced events) turn.request
    obtain ⟨hsplits', hopened'⟩ := ih hover _
    rw [trace_cons]
    exact ⟨hsplits'.trans hsplits, hopened'.trans hopened⟩

/-- A call that ends a reader ends the traced one. -/
theorem trace_over (library : Library ρ ε) (source : Source) (context : Context ρ ε)
    (turns : List (Turn ρ ε)) (turn : Turn ρ ε)
    (h : ((make library source context).after turns).Ends turn.request turn.world) :
    ((make library.traced source context.traced).trace [] (turns ++ [turn])).2.1.Over := by
  obtain ⟨-, hlike, hsplits⟩ := trace_like (like_traced library source context)
    (fun _ => likeSplits_traced library source context) [] turns
  rw [trace_append]
  have hworlds : (library.tracing source.overrides context.interrupt).worlds
      (turn.world.traced ((make library.traced source context.traced).trace [] turns).2.2)
      turn.world := rfl
  obtain ⟨-, hserved, -⟩ := serve_like hlike hsplits hworlds turn.request
  have hover := h.over
  unfold Over at hover ⊢
  rwa [← hserved.phase] at hover

/-- **The cursors of a reader, whatever is called**: a reader that is dropped or closed has opened
the splits in their order, one cursor at a time, and has closed every cursor once, before it opened
the next.  After a call that ends it, nothing is opened any more.  This is seen by tracing, which
the replies of the reader do not show. -/
theorem cursors_in_turn (library : Library ρ ε) (source : Source) (context : Context ρ ε) :
    let made := make library source context
    let traced := make library.traced source context.traced
    (∀ turns : List (Turn ρ ε),
      let (replies, reader, events) := traced.trace [] turns
      replies = made.replies turns ∧
      (∀ w : World ε, Orderly (reader.drop (w.traced events)).events
        (reader.splits.take reader.opened)) ∧
      ∀ w : World ε, Orderly (reader.close (w.traced events)).2.2.events
        (reader.splits.take reader.opened)) ∧
    ∀ (turns later : List (Turn ρ ε)) (turn : Turn ρ ε),
      (made.after turns).Ends turn.request turn.world →
        openings (traced.trace [] (turns ++ turn :: later)).2.2 =
          openings (traced.trace [] (turns ++ [turn])).2.2 := by
  intro made traced
  have htracked := fun turns => trace_tracked (make_tracked library source context) turns
  refine ⟨fun turns => ⟨trace_replies library source context turns, fun w => ?_, fun w => ?_⟩, ?_⟩
  · exact (drop_tidy (w := w.traced _) (htracked turns).tidy).orderly
  · exact (close_tidy (w := w.traced _) (htracked turns)).2.orderly
  · intro turns later turn hends
    have hover : (traced.trace [] (turns ++ [turn])).2.1.Over :=
      trace_over library source context turns turn hends
    obtain ⟨hsplits, hopened⟩ := hover.trace (traced.trace [] (turns ++ [turn])).2.2 later
    rw [← trace_append, List.append_assoc, List.singleton_append] at hsplits hopened
    rw [(htracked _).tidy.openings, (htracked _).tidy.openings, hsplits, hopened]

end Reader

end Splittable
