import Splittable.Proofs.Reader.Phases
import Mathlib.Data.Option.Basic
import Mathlib.Data.List.Forall2

/-!
# Readers that answer alike

A reader sees its library through what the library answers, so readers over two libraries whose
cursors and worlds belong together cannot be told apart by calling them.

* `Library.Likeness`         two libraries whose answers are the same;
* `Reader.Like`              two readers at the same place;
* `Searched.like`            a search of one is a search of the other;
* `Reader.serve_like`, `replies_like`   a call has the same answer, and so have all calls.
-/

namespace Splittable

variable {ρ ε₁ ε₂ : Type}

/-- the answer of an opening, up to the cursor -/
inductive Library.SameOpening {one : Library ρ ε₁} {two : Library ρ ε₂}
    (cursors : one.Cursor → two.Cursor → Prop) :
    Except Fault one.Cursor → Except Fault two.Cursor → Prop
  | refused (fault : Fault) : SameOpening cursors (.error fault) (.error fault)
  | opened {c₁ : one.Cursor} {c₂ : two.Cursor} : cursors c₁ c₂ →
      SameOpening cursors (.ok c₁) (.ok c₂)

/-- Which cursors and which worlds of two libraries belong together.  Operations on them have the
same answers, and what they leave belongs together again. -/
structure Library.Likeness (one : Library ρ ε₁) (two : Library ρ ε₂) where
  overrides : Overrides
  flag₁ : Flag
  flag₂ : Flag
  cursors : one.Cursor → two.Cursor → Prop
  worlds : World ε₁ → World ε₂ → Prop
  raised : ∀ {w₁ w₂}, worlds w₁ w₂ → w₁.isRaised flag₁ = w₂.isRaised flag₂
  noted : ∀ {w₁ w₂} level text, worlds w₁ w₂ → worlds (w₁.note level text) (w₂.note level text)
  opened : ∀ {w₁ w₂} split, worlds w₁ w₂ →
    one.SameOpening cursors (one.openCursor split overrides flag₁ w₁).1
      (two.openCursor split overrides flag₂ w₂).1 ∧
    worlds (one.openCursor split overrides flag₁ w₁).2 (two.openCursor split overrides flag₂ w₂).2
  moved : ∀ {c₁ c₂ w₁ w₂}, cursors c₁ c₂ → worlds w₁ w₂ →
    (one.next c₁ w₁).1.1 = (two.next c₂ w₂).1.1 ∧
    cursors (one.next c₁ w₁).1.2 (two.next c₂ w₂).1.2 ∧
    worlds (one.next c₁ w₁).2 (two.next c₂ w₂).2
  progress : ∀ {c₁ c₂}, cursors c₁ c₂ → one.progress c₁ = two.progress c₂
  closed : ∀ {c₁ c₂ w₁ w₂}, cursors c₁ c₂ → worlds w₁ w₂ →
    (one.close c₁ w₁).1.1 = (two.close c₂ w₂).1.1 ∧
    worlds (one.close c₁ w₁).2 (two.close c₂ w₂).2

namespace Reader

variable {one : Library ρ ε₁} {two : Library ρ ε₂} {same : one.Likeness two} {r₁ : Reader one}
  {r₂ : Reader two} {w₁ : World ε₁} {w₂ : World ε₂}

/-- two readers at the same place -/
structure Like (same : one.Likeness two) (r₁ : Reader one) (r₂ : Reader two) : Prop where
  overrides₁ : r₁.source.overrides = same.overrides
  overrides₂ : r₂.source.overrides = same.overrides
  interrupt₁ : r₁.interrupt = same.flag₁
  interrupt₂ : r₂.interrupt = same.flag₂
  splits : r₁.splits = r₂.splits
  opened : r₁.opened = r₂.opened
  cursor : Option.Rel same.cursors r₁.cursor r₂.cursor
  current : r₁.current = r₂.current
  done : r₁.done = r₂.done
  phase : r₁.phase = r₂.phase
  frozen : r₁.frozen = r₂.frozen

/-- two operations with the same answer, that leave readers and worlds that belong together -/
structure LikeOutcome {α : Type} (same : one.Likeness two) (o₁ : Outcome one α)
    (o₂ : Outcome two α) : Prop where
  answer : o₁.1 = o₂.1
  reader : Like same o₁.2.1 o₂.2.1
  worlds : same.worlds o₁.2.2 o₂.2.2

/-! ## searching -/

theorem Like.readError (h : Like same r₁ r₂) (position : Nat) (fault : Fault) :
    r₁.readError position fault = r₂.readError position fault := by
  simp only [Reader.readError, label, h.splits]

theorem Like.exists_cursor (h : Like same r₁ r₂) {c₁ : one.Cursor} (hcursor : r₁.cursor = some c₁) :
    ∃ c₂, r₂.cursor = some c₂ ∧ same.cursors c₁ c₂ := by
  have hrel := h.cursor
  rw [hcursor] at hrel
  cases hcursor₂ : r₂.cursor with
  | none =>
    rw [hcursor₂] at hrel
    cases hrel
  | some c₂ =>
    rw [hcursor₂] at hrel
    cases hrel with
    | some hcursors => exact ⟨c₂, rfl, hcursors⟩

theorem Like.cursor_none (h : Like same r₁ r₂) (hcursor : r₁.cursor = none) : r₂.cursor = none := by
  have hrel := h.cursor
  rw [hcursor] at hrel
  cases hcursor₂ : r₂.cursor with
  | none => rfl
  | some c₂ =>
    rw [hcursor₂] at hrel
    cases hrel

theorem Like.raised (h : Like same r₁ r₂) (hw : same.worlds w₁ w₂) :
    w₁.isRaised r₁.interrupt = w₂.isRaised r₂.interrupt := by
  rw [h.interrupt₁, h.interrupt₂]
  exact same.raised hw

theorem Like.exists_refused (h : Like same r₁ r₂) (hw : same.worlds w₁ w₂) {split : Descriptor}
    {fault : Fault} {w₁' : World ε₁}
    (hopen : one.openCursor split r₁.source.overrides r₁.interrupt w₁ = (.error fault, w₁')) :
    ∃ w₂', two.openCursor split r₂.source.overrides r₂.interrupt w₂ = (.error fault, w₂') ∧
      same.worlds w₁' w₂' := by
  obtain ⟨hopening, hw'⟩ := same.opened split hw
  rw [← h.overrides₁, ← h.interrupt₁, hopen, h.overrides₁, ← h.overrides₂, ← h.interrupt₂]
    at hopening hw'
  rcases hopen₂ : two.openCursor split r₂.source.overrides r₂.interrupt w₂ with ⟨answer, w₂'⟩
  rw [hopen₂] at hopening hw'
  cases hopening
  exact ⟨w₂', rfl, hw'⟩

theorem Like.exists_opened (h : Like same r₁ r₂) (hw : same.worlds w₁ w₂) {split : Descriptor}
    {c₁ : one.Cursor} {w₁' : World ε₁}
    (hopen : one.openCursor split r₁.source.overrides r₁.interrupt w₁ = (.ok c₁, w₁')) :
    ∃ c₂ w₂', two.openCursor split r₂.source.overrides r₂.interrupt w₂ = (.ok c₂, w₂') ∧
      same.cursors c₁ c₂ ∧ same.worlds w₁' w₂' := by
  obtain ⟨hopening, hw'⟩ := same.opened split hw
  rw [← h.overrides₁, ← h.interrupt₁, hopen, h.overrides₁, ← h.overrides₂, ← h.interrupt₂]
    at hopening hw'
  rcases hopen₂ : two.openCursor split r₂.source.overrides r₂.interrupt w₂ with ⟨answer, w₂'⟩
  rw [hopen₂] at hopening hw'
  cases hopening with
  | opened hcursors => exact ⟨_, w₂', rfl, hcursors, hw'⟩

/-- where a library answers a move, the other answers the same -/
theorem Like.exists_next {c₁ after₁ : one.Cursor} {c₂ : two.Cursor} {w₁' : World ε₁}
    {answer : Except Fault (Option Pair)} (hcursors : same.cursors c₁ c₂) (hw : same.worlds w₁ w₂)
    (hnext : one.next c₁ w₁ = ((answer, after₁), w₁')) :
    ∃ after₂ w₂', two.next c₂ w₂ = ((answer, after₂), w₂') ∧ same.cursors after₁ after₂ ∧
      same.worlds w₁' w₂' := by
  have hmoved := same.moved hcursors hw
  rw [hnext] at hmoved
  obtain ⟨hanswer, hafter, hworlds⟩ := hmoved
  exact ⟨_, _, Prod.ext (Prod.ext hanswer.symm rfl) rfl, hafter, hworlds⟩

theorem Like.exists_close {c₁ closed₁ : one.Cursor} {c₂ : two.Cursor} {w₁' : World ε₁}
    {answer : Except Fault Unit} (hcursors : same.cursors c₁ c₂) (hw : same.worlds w₁ w₂)
    (hclose : one.close c₁ w₁ = ((answer, closed₁), w₁')) :
    ∃ closed₂ w₂', two.close c₂ w₂ = ((answer, closed₂), w₂') ∧ same.worlds w₁' w₂' := by
  have hclosed := same.closed hcursors hw
  rw [hclose] at hclosed
  obtain ⟨hanswer, hworlds⟩ := hclosed
  exact ⟨_, _, Prod.ext (Prod.ext hanswer.symm rfl) rfl, hworlds⟩

theorem Drained.like {w₁' : World ε₁} (hdrained : r₁.Drained w₁ w₁') (h : Like same r₁ r₂)
    (hw : same.worlds w₁ w₂) : ∃ w₂', r₂.Drained w₂ w₂' ∧ same.worlds w₁' w₂' := by
  cases hdrained with
  | idle hcursor => exact ⟨w₂, .idle (h.cursor_none hcursor), hw⟩
  | closed hcursor hnext hclose =>
    obtain ⟨c₂, hcursor₂, hcursors⟩ := h.exists_cursor hcursor
    obtain ⟨after₂, v₂, hnext₂, hafter, hv⟩ := Like.exists_next hcursors hw hnext
    obtain ⟨closed₂, w₂', hclose₂, hw'⟩ := Like.exists_close hafter hv hclose
    exact ⟨w₂', .closed hcursor₂ hnext₂ hclose₂, hw'⟩

/-- **A search of one reader is a search of the other**, with the same answer. -/
theorem Searched.like {unopened : List Descriptor} {o₁ : Outcome one Bool}
    (hsearched : Searched unopened r₁ w₁ o₁) (h : Like same r₁ r₂) (hw : same.worlds w₁ w₂) :
    ∃ o₂, Searched unopened r₂ w₂ o₂ ∧ LikeOutcome same o₁ o₂ := by
  induction hsearched generalizing r₂ w₂ with
  | record hcursor hnext =>
    obtain ⟨c₂, hcursor₂, hcursors⟩ := h.exists_cursor hcursor
    obtain ⟨after₂, w₂', hnext₂, hafter, hw'⟩ := Like.exists_next hcursors hw hnext
    exact ⟨_, .record hcursor₂ hnext₂, rfl, { h with cursor := .some hafter, current := rfl }, hw'⟩
  | broken hcursor hnext =>
    obtain ⟨c₂, hcursor₂, hcursors⟩ := h.exists_cursor hcursor
    obtain ⟨after₂, w₂', hnext₂, hafter, hw'⟩ := Like.exists_next hcursors hw hnext
    refine ⟨_, .broken hcursor₂ hnext₂, ?_, { h with cursor := .some hafter }, hw'⟩
    rw [h.opened, h.readError]
  | unclosed hcursor hnext hclose =>
    obtain ⟨c₂, hcursor₂, hcursors⟩ := h.exists_cursor hcursor
    obtain ⟨after₂, v₂, hnext₂, hafter, hv⟩ := Like.exists_next hcursors hw hnext
    obtain ⟨closed₂, w₂', hclose₂, hw'⟩ := Like.exists_close hafter hv hclose
    refine ⟨_, .unclosed hcursor₂ hnext₂ hclose₂, ?_, { h with cursor := .none }, hw'⟩
    rw [h.opened, h.readError]
  | finished hdrained =>
    obtain ⟨w₂', hdrained₂, hw'⟩ := hdrained.like h hw
    exact ⟨_, .finished hdrained₂, rfl, { h with cursor := .none }, hw'⟩
  | interrupted hdrained hraised =>
    obtain ⟨w₂', hdrained₂, hw'⟩ := hdrained.like h hw
    refine ⟨_, .interrupted hdrained₂ ((h.raised hw').symm.trans hraised), ?_,
      { h with cursor := .none }, hw'⟩
    rw [h.opened, h.readError]
  | unopened hdrained hraised hopen =>
    obtain ⟨v₂, hdrained₂, hv⟩ := hdrained.like h hw
    obtain ⟨w₂', hopen₂, hw'⟩ := h.exists_refused hv hopen
    refine ⟨_, .unopened hdrained₂ ((h.raised hv).symm.trans hraised) hopen₂, ?_,
      { h with cursor := .none, opened := congrArg (· + 1) h.opened }, hw'⟩
    rw [h.opened, h.readError]
  | @onward _ _ reader _ _ _ cursor _ hdrained hraised hopen _ ih =>
    obtain ⟨v₂, hdrained₂, hv⟩ := hdrained.like h hw
    obtain ⟨c₂, w₂', hopen₂, hcursors, hw'⟩ := h.exists_opened hv hopen
    have hopened : Like same { reader with cursor := some cursor, opened := reader.opened + 1 }
        { r₂ with cursor := some c₂, opened := r₂.opened + 1 } :=
      { h with cursor := .some hcursors, opened := congrArg (· + 1) h.opened }
    obtain ⟨o₂, hsearched₂, hlike⟩ := ih hopened hw'
    exact ⟨o₂, .onward hdrained₂ ((h.raised hv).symm.trans hraised) hopen₂ hsearched₂, hlike⟩

theorem search_like (h : Like same r₁ r₂) (hw : same.worlds w₁ w₂) (unopened : List Descriptor) :
    LikeOutcome same (search unopened r₁ w₁) (search unopened r₂ w₂) := by
  obtain ⟨o₂, hsearched, hlike⟩ := (searched unopened r₁ w₁).like h hw
  rwa [← hsearched.eq] at hlike

/-! ## the operations -/

theorem release_like (h : Like same r₁ r₂) (hw : same.worlds w₁ w₂) :
    LikeOutcome same (r₁.release w₁) (r₂.release w₂) := by
  cases hcursor : r₁.cursor with
  | none =>
    simp only [release, hcursor, h.cursor_none hcursor]
    exact ⟨rfl, h, hw⟩
  | some c₁ =>
    obtain ⟨c₂, hcursor₂, hcursors⟩ := h.exists_cursor hcursor
    rcases hclose : one.close c₁ w₁ with ⟨⟨fault | _, closed₁⟩, w₁'⟩
    · obtain ⟨closed₂, w₂', hclose₂, hw'⟩ := Like.exists_close hcursors hw hclose
      simp only [release, hcursor, hcursor₂, hclose, hclose₂]
      exact ⟨by rw [h.opened, h.readError], { h with cursor := .none }, hw'⟩
    · obtain ⟨closed₂, w₂', hclose₂, hw'⟩ := Like.exists_close hcursors hw hclose
      simp only [release, hcursor, hcursor₂, hclose, hclose₂]
      exact ⟨rfl, { h with cursor := .none }, hw'⟩

section
variable [Ratio ρ]

theorem fraction_like (h : Like same r₁ r₂) : r₁.fraction = r₂.fraction := by
  have hprogress : r₁.cursor.bind one.progress = r₂.cursor.bind two.progress := by
    cases hcursor : r₁.cursor with
    | none => rw [h.cursor_none hcursor]; rfl
    | some c₁ =>
      obtain ⟨c₂, hcursor₂, hcursors⟩ := h.exists_cursor hcursor
      rw [hcursor₂]
      exact same.progress hcursors
  simp only [fraction, h.phase, h.frozen, h.done, h.opened, h.splits, hprogress]

omit [Ratio ρ] in
theorem current_like (h : Like same r₁ r₂) : r₁.current? = r₂.current? := by
  simp only [current?, h.phase, h.current]

theorem fail_like (h : Like same r₁ r₂) (hw : same.worlds w₁ w₂) :
    Like same (r₁.fail w₁).1 (r₂.fail w₂).1 ∧ same.worlds (r₁.fail w₁).2 (r₂.fail w₂).2 := by
  constructor
  · rw [fail_reader, fail_reader]
    exact { h with frozen := fraction_like h, current := rfl, phase := rfl, cursor := .none }
  · cases hcursor : r₁.cursor with
    | none =>
      simp only [fail, hcursor, h.cursor_none hcursor]
      exact hw
    | some c₁ =>
      obtain ⟨c₂, hcursor₂, hcursors⟩ := h.exists_cursor hcursor
      rcases hclose : one.close c₁ w₁ with ⟨⟨fault | _, closed₁⟩, w₁'⟩
      · obtain ⟨closed₂, w₂', hclose₂, hw'⟩ := Like.exists_close hcursors hw hclose
        simp only [fail, hcursor, hcursor₂, hclose, hclose₂]
        exact same.noted _ _ hw'
      · obtain ⟨closed₂, w₂', hclose₂, hw'⟩ := Like.exists_close hcursors hw hclose
        simp only [fail, hcursor, hcursor₂, hclose, hclose₂]
        exact hw'

theorem advance_like (h : Like same r₁ r₂) (hw : same.worlds w₁ w₂) :
    LikeOutcome same (r₁.advance w₁) (r₂.advance w₂) := by
  by_cases hactive : r₁.phase = .active
  · have hactive₂ : r₂.phase = .active := h.phase ▸ hactive
    have hsearch := search_like h hw (r₁.splits.drop r₁.opened)
    have hdrop : r₂.splits.drop r₂.opened = r₁.splits.drop r₁.opened := by rw [h.splits, h.opened]
    rcases hfound₂ : search (r₁.splits.drop r₁.opened) r₂ w₂ with ⟨answer, found₂, w₂'⟩
    rcases hfound : search (r₁.splits.drop r₁.opened) r₁ w₁ with ⟨e | _ | _, found, w₁'⟩
    all_goals
      rw [hfound, hfound₂] at hsearch
      obtain ⟨rfl, hreader, hworlds⟩ := hsearch
      rw [← hdrop] at hfound₂
    · rw [advance_of_error hactive hfound, advance_of_error hactive₂ hfound₂]
      obtain ⟨hfailed, hworlds'⟩ := fail_like hreader hworlds
      exact ⟨rfl, hfailed, hworlds'⟩
    · rw [advance_of_finished hactive hfound, advance_of_finished hactive₂ hfound₂]
      exact ⟨rfl, { hreader with current := rfl, done := rfl, phase := rfl }, hworlds⟩
    · rw [advance_of_record hactive hfound, advance_of_record hactive₂ hfound₂]
      exact ⟨rfl, hreader, hworlds⟩
  · by_cases hexhausted : r₁.phase = .exhausted
    · rw [advance_of_exhausted hexhausted, advance_of_exhausted (h.phase ▸ hexhausted)]
      exact ⟨rfl, h, hw⟩
    · rw [advance_of_refused hactive hexhausted,
        advance_of_refused (h.phase ▸ hactive) (h.phase ▸ hexhausted), h.phase]
      exact ⟨rfl, h, hw⟩

/-- Both readers resolve their splits to the same ones. -/
def LikeSplits (same : one.Likeness two) (r₁ : Reader one) (r₂ : Reader two) : Prop :=
  ∀ w₁ w₂, same.worlds w₁ w₂ → (r₁.resolveSplits w₁).1 = (r₂.resolveSplits w₂).1 ∧
    same.worlds (r₁.resolveSplits w₁).2.2 (r₂.resolveSplits w₂).2.2

theorem start_like (h : Like same r₁ r₂)
    (hsplits : r₁.phase = .notStarted → LikeSplits same r₁ r₂) (hw : same.worlds w₁ w₂) :
    LikeOutcome same (r₁.start w₁) (r₂.start w₂) := by
  by_cases hphase : r₁.phase = .notStarted
  · have hphase₂ : r₂.phase = .notStarted := h.phase ▸ hphase
    obtain ⟨hanswer, hworlds⟩ := hsplits hphase w₁ w₂ hw
    have hreader : Like same (r₁.resolveSplits w₁).2.1 (r₂.resolveSplits w₂).2.1 := by
      obtain ⟨_, hreader₁⟩ := resolveSplits_reader r₁ w₁
      obtain ⟨_, hreader₂⟩ := resolveSplits_reader r₂ w₂
      rw [hreader₁, hreader₂]
      exact { h with overrides₁ := h.overrides₁, overrides₂ := h.overrides₂ }
    rcases hresolve₂ : r₂.resolveSplits w₂ with ⟨answer, found₂, w₂'⟩
    rcases hresolve : r₁.resolveSplits w₁ with ⟨e | splits, found, w₁'⟩
    all_goals
      rw [hresolve, hresolve₂] at hanswer hworlds hreader
      dsimp only at hanswer
      subst hanswer
    · rw [start_of_unresolved hphase hresolve, start_of_unresolved hphase₂ hresolve₂]
      exact ⟨rfl, { hreader with phase := rfl }, hworlds⟩
    · rw [start_of_resolved hphase hresolve, start_of_resolved hphase₂ hresolve₂]
      exact advance_like { hreader with splits := rfl, phase := rfl } hworlds
  · rw [start_of_refused hphase, start_of_refused (h.phase ▸ hphase), h.phase]
    exact ⟨rfl, h, hw⟩

theorem close_like (h : Like same r₁ r₂) (hw : same.worlds w₁ w₂) :
    LikeOutcome same (r₁.close w₁) (r₂.close w₂) := by
  by_cases hclosed : r₁.phase = .closed
  · rw [close_of_closed hclosed, close_of_closed (h.phase ▸ hclosed)]
    exact ⟨rfl, h, hw⟩
  · rw [close_of_open hclosed, close_of_open (h.phase ▸ hclosed)]
    exact release_like { h with frozen := fraction_like h, current := rfl, phase := rfl } hw

/-! ## calls -/

/-- **Two readers at the same place give the same answer to a call**, and are at the same place
after it. -/
theorem serve_like (h : Like same r₁ r₂) (hsplits : r₁.phase = .notStarted → LikeSplits same r₁ r₂)
    (hw : same.worlds w₁ w₂) (request : Request ρ) :
    (r₁.serve request w₁).1 = (r₂.serve request w₂).1 ∧
      Like same (r₁.serve request w₁).2.1 (r₂.serve request w₂).2.1 ∧
      same.worlds (r₁.serve request w₁).2.2 (r₂.serve request w₂).2.2 := by
  cases request with
  | start =>
    obtain ⟨hanswer, hreader, hworlds⟩ := start_like h hsplits hw
    exact ⟨congrArg Reply.moved hanswer, hreader, hworlds⟩
  | advance =>
    obtain ⟨hanswer, hreader, hworlds⟩ := advance_like h hw
    exact ⟨congrArg Reply.moved hanswer, hreader, hworlds⟩
  | current => exact ⟨congrArg Reply.record (current_like h), h, hw⟩
  | fraction => exact ⟨congrArg Reply.share (fraction_like h), h, hw⟩
  | splitPoints =>
    refine ⟨congrArg Reply.points ?_, h, hw⟩
    simp only [splitPointsRemaining, h.done, h.phase]
  | splitAt => exact ⟨rfl, h, hw⟩
  | close =>
    obtain ⟨hanswer, hreader, hworlds⟩ := close_like h hw
    exact ⟨congrArg Reply.closed hanswer, hreader, hworlds⟩

/-- A reader that is not started after a call is the reader from before it. -/
theorem serve_of_notStarted {library : Library ρ ε₁} {reader : Reader library} {request : Request ρ}
    {w : World ε₁} (h : (reader.serve request w).2.1.phase = .notStarted) :
    (reader.serve request w).2.1 = reader := by
  cases request with
  | start =>
    dsimp only [serve] at h ⊢
    by_cases hphase : reader.phase = .notStarted
    · have hleads := start_leads hphase w
      rw [h] at hleads
      cases hleads
    · rw [start_of_refused hphase]
  | advance =>
    dsimp only [serve] at h ⊢
    by_cases hactive : reader.phase = .active
    · have hphase := advance_phase hactive w
      rw [h] at hphase
      simp at hphase
    · by_cases hexhausted : reader.phase = .exhausted
      · rw [advance_of_exhausted hexhausted]
      · rw [advance_of_refused hactive hexhausted]
  | close =>
    dsimp only [serve] at h ⊢
    by_cases hclosed : reader.phase = .closed
    · rw [close_of_closed hclosed]
    · rw [close_of_open hclosed, release_reader] at h
      cases h
  | current | fraction | splitPoints | splitAt => rfl

/-- the same request, in worlds that belong together -/
def LikeTurn (same : one.Likeness two) (turn₁ : Turn ρ ε₁) (turn₂ : Turn ρ ε₂) : Prop :=
  turn₁.request = turn₂.request ∧ same.worlds turn₁.world turn₂.world

theorem LikeSplits.serve (hsplits : r₁.phase = .notStarted → LikeSplits same r₁ r₂)
    (h : Like same r₁ r₂) (hw : same.worlds w₁ w₂) (request : Request ρ)
    (hphase : (r₁.serve request w₁).2.1.phase = .notStarted) :
    LikeSplits same (r₁.serve request w₁).2.1 (r₂.serve request w₂).2.1 := by
  have hphase₂ := (serve_like h hsplits hw request).2.1.phase ▸ hphase
  rw [serve_of_notStarted hphase, serve_of_notStarted hphase₂]
  exact hsplits (serve_of_notStarted hphase ▸ hphase)

/-- **Readers at the same place cannot be told apart by calling them.** -/
theorem replies_like (h : Like same r₁ r₂)
    (hsplits : r₁.phase = .notStarted → LikeSplits same r₁ r₂)
    {turns₁ : List (Turn ρ ε₁)} {turns₂ : List (Turn ρ ε₂)}
    (hturns : List.Forall₂ (LikeTurn same) turns₁ turns₂) :
    r₁.replies turns₁ = r₂.replies turns₂ := by
  induction hturns generalizing r₁ r₂ with
  | nil => rfl
  | @cons turn₁ turn₂ _ _ hturn _ ih =>
    obtain ⟨hrequest, hw⟩ := hturn
    obtain ⟨hanswer, hreader, -⟩ := serve_like h hsplits hw turn₁.request
    rw [replies, replies, ← hrequest, hanswer]
    congr 1
    exact ih hreader (LikeSplits.serve hsplits h hw turn₁.request)

end

end Reader

end Splittable
