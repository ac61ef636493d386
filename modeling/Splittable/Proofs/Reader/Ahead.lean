import Splittable.Proofs.Reader.Reading
import Mathlib.Data.List.Forall2

/-!
# What a reader has ahead

The records that a reader has yet to answer: those of its open cursor, then those of the splits
that are not opened.  Each answer takes the first of them, through as many splits without a record
as it takes.

* `Library.Gives`, `Library.Opens`   the records of a cursor, and those of a split;
* `Reader.Ahead`                     the records of a reader;
* `Reader.readsIn_of_splits`         a source is read split by split.
-/

namespace Splittable

variable {ρ ε : Type}

namespace Library

/-- the records that a cursor gives in a world that nothing changes -/
inductive Gives (library : Library ρ ε) (w : World ε) : library.Cursor → List Pair → Prop
  | done {cursor after closed : library.Cursor} :
      library.next cursor w = ((.ok none, after), w) →
      library.close after w = ((.ok (), closed), w) → Gives library w cursor []
  | pair {cursor after : library.Cursor} {pair : Pair} {pairs : List Pair} :
      library.next cursor w = ((.ok (some pair), after), w) → Gives library w after pairs →
      Gives library w cursor (pair :: pairs)

/-- the records of a split, read with a cursor of its own -/
def Opens (library : Library ρ ε) (overrides : Overrides) (interrupt : Flag) (w : World ε)
    (split : Descriptor) (pairs : List Pair) : Prop :=
  ∃ cursor, library.openCursor split overrides interrupt w = (.ok cursor, w) ∧
    library.Gives w cursor pairs

end Library

namespace Reader

variable {library : Library ρ ε} {reader : Reader library} {w : World ε} {pair : Pair}
  {pairs : List Pair}

/-- the records of the open cursor, if there is one -/
def Open (reader : Reader library) (w : World ε) (pairs : List Pair) : Prop :=
  match reader.cursor with
  | none => pairs = []
  | some cursor => library.Gives w cursor pairs

/-- the records that a reader has yet to answer -/
structure Ahead (reader : Reader library) (w : World ε) (pairs : List Pair) : Prop where
  active : reader.phase = .active
  calm : w.isRaised reader.interrupt = false
  parts : ∃ here there, reader.Open w here ∧
    List.Forall₂ (library.Opens reader.source.overrides reader.interrupt w)
      (reader.splits.drop reader.opened) there ∧
    pairs = here ++ there.flatten

theorem pull_of_nil (h : reader.Open w []) :
    reader.pull w = (.ok false, { reader with cursor := none }, w) := by
  unfold Open at h
  unfold pull
  cases hcursor : reader.cursor with
  | none =>
    show (Except.ok false, reader, w) = _
    rw [← hcursor]
  | some cursor =>
    rw [hcursor] at h
    cases h with
    | done hnext hclose =>
      dsimp only
      rw [hnext]
      dsimp only
      unfold release
      dsimp only
      rw [hclose]

theorem pull_of_cons (h : reader.Open w (pair :: pairs)) :
    ∃ cursor, reader.pull w =
        (.ok true, { reader with cursor := some cursor, current := some pair }, w) ∧
      library.Gives w cursor pairs := by
  unfold Open at h
  unfold pull
  cases hcursor : reader.cursor with
  | none =>
    rw [hcursor] at h
    cases h
  | some cursor =>
    rw [hcursor] at h
    cases h with
    | pair hnext hrest =>
      dsimp only
      rw [hnext]
      exact ⟨_, rfl, hrest⟩

theorem search_of_ahead {unopened : List Descriptor}
    (hunopened : reader.splits.drop reader.opened = unopened) (h : reader.Ahead w pairs) :
    ∃ after, pairs = [] ∧ search unopened reader w = (.ok false, after, w) ∨
      ∃ pair rest, pairs = pair :: rest ∧ search unopened reader w = (.ok true, after, w) ∧
        after.current = some pair ∧ after.Ahead w rest := by
  induction unopened generalizing reader with
  | nil =>
    obtain ⟨hactive, hcalm, here, there, hhere, hthere, rfl⟩ := h
    rw [hunopened] at hthere
    cases hthere with
    | nil =>
    unfold search
    cases here with
    | nil =>
      rw [pull_of_nil hhere]
      exact ⟨_, .inl ⟨rfl, rfl⟩⟩
    | cons pair here =>
      obtain ⟨cursor, hpull, hgives⟩ := pull_of_cons hhere
      rw [hpull]
      refine ⟨_, .inr ⟨pair, here, List.append_nil _, rfl, rfl, hactive, hcalm, here, [], hgives,
        ?_, (List.append_nil _).symm⟩⟩
      show List.Forall₂ _ (reader.splits.drop reader.opened) []
      rw [hunopened]
      exact .nil
  | cons split unopened ih =>
    obtain ⟨hactive, hcalm, here, there, hhere, hthere, rfl⟩ := h
    unfold search
    cases here with
    | cons pair here =>
      obtain ⟨cursor, hpull, hgives⟩ := pull_of_cons hhere
      rw [hpull]
      exact ⟨_, .inr ⟨pair, here ++ there.flatten, rfl, rfl, rfl, hactive, hcalm, here, there,
        hgives, hthere, rfl⟩⟩
    | nil =>
      -- the open cursor has nothing left, so the next split is opened
      rw [hunopened] at hthere
      cases hthere with
      | cons hopens hmore =>
      obtain ⟨cursor, hopen, hgives⟩ := hopens
      rw [pull_of_nil hhere]
      dsimp only
      unfold openNext
      dsimp only
      rw [hcalm, if_neg Bool.false_ne_true, hopen]
      have hrest : reader.splits.drop (reader.opened + 1) = unopened := by
        rw [← List.drop_drop, hunopened]
        rfl
      exact ih hrest ⟨hactive, hcalm, _, _, hgives, by rw [hrest]; exact hmore, rfl⟩

variable [Ratio ρ]

theorem advance_of_ahead_nil (h : reader.Ahead w []) :
    ∃ after, reader.advance w = (.ok false, after, w) := by
  obtain ⟨after, ⟨_, hsearch⟩ | ⟨_, _, hpairs, _⟩⟩ := search_of_ahead rfl h
  · unfold advance
    rw [h.active]
    dsimp only
    rw [hsearch]
    exact ⟨_, rfl⟩
  · cases hpairs

theorem advance_of_ahead_cons (h : reader.Ahead w (pair :: pairs)) :
    ∃ after, reader.advance w = (.ok true, after, w) ∧ after.current? = .ok pair ∧
      after.Ahead w pairs := by
  obtain ⟨after, ⟨hpairs, _⟩ | ⟨_, _, hpairs, hsearch, hcurrent, hahead⟩⟩ := search_of_ahead rfl h
  · cases hpairs
  · cases hpairs
    unfold advance
    rw [h.active]
    dsimp only
    rw [hsearch]
    refine ⟨_, rfl, ?_, hahead⟩
    unfold current?
    rw [hahead.active, hcurrent]

end Reader

namespace Source

open Reader

variable [Ratio ρ] {context : Context ρ ε} {source : Source} {w : World ε}
  {library : Library ρ ε}

/-- A reader that has answered some records answers those ahead. -/
theorem ReadTo.readsIn {calls : List (Call ε)} {pairs rest : List Pair} {reader : Reader library}
    (h : ReadTo context source calls pairs ⟨library, reader⟩)
    (hcalls : ∀ call ∈ calls, call = ⟨w, w⟩) (hahead : reader.Ahead w rest) :
    ReadsIn context w source (pairs ++ rest) := by
  have hmore : ∀ call ∈ calls ++ [⟨w, w⟩], call = (⟨w, w⟩ : Call ε) := by
    intro call hcall
    rcases List.mem_append.1 hcall with hcall | hcall
    · exact hcalls call hcall
    · exact List.mem_singleton.1 hcall
  induction rest generalizing calls pairs reader with
  | nil =>
    obtain ⟨after, hadvance⟩ := advance_of_ahead_nil hahead
    rw [List.append_nil]
    exact ⟨_, .last h hadvance, hmore⟩
  | cons pair rest ih =>
    obtain ⟨after, hadvance, hcurrent, hafter⟩ := advance_of_ahead_cons hahead
    have hreads := ih (.advance h hadvance hcurrent) hmore hafter fun call hcall => by
      rcases List.mem_append.1 hcall with hcall | hcall
      · exact hmore call hcall
      · exact List.mem_singleton.1 hcall
    rwa [List.append_assoc] at hreads

/-- **A source is read split by split.** -/
theorem readsIn_of_splits {resolved : Source} {splits : List Descriptor} {parts : List (List Pair)}
    (hcreate : source.createReader context = .ok ⟨library, .make library source context⟩)
    (hresolve : (Reader.make library source context).resolveSplits w =
      (.ok splits, { Reader.make library source context with source := resolved }, w))
    (hcalm : w.isRaised context.interrupt = false)
    (hparts : List.Forall₂ (library.Opens resolved.overrides context.interrupt w) splits parts) :
    ReadsIn context w source parts.flatten := by
  let reader : Reader library :=
    { Reader.make library source context with source := resolved, splits, phase := .active }
  have hstart : (Reader.make library source context).start w = reader.advance w := by
    have hphase : (Reader.make library source context).phase = .notStarted := rfl
    unfold Reader.start
    rw [hphase]
    dsimp only
    rw [hresolve]
  have hahead : reader.Ahead w parts.flatten := ⟨rfl, hcalm, [], parts, rfl, hparts, rfl⟩
  cases hpairs : parts.flatten with
  | nil =>
    rw [hpairs] at hahead
    obtain ⟨after, hadvance⟩ := advance_of_ahead_nil hahead
    exact ⟨_, .empty hcreate (hstart.trans hadvance), fun call => List.mem_singleton.1⟩
  | cons pair rest =>
    rw [hpairs] at hahead
    obtain ⟨after, hadvance, hcurrent, hafter⟩ := advance_of_ahead_cons hahead
    exact (ReadTo.start hcreate (hstart.trans hadvance) hcurrent).readsIn
      (fun call => List.mem_singleton.1) hafter

end Source

end Splittable
