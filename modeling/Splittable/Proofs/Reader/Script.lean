import Splittable.Proofs.Ratio.Rational
import Splittable.Proofs.Reader.Phases
import Mathlib.Logic.Function.Iterate

/-!
# What a reader delivers

A library plays a script for each of its splits: whether it opens, its records, how they end and
whether it closes.  Starting a reader and advancing it delivers the records of the splits one after
the other, up to the first thing that goes wrong.

* `Script`, `Play`            what a split does, and how the world changes meanwhile;
* `Library.Plays`             a library that does as its scripts say;
* `Library.scripted`          for every play there is such a library;
* `Play.deliver`, `Delivery.answer`   the records up to the first trouble, and what is answered;
* `Reader.visit`              a start and some advances;
* `Reader.Poised`, `Poised.search`    what a reader has ahead, and what a search finds of it;
* `Reader.visit_delivers`     a reader answers what its library delivers.
-/

namespace Splittable

variable {ρ ε : Type}

/-- what one split does -/
structure Script where
  opening : Except Fault Unit
  pairs : List Pair
  /-- what comes after the records: nothing more, or a fault -/
  ending : Except Fault Unit
  closing : Except Fault Unit

namespace Script

/-- the first thing that goes wrong with a split -/
def fault? (script : Script) : Option Fault :=
  match script.opening, script.ending, script.closing with
  | .error fault, _, _ => some fault
  | .ok (), .error fault, _ => some fault
  | .ok (), .ok (), .error fault => some fault
  | .ok (), .ok (), .ok () => none

/-- the records that a split gives before anything goes wrong -/
def given (script : Script) : List Pair :=
  match script.opening with
  | .ok () => script.pairs
  | .error _ => []

end Script

/-- The scripts of the splits, and what changes meanwhile.  A split takes its script from the world
in which it is opened.  Every operation of the library does `elapse` to the world, and between two
calls the caller does `caller` to it.  The world may hold a clock, so they may do something else
every time, such as raising the flag of the reader once. -/
structure Play (ε : Type) where
  script : Descriptor → World ε → Script
  elapse : World ε → World ε
  caller : World ε → World ε

/-- some records, and then perhaps a fault of the split at an index -/
structure Delivery where
  pairs : List Pair
  trouble : Option (Nat × Fault)

/-- some records before all others -/
def Delivery.after (pairs : List Pair) (rest : Delivery) : Delivery :=
  ⟨pairs ++ rest.pairs, rest.trouble⟩

namespace Play

variable (play : Play ε) (flag : Flag)

/-- The world once a cursor has given so many records, has no more and is closed. -/
def leave (count : Nat) (w : World ε) : World ε :=
  play.elapse (play.elapse ((fun w => play.caller (play.elapse w))^[count] w))

/-- The records of splits in their order, up to the first split that fails or is not opened as the
flag is seen before it.  The first of the splits has the index given. -/
def deliver : List Descriptor → (index : Nat) → World ε → Delivery
  | [], _, _ => ⟨[], none⟩
  | split :: later, index, w =>
    if w.isRaised flag then ⟨[], some (index, Reader.interruptedBetween)⟩
    else
      let script := play.script split w
      match script.fault? with
      | some fault => ⟨script.given, some (index, fault)⟩
      | none =>
        .after script.pairs
          (deliver later (index + 1) (play.leave script.pairs.length (play.elapse w)))

/-- what is delivered once a split is open that has some records left -/
def resume (script : Script) (pairs : List Pair) (later : List Descriptor) (index : Nat)
    (w : World ε) : Delivery :=
  match script.ending, script.closing with
  | .error fault, _ => ⟨pairs, some (index, fault)⟩
  | .ok (), .error fault => ⟨pairs, some (index, fault)⟩
  | .ok (), .ok () =>
    .after pairs (play.deliver flag later (index + 1) (play.leave pairs.length w))

variable {play flag} {split : Descriptor} {later : List Descriptor} {index : Nat} {w : World ε}

theorem deliver_of_raised (h : w.isRaised flag = true) :
    play.deliver flag (split :: later) index w = ⟨[], some (index, Reader.interruptedBetween)⟩ := by
  rw [deliver, if_pos h]

theorem deliver_of_refused {fault : Fault} (h : w.isRaised flag = false)
    (hopening : (play.script split w).opening = .error fault) :
    play.deliver flag (split :: later) index w = ⟨[], some (index, fault)⟩ := by
  simp [deliver, h, Script.fault?, Script.given, hopening]

theorem deliver_of_opened (h : w.isRaised flag = false)
    (hopening : (play.script split w).opening = .ok ()) :
    play.deliver flag (split :: later) index w =
      play.resume flag (play.script split w) (play.script split w).pairs later index
        (play.elapse w) := by
  rw [deliver, h, if_neg Bool.false_ne_true, resume]
  cases hending : (play.script split w).ending with
  | error fault => simp [Script.fault?, Script.given, hopening, hending]
  | ok _ =>
    cases hclosing : (play.script split w).closing with
    | error fault => simp [Script.fault?, Script.given, hopening, hending, hclosing]
    | ok _ => simp [Script.fault?, hopening, hending, hclosing]

theorem resume_cons (script : Script) (pair : Pair) (pairs : List Pair) :
    play.resume flag script (pair :: pairs) later index w =
      .after [pair] (play.resume flag script pairs later index (play.caller (play.elapse w))) := by
  unfold resume
  cases script.ending with
  | error fault => rfl
  | ok _ =>
    cases script.closing with
    | error fault => rfl
    | ok _ => rfl

theorem resume_nil_of_broken {script : Script} {fault : Fault} (h : script.ending = .error fault) :
    play.resume flag script [] later index w = ⟨[], some (index, fault)⟩ := by
  simp [resume, h]

theorem resume_nil_of_unclosed {script : Script} {fault : Fault} (hending : script.ending = .ok ())
    (hclosing : script.closing = .error fault) :
    play.resume flag script [] later index w = ⟨[], some (index, fault)⟩ := by
  simp [resume, hending, hclosing]

theorem resume_nil_of_closed {script : Script} (hending : script.ending = .ok ())
    (hclosing : script.closing = .ok ()) :
    play.resume flag script [] later index w =
      play.deliver flag later (index + 1) (play.elapse (play.elapse w)) := by
  simp [resume, hending, hclosing, Delivery.after, leave]

end Play

/-- A library that does as its scripts say: `ahead` tells the cursors of a script that have these
records left. -/
structure Library.PlaysAs (library : Library ρ ε) (play : Play ε) (splits : List Descriptor)
    (ahead : Script → List Pair → library.Cursor → Prop) : Prop where
  finds : ∀ resource overrides w,
    library.discover resource overrides none w = (.ok splits, play.elapse w)
  refuses : ∀ {split w fault} overrides flag, (play.script split w).opening = .error fault →
    library.openCursor split overrides flag w = (.error fault, play.elapse w)
  opens : ∀ {split w} overrides flag, (play.script split w).opening = .ok () →
    ∃ cursor, library.openCursor split overrides flag w = (.ok cursor, play.elapse w) ∧
      ahead (play.script split w) (play.script split w).pairs cursor
  gives : ∀ {script pair pairs cursor} w, ahead script (pair :: pairs) cursor →
    ∃ after, library.next cursor w = ((.ok (some pair), after), play.elapse w) ∧
      ahead script pairs after
  ends : ∀ {script cursor} w, ahead script [] cursor →
    ∃ after, library.next cursor w = ((script.ending.map fun _ => none, after), play.elapse w) ∧
      ahead script [] after
  closes : ∀ {script cursor} w, ahead script [] cursor →
    ∃ after, library.close cursor w = ((script.closing, after), play.elapse w)

/-- a library whose splits do as their scripts say -/
def Library.Plays (library : Library ρ ε) (play : Play ε) (splits : List Descriptor) : Prop :=
  ∃ ahead, library.PlaysAs play splits ahead

/-- the library that has these splits and does as a play says -/
def Library.scripted (ρ : Type) (play : Play ε) (splits : List Descriptor) : Library ρ ε where
  name := "scripted"
  Cursor := Script × List Pair
  listing _ _ w := (.ok [], w)
  discover _ _ _ w := (.ok splits, play.elapse w)
  openCursor split _ _ w :=
    let script := play.script split w
    (script.opening.map fun _ => (script, script.pairs), play.elapse w)
  next
    | (script, pair :: pairs), w => ((.ok (some pair), (script, pairs)), play.elapse w)
    | (script, []), w => ((script.ending.map fun _ => none, (script, [])), play.elapse w)
  progress _ := none
  close cursor w := ((cursor.1.closing, cursor), play.elapse w)

theorem Library.scripted_plays (ρ : Type) (play : Play ε) (splits : List Descriptor) :
    (scripted ρ play splits).Plays play splits := by
  refine ⟨fun script pairs cursor => cursor = (script, pairs), ?_⟩
  constructor
  case finds => exact fun _ _ _ => rfl
  case refuses =>
    intro split w fault _ _ hopening
    simp [scripted, hopening, Except.map]
  case opens =>
    intro split w _ _ hopening
    exact ⟨_, by simp [scripted, hopening, Except.map], rfl⟩
  case gives =>
    rintro script pair pairs _ w rfl
    exact ⟨(script, pairs), rfl, rfl⟩
  case ends =>
    rintro script _ w rfl
    exact ⟨(script, []), rfl, rfl⟩
  case closes =>
    rintro script _ w rfl
    exact ⟨(script, []), rfl⟩

/-- the error that a reader answers for a fault of the split at an index -/
def blame (splits : List Descriptor) (index : Nat) (fault : Fault) : SourceError :=
  .read ⟨index + 1, splits.length, splits[index]?.map Descriptor.shown⟩ fault

namespace Delivery

/-- What the start or an advance answers, counted from 0, and what the current record is after it:
first the records, then the trouble, once, or else that there are no more. -/
def answer (delivery : Delivery) (splits : List Descriptor) (n : Nat) :
    Except SourceError Bool × Except SourceError Pair :=
  match delivery.pairs[n]?, delivery.trouble with
  | some pair, _ => (.ok true, .ok pair)
  | none, none => (.ok false, .error .noCurrentElement)
  | none, some (index, fault) =>
    (.error (if n = delivery.pairs.length then blame splits index fault
        else .illegalState "advance" .failed),
      .error .noCurrentElement)

theorem answer_zero (splits : List Descriptor) (pair : Pair) (rest : Delivery) :
    (after [pair] rest).answer splits 0 = (.ok true, .ok pair) := rfl

theorem answer_succ (splits : List Descriptor) (pair : Pair) (rest : Delivery) (n : Nat) :
    (after [pair] rest).answer splits (n + 1) = rest.answer splits n := by
  simp [answer, after]

end Delivery

namespace Reader

variable {library : Library ρ ε} {play : Play ε}
  {ahead : Script → List Pair → library.Cursor → Prop}
  {reader : Reader library} {w v : World ε} {delivery : Delivery}

/-! ## one search -/

/-- What a reader will deliver, if it goes on in a world. -/
inductive Poised (play : Play ε) (ahead : Script → List Pair → library.Cursor → Prop)
    (reader : Reader library) (w : World ε) : Delivery → Prop
  | between : reader.cursor = none →
      Poised play ahead reader w
        (play.deliver reader.interrupt (reader.splits.drop reader.opened) reader.opened w)
  | inside {script : Script} {pairs : List Pair} {index : Nat} {cursor : library.Cursor} :
      reader.cursor = some cursor → reader.opened = index + 1 → ahead script pairs cursor →
      Poised play ahead reader w (play.resume reader.interrupt script pairs
        (reader.splits.drop reader.opened) index w)

/-- A search as it should be for a delivery. -/
inductive Meets (play : Play ε) (ahead : Script → List Pair → library.Cursor → Prop)
    (splits : List Descriptor) : Delivery → Outcome library Bool → Prop
  | record {pair : Pair} {rest : Delivery} {found : Reader library} {w : World ε} :
      found.current = some pair → Poised play ahead found (play.caller w) rest →
      Meets play ahead splits (.after [pair] rest) (.ok true, found, w)
  | finished {found : Reader library} {w : World ε} :
      Meets play ahead splits ⟨[], none⟩ (.ok false, found, w)
  | failed {index : Nat} {fault : Fault} {found : Reader library} {w : World ε} :
      Meets play ahead splits ⟨[], some (index, fault)⟩
        (.error (blame splits index fault), found, w)

section
variable {unopened : List Descriptor}

/-- An open cursor gives its next record, or it fails, or it is drained and the search goes on. -/
theorem meets_inside (hplays : library.PlaysAs play reader.splits ahead) {script : Script}
    {pairs : List Pair} {index : Nat} {cursor : library.Cursor}
    (hcursor : reader.cursor = some cursor) (hopened : reader.opened = index + 1)
    (hahead : ahead script pairs cursor)
    (hunopened : reader.splits.drop reader.opened = unopened)
    (hdrained : ∀ v, reader.Drained w v → ∃ outcome, Searched unopened reader w outcome ∧
      Meets play ahead reader.splits
        (play.deliver reader.interrupt unopened reader.opened v) outcome) :
    ∃ outcome, Searched unopened reader w outcome ∧
      Meets play ahead reader.splits
        (play.resume reader.interrupt script pairs unopened index w) outcome := by
  cases pairs with
  | cons pair pairs =>
    obtain ⟨after, hnext, hafter⟩ := hplays.gives w hahead
    refine ⟨_, .record hcursor hnext, ?_⟩
    rw [Play.resume_cons, ← hunopened]
    exact .record rfl (.inside rfl hopened hafter)
  | nil =>
    obtain ⟨after, hnext, hafter⟩ := hplays.ends w hahead
    cases hending : script.ending with
    | error fault =>
      rw [hending] at hnext
      refine ⟨_, .broken hcursor hnext, ?_⟩
      rw [Play.resume_nil_of_broken hending, hopened]
      exact .failed
    | ok _ =>
      rw [hending] at hnext
      obtain ⟨closed, hclose⟩ := hplays.closes (play.elapse w) hafter
      cases hclosing : script.closing with
      | error fault =>
        rw [hclosing] at hclose
        refine ⟨_, .unclosed hcursor hnext hclose, ?_⟩
        rw [Play.resume_nil_of_unclosed hending hclosing, hopened]
        exact .failed
      | ok _ =>
        rw [hclosing] at hclose
        rw [Play.resume_nil_of_closed hending hclosing, ← hopened]
        exact hdrained _ (.closed hcursor hnext hclose)

/-- Without a cursor the search opens the next split, by induction on the splits that are left. -/
theorem meets_between (hplays : library.PlaysAs play reader.splits ahead)
    (hunopened : reader.splits.drop reader.opened = unopened) (hdrained : reader.Drained w v) :
    ∃ outcome, Searched unopened reader w outcome ∧
      Meets play ahead reader.splits
        (play.deliver reader.interrupt unopened reader.opened v) outcome := by
  induction unopened generalizing reader w v with
  | nil => exact ⟨_, .finished hdrained, .finished⟩
  | cons split later ih =>
    cases hraised : v.isRaised reader.interrupt with
    | true =>
      refine ⟨_, .interrupted hdrained hraised, ?_⟩
      rw [Play.deliver_of_raised hraised]
      exact .failed
    | false =>
      cases hopening : (play.script split v).opening with
      | error fault =>
        refine ⟨_, .unopened hdrained hraised (hplays.refuses _ _ hopening), ?_⟩
        rw [Play.deliver_of_refused hraised hopening]
        exact .failed
      | ok _ =>
        obtain ⟨cursor, hopen, hahead⟩ :=
          hplays.opens reader.source.overrides reader.interrupt hopening
        have hlater := (of_drop_eq_cons hunopened).2
        let entered : Reader library :=
          { reader with cursor := some cursor, opened := reader.opened + 1 }
        have hentered : library.PlaysAs play entered.splits ahead := hplays
        obtain ⟨outcome, hsearched, hmeets⟩ :=
          meets_inside hentered rfl rfl hahead hlater (fun v hv => ih hentered hlater hv)
        refine ⟨outcome, .onward hdrained hraised hopen hsearched, ?_⟩
        rw [Play.deliver_of_opened hraised hopening]
        exact hmeets

end

/-- **A search finds the first of what is ahead.** -/
theorem Poised.search (hplays : library.PlaysAs play reader.splits ahead)
    (h : Poised play ahead reader w delivery) :
    Meets play ahead reader.splits delivery
      (search (reader.splits.drop reader.opened) reader w) := by
  cases h with
  | between hcursor =>
    obtain ⟨outcome, hsearched, hmeets⟩ := meets_between hplays rfl (.idle hcursor)
    rw [hsearched.eq]
    exact hmeets
  | inside hcursor hopened hahead =>
    obtain ⟨outcome, hsearched, hmeets⟩ := meets_inside hplays hcursor hopened hahead rfl
      (fun v hv => meets_between hplays rfl hv)
    rw [hsearched.eq]
    exact hmeets

/-! ## all advances -/

variable [Ratio ρ]

/-- The outcome of a call, as it should be for a delivery. -/
inductive Answers (play : Play ε) (ahead : Script → List Pair → library.Cursor → Prop)
    (splits : List Descriptor) : Delivery → Outcome library Bool → Prop
  | record {pair : Pair} {rest : Delivery} {found : Reader library} {w : World ε} :
      found.phase = .active → found.splits = splits → found.current = some pair →
      Poised play ahead found (play.caller w) rest →
      Answers play ahead splits (.after [pair] rest) (.ok true, found, w)
  | finished {found : Reader library} {w : World ε} : found.phase = .exhausted →
      Answers play ahead splits ⟨[], none⟩ (.ok false, found, w)
  | failed {index : Nat} {fault : Fault} {found : Reader library} {w : World ε} :
      found.phase = .failed →
      Answers play ahead splits ⟨[], some (index, fault)⟩
        (.error (blame splits index fault), found, w)

/-- **An advance answers the first of what is ahead.** -/
theorem Poised.advance (hplays : library.PlaysAs play reader.splits ahead)
    (hactive : reader.phase = .active) (h : Poised play ahead reader w delivery) :
    Answers play ahead reader.splits delivery (reader.advance w) := by
  have hmeets := h.search hplays
  have hsearched := searched (reader.splits.drop reader.opened) reader w
  rcases hsearch : Reader.search (reader.splits.drop reader.opened) reader w with
    ⟨e | _ | _, found, w₁⟩
  · rw [hsearch] at hmeets
    cases hmeets
    rw [advance_of_error hactive hsearch]
    have hphase : (found.fail w₁).1.phase = .failed := by rw [fail_reader]
    show Answers _ _ _ _ (_, (found.fail w₁).1, (found.fail w₁).2)
    exact .failed hphase
  · rw [hsearch] at hmeets
    cases hmeets
    rw [advance_of_finished hactive hsearch]
    exact .finished rfl
  · rw [hsearch] at hmeets hsearched
    obtain ⟨hsplits, -, hphase⟩ := hsearched.frame
    rw [advance_of_record hactive hsearch]
    cases hmeets with
    | record hcurrent hpoised => exact .record (hphase.trans hactive) hsplits hcurrent hpoised

/-- one more advance, the caller acting on the world before it -/
def proceed (caller : World ε → World ε) (outcome : Outcome library Bool) : Outcome library Bool :=
  outcome.2.1.advance (caller outcome.2.2)

/-- a start and then some advances -/
def visit (reader : Reader library) (caller : World ε → World ε) (w : World ε) (n : Nat) :
    Outcome library Bool :=
  (proceed caller)^[n] (reader.start w)

/-- A reader that has failed refuses each further advance. -/
theorem proceed_of_failed (caller : World ε → World ε) (h : reader.phase = .failed)
    (answer : Except SourceError Bool) (n : Nat) :
    ∃ v, (proceed caller)^[n + 1] (answer, reader, w) =
      (.error (.illegalState "advance" .failed), reader, v) := by
  induction n generalizing answer w with
  | zero =>
    refine ⟨caller w, ?_⟩
    show reader.advance (caller w) = _
    rw [advance_of_refused (by simp [h]) (by simp [h]), h]
  | succ n ih =>
    have hfirst : proceed caller (answer, reader, w) =
        (.error (.illegalState "advance" .failed), reader, caller w) := by
      show reader.advance (caller w) = _
      rw [advance_of_refused (by simp [h]) (by simp [h]), h]
    rw [Function.iterate_succ_apply, hfirst]
    exact ih _

/-- The answers to all further advances, and the reader has failed where one of them is an error. -/
theorem Answers.proceed {splits : List Descriptor} {outcome : Outcome library Bool}
    (hplays : library.PlaysAs play splits ahead)
    (h : Answers play ahead splits delivery outcome) (n : Nat) :
    let later := (Reader.proceed play.caller)^[n] outcome
    (later.1, later.2.1.current?) = delivery.answer splits n ∧
      ((∃ e, later.1 = .error e) → later.2.1.phase = .failed) := by
  induction n generalizing delivery outcome with
  | zero =>
    cases h with
    | record hphase _ hcurrent => simp [current?, hphase, hcurrent, Delivery.answer_zero]
    | finished hphase => simp [current?, hphase, Delivery.answer]
    | failed hphase => simp [current?, hphase, Delivery.answer]
  | succ n ih =>
    cases h with
    | record hphase hsplits _ hpoised =>
      subst hsplits
      rw [Function.iterate_succ_apply, Delivery.answer_succ]
      exact ih (hpoised.advance hplays hphase)
    | @finished found w hphase =>
      have hstays : Reader.proceed play.caller (.ok false, found, w) =
          (.ok false, found, play.caller w) := advance_of_exhausted hphase
      rw [Function.iterate_succ_apply, hstays]
      exact ih (.finished hphase)
    | failed hphase =>
      obtain ⟨v, hlater⟩ := proceed_of_failed play.caller hphase _ n
      rw [hlater]
      simp [current?, hphase, Delivery.answer]

omit [Ratio ρ] in
theorem resolveSplits_of_plays {splits : List Descriptor}
    (hplays : library.PlaysAs play splits ahead) (hsplit : reader.source.split = none) :
    reader.resolveSplits w = (.ok splits, reader, play.elapse w) := by
  simp only [resolveSplits, hsplit, hplays.finds]

/-- Nothing brings a record back once a reader has failed or is closed. -/
theorem after_of_over (h : reader.phase = .failed ∨ reader.phase = .closed)
    (turns : List (Turn ρ ε)) : (reader.after turns).current? = .error .noCurrentElement := by
  induction turns generalizing reader with
  | nil =>
    rw [after, current?]
    obtain h | h := h
    · rw [h]
    · rw [h]
  | cons turn turns ih =>
    refine ih ?_
    obtain hsame | hleads := serve_leads reader turn.request turn.world
    · rw [hsame]
      exact h
    · exact .inr (hleads.closed h)

/-- **A reader answers what its library delivers**: the start and the advances after it give the
records of the splits in their order, then the first trouble under the name of its split, or else
that there are no more.  Once they have answered an error, there never is a record again. -/
theorem visit_delivers {splits : List Descriptor} (hplays : library.Plays play splits)
    {source : Source} (hsplit : source.split = none) (context : Context ρ ε) (w : World ε)
    (n : Nat) :
    let outcome := (make library source context).visit play.caller w n
    (outcome.1, outcome.2.1.current?) =
        (play.deliver context.interrupt splits 0 (play.elapse w)).answer splits n ∧
      ((∃ e, outcome.1 = .error e) →
        ∀ turns, (outcome.2.1.after turns).current? = .error .noCurrentElement) := by
  obtain ⟨ahead, hplays⟩ := hplays
  have hresolve : (make library source context).resolveSplits w =
      (.ok splits, make library source context, play.elapse w) :=
    resolveSplits_of_plays hplays hsplit
  have hstart : Answers play ahead splits
      (play.deliver context.interrupt splits 0 (play.elapse w))
      ((make library source context).start w) := by
    rw [start_of_resolved rfl hresolve]
    let begun : Reader library := { make library source context with splits, phase := .active }
    have hpoised : Poised play ahead begun (play.elapse w)
        (play.deliver context.interrupt splits 0 (play.elapse w)) := .between rfl
    exact hpoised.advance hplays rfl
  obtain ⟨hanswer, hfailed⟩ := hstart.proceed hplays n
  exact ⟨hanswer, fun herror => after_of_over (.inl (hfailed herror))⟩

/-- an empty split, then one that breaks after its first record, and one that is not reached -/
theorem visit_delivers_up_to_broken :
    let pair : Pair := ⟨.long 0, .text "a"⟩
    let fault : Fault := .of .invalidData "broken"
    let split (i : Nat) : Descriptor := .custom ⟨"part", i, 0, s!"part {i}", .ok []⟩
    let script : Descriptor → World Unit → Script
      | .custom ⟨_, 0, _, _, _⟩, _ => ⟨.ok (), [], .ok (), .ok ()⟩
      | _, _ => ⟨.ok (), [pair], .error fault, .ok ()⟩
    let play : Play Unit := ⟨script, id, id⟩
    let library := Library.scripted ℚ play [split 0, split 1, split 2]
    let w : World Unit := ⟨.empty, .empty, [], fun _ => 0, 0, ()⟩
    let outcome (n : Nat) :=
      (make library (Source.text "f") (.standard ℚ Unit ⟨0⟩)).visit id w n
    library.Plays play [split 0, split 1, split 2] ∧ (Source.text "f").split = none ∧
      (outcome 0).1 = .ok true ∧ (outcome 0).2.1.current? = .ok pair ∧
      (outcome 1).1 = .error (.read ⟨2, 3, some "part 1"⟩ fault) ∧
      ∀ turns, ((outcome 1).2.1.after turns).current? = .error .noCurrentElement := by
  intro pair fault split script play library w outcome
  have hplays : library.Plays play [split 0, split 1, split 2] := Library.scripted_plays ℚ play _
  have hquiet : w.isRaised ⟨0⟩ = false := by
    unfold World.isRaised Flags.isRaised Flags.raisedAt
    rfl
  have hdelivery : play.deliver ⟨0⟩ [split 0, split 1, split 2] 0 w =
      ⟨[pair], some (1, fault)⟩ := by
    rw [Play.deliver_of_opened hquiet rfl]
    show Delivery.after [] (play.deliver ⟨0⟩ [split 1, split 2] 1 w) = _
    rw [Play.deliver_of_opened hquiet rfl]
    rfl
  have hanswers (n : Nat) :=
    visit_delivers hplays (show (Source.text "f").split = none from rfl)
      (Context.standard ℚ Unit ⟨0⟩) w n
  obtain ⟨hrecord, -⟩ := hanswers 0
  obtain ⟨hbroken, hafter⟩ := hanswers 1
  have hfirst : ((outcome 0).1, (outcome 0).2.1.current?) = (.ok true, .ok pair) :=
    hrecord.trans (congrArg (Delivery.answer · _ 0) hdelivery)
  have hsecond : ((outcome 1).1, (outcome 1).2.1.current?) =
      (.error (.read ⟨2, 3, some "part 1"⟩ fault), .error .noCurrentElement) :=
    hbroken.trans (congrArg (Delivery.answer · _ 1) hdelivery)
  have herror : (outcome 1).1 = .error (.read ⟨2, 3, some "part 1"⟩ fault) :=
    congrArg Prod.fst hsecond
  exact ⟨hplays, rfl, congrArg Prod.fst hfirst, congrArg Prod.snd hfirst, herror,
    hafter ⟨_, herror⟩⟩

end Reader

end Splittable
