import Splittable.Proofs.Reader.Quiet

/-!
# Libraries that watch their flags

A cursor is opened with a flag to watch: it answers an interruption only where it finds that flag
raised, and no record from then on.  Where the libraries of a context keep to that, so does every
operation of a reader.

* `Library.Watches`, `Library.Candid`, `Context.Candid`   no interruption without a raised flag,
  and no record with one;
* `Library.candid_text`   the text format;
* `Reader.Candid`         what an operation of a reader answers, and what becomes of its flag;
* `Reader.start_candid`, `advance_candid`, `close_candid`   the operations of a reader;
* `Reader.start_of_raised`, `advance_of_raised`   a reader whose flag is raised has no more records.
-/

namespace Splittable

variable {ρ ε : Type}

/-- Each cursor watches the flag that it was opened with.  An interruption is answered only where
that flag is raised, and a record only where it is not. -/
structure Library.Watches (library : Library ρ ε) (watches : library.Cursor → Flag → Prop) :
    Prop where
  opened : ∀ split overrides flag w cursor,
    (library.openCursor split overrides flag w).1 = .ok cursor → watches cursor flag
  unopened : ∀ split overrides flag w fault,
    (library.openCursor split overrides flag w).1 = .error fault →
      fault.kind = .interrupted → w.isRaised flag = true
  moved : ∀ cursor flag w, watches cursor flag → watches (library.next cursor w).1.2 flag
  unmoved : ∀ cursor flag w fault, watches cursor flag →
    (library.next cursor w).1.1 = .error fault →
      fault.kind = .interrupted → w.isRaised flag = true
  heeds : ∀ cursor flag w pair, watches cursor flag → w.isRaised flag = true →
    (library.next cursor w).1.1 ≠ .ok (some pair)
  unclosed : ∀ cursor flag w fault, watches cursor flag →
    (library.close cursor w).1.1 = .error fault →
      fault.kind = .interrupted → w.isRaised flag = true

def Library.Candid (library : Library ρ ε) : Prop :=
  ∃ watches : library.Cursor → Flag → Prop, library.Watches watches

def Context.Candid (context : Context ρ ε) : Prop :=
  ∀ name library, context.formats.find? name = some library → library.Candid

/-! ## the text format -/

theorem OsError.kind_ne_interrupted (e : OsError) : e.kind ≠ .interrupted := by
  cases e <;> exact fun h => by cases h

theorem LineText.kind_of_openCursor {files : FileSystem} {split : Descriptor}
    {overrides : Overrides} {flag : Flag} {fault : Fault}
    (h : openCursor files split overrides flag = .error fault) : fault.kind ≠ .interrupted := by
  cases split with
  | custom split =>
    cases h
    exact fun h => by cases h
  | file split =>
    obtain hdelimiter | ⟨delimiter, -, hopen⟩ := bind_error h
    · unfold Delimiter.ofOverrides at hdelimiter
      split at hdelimiter
      · cases hdelimiter
      · split at hdelimiter
        · cases hdelimiter
          exact fun h => by cases h
        · cases hdelimiter
    · obtain ⟨e, rfl⟩ | rfl := LineCursor.of_open_eq_error hopen
      · exact e.kind_ne_interrupted
      · exact fun h => by cases h

theorem LineText.interrupt_of_openCursor {files : FileSystem} {split : Descriptor}
    {overrides : Overrides} {flag : Flag} {cursor : LineCursor}
    (h : openCursor files split overrides flag = .ok cursor) : cursor.interrupt = flag := by
  cases split with
  | custom split => cases h
  | file split => exact (of_openCursor_file h).2.2

theorem LineCursor.moveTo_interrupt (cursor : LineCursor) (file : OpenFile)
    (position : Except Fault UInt64) (answer : Except Fault (Option Pair)) :
    (cursor.moveTo file position answer).2.interrupt = cursor.interrupt := by
  cases position with
  | ok position => rfl
  | error fault => rfl

theorem LineCursor.next_interrupt (files : FileSystem) (raised : Bool) (cursor : LineCursor) :
    (cursor.next files raised).2.interrupt = cursor.interrupt := by
  unfold next
  split
  · rfl
  · split
    · rfl
    · split
      · rfl
      · split
        · rfl
        · exact cursor.moveTo_interrupt _ _ _
        · exact cursor.moveTo_interrupt _ _ _

/-- An offset that is no word is no interruption, so where a cursor goes on with an answer only that
can be one. -/
theorem LineCursor.of_moveTo_interrupted {cursor : LineCursor} {file : OpenFile} {a : UInt64}
    {n : Nat} {answer : Except Fault (Option Pair)} {fault : Fault}
    (h : (cursor.moveTo file (Word.add a n) answer).1 = .error fault)
    (hkind : fault.kind = .interrupted) : answer = .error fault := by
  cases hadd : Word.add a n with
  | ok position =>
    rw [hadd] at h
    exact h
  | error overflow =>
    rw [hadd] at h
    cases h
    rw [(Word.of_add_eq_error hadd).1] at hkind
    cases hkind

theorem LineCursor.raised_of_next {files : FileSystem} {raised : Bool} {cursor : LineCursor}
    {fault : Fault} (h : (cursor.next files raised).1 = .error fault)
    (hkind : fault.kind = .interrupted) : raised = true := by
  unfold next at h
  split at h
  · assumption
  · split at h
    · cases h
    · split at h
      · cases h
      · split at h
        · rename_i e _
          cases h
          exact absurd hkind e.kind_ne_interrupted
        · cases of_moveTo_interrupted h hkind
        · have hpair := of_moveTo_interrupted h hkind
          unfold pairOf at hpair
          split at hpair
          · cases hpair
          · cases hpair
            cases hkind

theorem LineCursor.calm_of_next {files : FileSystem} {raised : Bool} {cursor : LineCursor}
    {answer : Option Pair} (h : (cursor.next files raised).1 = .ok answer) : raised = false := by
  cases raised with
  | false => rfl
  | true => cases h

theorem Library.candid_text [Ratio ρ] : (Library.text ρ ε).Candid :=
  ⟨fun cursor flag => cursor.interrupt = flag,
    { opened := fun _ _ _ _ _ h => LineText.interrupt_of_openCursor h
      unopened := fun _ _ _ _ _ h hkind => absurd hkind (LineText.kind_of_openCursor h)
      moved := fun cursor _ w h => (LineCursor.next_interrupt w.files _ cursor).trans h
      unmoved := fun _ _ _ _ hflag h hkind => hflag ▸ LineCursor.raised_of_next h hkind
      heeds := fun _ _ _ _ hflag hraised h =>
        Bool.false_ne_true ((LineCursor.calm_of_next h).symm.trans (hflag.symm ▸ hraised))
      unclosed := fun _ _ _ _ _ h _ => by cases h }⟩

theorem Context.candid_standard [Ratio ρ] (interrupt : Flag) :
    (Context.standard ρ ε interrupt).Candid := by
  intro name library hfind
  rw [Formats.eq_of_find?_register hfind]
  exact Library.candid_text

/-! ## readers -/

theorem World.isRaised_of_flags {w w' : World ε} (h : w'.flags = w.flags) (flag : Flag) :
    w'.isRaised flag = w.isRaised flag := by
  unfold World.isRaised
  rw [h]

namespace Reader

variable {library : Library ρ ε} {watches : library.Cursor → Flag → Prop}

/-- the open cursor watches the flag of the reader -/
def Watching (watches : library.Cursor → Flag → Prop) (reader : Reader library) : Prop :=
  ∀ cursor, reader.cursor = some cursor → watches cursor reader.interrupt

/-- What an operation makes of a reader: the flag is still its own, its cursor watches that flag,
and an interruption is answered only where the flag was raised before. -/
structure Candid {α : Type} (watches : library.Cursor → Flag → Prop) (reader : Reader library)
    (w : World ε) (outcome : Outcome library α) : Prop where
  interrupt : outcome.2.1.interrupt = reader.interrupt
  watching : outcome.2.1.Watching watches
  raised : ∀ e, outcome.1 = .error e → e.isInterrupted = true → w.isRaised reader.interrupt = true

/-- an operation after one that left the flags alone -/
theorem Candid.after {α β : Type} {reader : Reader library} {w : World ε}
    {first : Outcome library β} {second : Outcome library α} (h : Candid watches reader w first)
    (hflags : first.2.2.flags = w.flags) (hsecond : Candid watches first.2.1 first.2.2 second) :
    Candid watches reader w second where
  interrupt := hsecond.interrupt.trans h.interrupt
  watching := hsecond.watching
  raised e he hinterrupted := by
    have hraised := hsecond.raised e he hinterrupted
    rwa [h.interrupt, World.isRaised_of_flags hflags] at hraised

theorem fail_watching [Ratio ρ] (watches : library.Cursor → Flag → Prop) (reader : Reader library)
    (w : World ε) : (reader.fail w).1.interrupt = reader.interrupt ∧
    (reader.fail w).1.Watching watches := by
  unfold fail
  dsimp only
  cases reader.cursor with
  | none => exact ⟨rfl, fun _ hnone => by cases hnone⟩
  | some cursor =>
    dsimp only
    rcases library.close cursor w with ⟨⟨fault | _, after⟩, w'⟩
    · exact ⟨rfl, fun _ hnone => by cases hnone⟩
    · exact ⟨rfl, fun _ hnone => by cases hnone⟩

section
variable (h : library.Watches watches) (reader : Reader library) (w : World ε)
  (hwatching : reader.Watching watches)

theorem kind_of_isInterrupted {position : Nat} {fault : Fault}
    (h : (reader.readError position fault).isInterrupted = true) : fault.kind = .interrupted :=
  eq_of_beq h

include h hwatching

theorem release_candid : Candid watches reader w (reader.release w) := by
  unfold release
  cases hcursor : reader.cursor with
  | none => exact ⟨rfl, hwatching, fun e he => by cases he⟩
  | some cursor =>
    have hclose := fun fault =>
      h.unclosed cursor reader.interrupt w fault (hwatching cursor hcursor)
    dsimp only
    rcases hanswer : library.close cursor w with ⟨⟨fault | _, after⟩, w'⟩
    · rw [hanswer] at hclose
      refine ⟨rfl, fun _ hnone => (by cases hnone), fun e he hinterrupted => ?_⟩
      cases he
      exact hclose fault rfl (kind_of_isInterrupted reader hinterrupted)
    · exact ⟨rfl, fun _ hnone => (by cases hnone), fun e he => by cases he⟩

theorem pull_candid (hquiet : library.Quiet) : Candid watches reader w (reader.pull w) := by
  unfold pull
  cases hcursor : reader.cursor with
  | none => exact ⟨rfl, hwatching, fun e he => by cases he⟩
  | some cursor =>
    have hcurrent := hwatching cursor hcursor
    have hnext := fun fault => h.unmoved cursor reader.interrupt w fault hcurrent
    have hmoved := h.moved cursor reader.interrupt w hcurrent
    have hflags := hquiet.next cursor w
    dsimp only
    rcases hanswer : library.next cursor w with ⟨⟨fault | _ | pair, after⟩, w'⟩
    · rw [hanswer] at hnext hmoved
      refine ⟨rfl, fun _ hsome => Option.some.inj hsome ▸ hmoved, fun e he hinterrupted => ?_⟩
      cases he
      exact hnext fault rfl (kind_of_isInterrupted reader hinterrupted)
    · rw [hanswer] at hmoved hflags
      have hrelease := release_candid h { reader with cursor := some after } w'
        fun _ hsome => Option.some.inj hsome ▸ hmoved
      have hraised := World.isRaised_of_flags hflags reader.interrupt
      dsimp only
      rcases hclosed : release { reader with cursor := some after } w' with ⟨error | _, closed, w''⟩
      · rw [hclosed] at hrelease
        refine ⟨hrelease.interrupt, hrelease.watching, fun e he hinterrupted => ?_⟩
        cases he
        exact hraised ▸ hrelease.raised error rfl hinterrupted
      · rw [hclosed] at hrelease
        exact ⟨hrelease.interrupt, hrelease.watching, fun e he => by cases he⟩
    · rw [hanswer] at hmoved
      exact ⟨rfl, fun _ hsome => Option.some.inj hsome ▸ hmoved, fun e he => by cases he⟩

theorem openNext_candid (split : Descriptor) :
    Candid watches reader w (reader.openNext split w) := by
  unfold openNext
  cases hflag : w.isRaised reader.interrupt with
  | true =>
    rw [if_pos rfl]
    exact ⟨rfl, hwatching, fun _ _ _ => hflag⟩
  | false =>
    have hopened := h.opened split reader.source.overrides reader.interrupt w
    have hunopened := h.unopened split reader.source.overrides reader.interrupt w
    rw [if_neg Bool.false_ne_true]
    dsimp only
    rcases hanswer : library.openCursor split reader.source.overrides reader.interrupt w with
      ⟨fault | cursor, w'⟩
    · rw [hanswer] at hunopened
      refine ⟨rfl, hwatching, fun e he hinterrupted => ?_⟩
      cases he
      exact hunopened fault rfl (eq_of_beq hinterrupted)
    · rw [hanswer] at hopened
      refine ⟨rfl, fun _ hsome => ?_, fun e he => by cases he⟩
      cases hsome
      exact hopened cursor rfl

theorem search_candid (hquiet : library.Quiet) (unopened : List Descriptor) :
    Candid watches reader w (search unopened reader w) := by
  induction unopened generalizing reader w with
  | nil => exact pull_candid h reader w hwatching hquiet
  | cons split unopened ih =>
    have hpull := pull_candid h reader w hwatching hquiet
    have hpullFlags := pull_flags hquiet reader w
    unfold search
    rcases hpulled : reader.pull w with ⟨error | _ | _, reader', w'⟩
    · rw [hpulled] at hpull
      exact ⟨hpull.interrupt, hpull.watching, fun e he => hpull.raised e (by cases he; rfl)⟩
    · -- each later answer is traced back to the flags from before the pull
      rw [hpulled] at hpull hpullFlags
      have hopen := openNext_candid h reader' w' hpull.watching split
      have hopenFlags := openNext_flags hquiet reader' w' split
      refine hpull.after hpullFlags ?_
      dsimp only
      rcases hopened : reader'.openNext split w' with ⟨error | _, reader'', w''⟩
      · rw [hopened] at hopen
        exact ⟨hopen.interrupt, hopen.watching, fun e he => hopen.raised e (by cases he; rfl)⟩
      · rw [hopened] at hopen hopenFlags
        exact hopen.after hopenFlags (ih reader'' w'' hopen.watching)
    · rw [hpulled] at hpull
      exact ⟨hpull.interrupt, hpull.watching, fun e he => by cases he⟩

variable [Ratio ρ]

theorem advance_candid (hquiet : library.Quiet) :
    Candid watches reader w (reader.advance w) := by
  unfold advance
  cases reader.phase with
  | active =>
    have hsearch := search_candid h reader w hwatching hquiet (reader.splits.drop reader.opened)
    dsimp only
    rcases hfound : search (reader.splits.drop reader.opened) reader w with
      ⟨error | _ | _, reader', w'⟩
    · rw [hfound] at hsearch
      obtain ⟨hinterrupt, hfailed⟩ := fail_watching watches reader' w'
      exact ⟨hinterrupt.trans hsearch.interrupt, hfailed,
        fun e he => hsearch.raised e (by cases he; rfl)⟩
    · rw [hfound] at hsearch
      exact ⟨hsearch.interrupt, hsearch.watching, fun e he => by cases he⟩
    · rw [hfound] at hsearch
      exact ⟨hsearch.interrupt, hsearch.watching, fun e he => by cases he⟩
  | exhausted => exact ⟨rfl, hwatching, fun e he => by cases he⟩
  | _ => exact ⟨rfl, hwatching, fun e he hinterrupted => by cases he; cases hinterrupted⟩

omit h [Ratio ρ] in
theorem resolveSplits_candid : Candid watches reader w (reader.resolveSplits w) := by
  unfold resolveSplits
  cases reader.source.split with
  | some handle =>
    dsimp only
    rcases handle.split reader.decoders w with ⟨⟨error | split, handle'⟩, w'⟩
    · exact ⟨rfl, hwatching, fun e he hinterrupted => by cases he; cases hinterrupted⟩
    · exact ⟨rfl, hwatching, fun e he => by cases he⟩
  | none =>
    dsimp only
    rcases library.discover reader.source.resourceText reader.source.overrides none w with
      ⟨fault | splits, w'⟩
    · exact ⟨rfl, hwatching, fun e he hinterrupted => by cases he; cases hinterrupted⟩
    · exact ⟨rfl, hwatching, fun e he => by cases he⟩

theorem start_candid (hquiet : library.Quiet) (hdecoders : reader.decoders.Quiet) :
    Candid watches reader w (reader.start w) := by
  unfold start
  cases reader.phase with
  | notStarted =>
    have hresolve := resolveSplits_candid reader w hwatching
    have hflags := resolveSplits_flags hquiet reader w hdecoders
    dsimp only
    rcases hanswer : reader.resolveSplits w with ⟨error | splits, reader', w'⟩
    · rw [hanswer] at hresolve
      exact ⟨hresolve.interrupt, hresolve.watching,
        fun e he => hresolve.raised e (by cases he; rfl)⟩
    · rw [hanswer] at hresolve hflags
      have hadvance := advance_candid h { reader' with splits := splits, phase := .active } w'
        hresolve.watching hquiet
      exact hresolve.after hflags ⟨hadvance.interrupt, hadvance.watching, hadvance.raised⟩
  | _ => exact ⟨rfl, hwatching, fun e he hinterrupted => by cases he; cases hinterrupted⟩

theorem close_candid : Candid watches reader w (reader.close w) := by
  unfold close
  by_cases hclosed : reader.phase = .closed
  · rw [if_pos hclosed]
    exact ⟨rfl, hwatching, fun e he => by cases he⟩
  · rw [if_neg hclosed]
    have hrelease := release_candid h
      { reader with frozen := reader.fraction, current := none, phase := .closed } w hwatching
    exact ⟨hrelease.interrupt, hrelease.watching, hrelease.raised⟩

end

theorem error_of_current {reader : Reader library} {error : SourceError}
    (h : reader.current? = .error error) : error = .noCurrentElement := by
  unfold current? at h
  split at h
  · cases h
  · cases h
    rfl

/-! ## readers whose flag is raised -/

section
variable (h : library.Watches watches) (hquiet : library.Quiet) (reader : Reader library)
  (w : World ε) (hwatching : reader.Watching watches)
  (hraised : w.isRaised reader.interrupt = true)

include h hquiet hwatching hraised

omit hquiet in
theorem pull_of_raised : (reader.pull w).1 ≠ .ok true := by
  unfold pull
  cases hcursor : reader.cursor with
  | none => exact fun hok => by cases hok
  | some cursor =>
    have hheeds := fun pair =>
      h.heeds cursor reader.interrupt w pair (hwatching cursor hcursor) hraised
    dsimp only
    rcases hanswer : library.next cursor w with ⟨⟨fault | _ | pair, after⟩, w'⟩
    · exact fun hok => by cases hok
    · dsimp only
      rcases release { reader with cursor := some after } w' with ⟨error | _, closed, w''⟩
      · exact fun hok => by cases hok
      · exact fun hok => by cases hok
    · rw [hanswer] at hheeds
      exact absurd rfl (hheeds pair)

theorem search_of_raised (unopened : List Descriptor) :
    (search unopened reader w).1 ≠ .ok true := by
  cases unopened with
  | nil => exact pull_of_raised h reader w hwatching hraised
  | cons split unopened =>
    have hpull := pull_of_raised h reader w hwatching hraised
    have hcandid := pull_candid h reader w hwatching hquiet
    have hflags := pull_flags hquiet reader w
    unfold search
    rcases hpulled : reader.pull w with ⟨error | _ | _, reader', w'⟩
    · exact fun hok => by cases hok
    · rw [hpulled] at hcandid hflags
      have hstill : w'.isRaised reader'.interrupt = true := by
        rw [hcandid.interrupt, World.isRaised_of_flags hflags, hraised]
      dsimp only
      unfold openNext
      rw [if_pos hstill]
      exact fun hok => by cases hok
    · rw [hpulled] at hpull
      exact absurd rfl hpull

variable [Ratio ρ]

theorem advance_of_raised : (reader.advance w).1 ≠ .ok true := by
  unfold advance
  cases reader.phase with
  | active =>
    have hsearch := search_of_raised h hquiet reader w hwatching hraised
      (reader.splits.drop reader.opened)
    dsimp only
    rcases hfound : search (reader.splits.drop reader.opened) reader w with
      ⟨error | _ | _, reader', w'⟩
    · exact fun hok => by cases hok
    · exact fun hok => by cases hok
    · rw [hfound] at hsearch
      exact absurd rfl hsearch
  | _ => exact fun hok => by cases hok

theorem start_of_raised (hdecoders : reader.decoders.Quiet) : (reader.start w).1 ≠ .ok true := by
  unfold start
  cases reader.phase with
  | notStarted =>
    have hresolve := resolveSplits_candid reader w hwatching
    have hflags := resolveSplits_flags hquiet reader w hdecoders
    dsimp only
    rcases hanswer : reader.resolveSplits w with ⟨error | splits, reader', w'⟩
    · exact fun hok => by cases hok
    · rw [hanswer] at hresolve hflags
      have hstill : w'.isRaised reader'.interrupt = true := by
        rw [hresolve.interrupt, World.isRaised_of_flags hflags, hraised]
      exact advance_of_raised h hquiet { reader' with splits := splits, phase := .active } w'
        hresolve.watching hstill
  | _ => exact fun hok => by cases hok

end

end Reader

/-- the reader has a flag for its own, and its cursor watches it -/
def AnyReader.Candid (any : AnyReader ρ ε) (flag : Flag) : Prop :=
  ∃ watches : any.library.Cursor → Flag → Prop, any.library.Watches watches ∧
    any.reader.Watching watches ∧ any.reader.interrupt = flag

theorem Context.Candid.created [Ratio ρ] {source : Source} {context : Context ρ ε}
    {created : AnyReader ρ ε} (h : context.Candid)
    (hcreate : source.createReader context = .ok created) :
    created.Candid context.interrupt := by
  obtain ⟨name, library, hfind, rfl⟩ := Source.of_createReader hcreate
  obtain ⟨watches, hwatches⟩ := h name library hfind
  exact ⟨watches, hwatches, fun _ hnone => (by cases hnone), rfl⟩

theorem Source.createReader_error [Ratio ρ] {source : Source} {context : Context ρ ε}
    {error : SourceError} (h : source.createReader context = .error error) :
    error.isInterrupted = false := by
  unfold createReader at h
  cases hvalid : source.validate with
  | error error' =>
    rw [hvalid] at h
    cases h
    unfold validate at hvalid
    split at hvalid
    · cases hvalid
      rfl
    · split at hvalid
      · cases hvalid
        rfl
      · split at hvalid
        · cases hvalid
          rfl
        · split at hvalid
          · cases hvalid
            rfl
          · cases hvalid
  | ok _ =>
    rw [hvalid] at h
    dsimp only at h
    cases hlibrary : source.library context with
    | error cause =>
      rw [hlibrary] at h
      cases h
      rfl
    | ok library =>
      rw [hlibrary] at h
      cases h

end Splittable
