import Splittable.Reader

/-!
# Libraries that leave flags alone

A format library is given a flag to look at, not to raise.  Where the libraries and decoders of a
context keep to that, no operation of a reader changes a flag.

* `Library.Quiet`, `Decoders.Quiet`, `Context.Quiet`   no operation changes a flag;
* `Reader.start_flags`, `advance_flags`, `close_flags`, `drop_flags`   nor does a reader;
* `Library.quiet_text`, `Decoders.quiet_builtin`   the text format and the decoder of file splits.
-/

namespace Splittable

variable {ρ ε : Type}

/-- the operations that a reader uses leave the flags alone -/
structure Library.Quiet (library : Library ρ ε) : Prop where
  discover : ∀ resource overrides size w,
    (library.discover resource overrides size w).2.flags = w.flags
  openCursor : ∀ split overrides flag w,
    (library.openCursor split overrides flag w).2.flags = w.flags
  next : ∀ cursor w, (library.next cursor w).2.flags = w.flags
  close : ∀ cursor w, (library.close cursor w).2.flags = w.flags

/-- decoding leaves the flags alone -/
def Decoders.Quiet (decoders : Decoders ε) : Prop :=
  ∀ tag decoder, decoders.find? tag = some decoder →
    ∀ payload w, (decoder payload w).2.flags = w.flags

/-- the libraries and decoders of a context leave the flags alone -/
structure Context.Quiet (context : Context ρ ε) : Prop where
  formats : ∀ name library, context.formats.find? name = some library → library.Quiet
  decoders : context.decoders.Quiet

theorem Library.quiet_text [Ratio ρ] : (Library.text ρ ε).Quiet where
  discover _ _ _ _ := rfl
  openCursor _ _ _ _ := rfl
  next _ _ := rfl
  close _ _ := rfl

theorem Decoders.quiet_builtin : (Decoders.builtin : Decoders ε).Quiet := by
  intro tag decoder hfind payload w
  have hdecoder : decoder = decodeFile := by
    have hinsert := Table.find?_insert (Table.empty : Decoders ε) FileSplit.tag tag decodeFile
    rw [show (Table.insert (Table.empty : Decoders ε) FileSplit.tag decodeFile).find? tag =
      some decoder from hfind] at hinsert
    split at hinsert
    · exact Option.some.inj hinsert
    · cases hinsert
  subst hdecoder
  unfold decodeFile
  cases FileSplit.ofPayload payload with
  | ok split => rfl
  | error flaw => rfl

theorem Formats.eq_of_find?_register {library found : Library ρ ε} {name : String}
    (h : ((∅ : Formats ρ ε).register library).find? name = some found) : found = library := by
  have hinsert := Table.find?_insert (∅ : Formats ρ ε) library.name name library
  rw [show (Table.insert (∅ : Formats ρ ε) library.name library).find? name = some found from h]
    at hinsert
  split at hinsert
  · exact Option.some.inj hinsert
  · cases hinsert

theorem Context.quiet_standard [Ratio ρ] (interrupt : Flag) :
    (Context.standard ρ ε interrupt).Quiet where
  formats name library hfind := by
    rw [Formats.eq_of_find?_register hfind]
    exact Library.quiet_text
  decoders := Decoders.quiet_builtin

theorem Decoders.decode_flags {decoders : Decoders ε} (h : decoders.Quiet) (tag : String)
    (payload : Bytes) (w : World ε) : (decoders.decode tag payload w).2.flags = w.flags := by
  unfold Decoders.decode
  cases hfind : decoders.find? tag with
  | none => rfl
  | some decoder =>
    have hdecoder := h tag decoder hfind payload w
    simp only [bind, StateT.bind]
    rcases hanswer : decoder payload w with ⟨fault | split, w'⟩
    · rw [hanswer] at hdecoder
      exact hdecoder
    · rw [hanswer] at hdecoder
      exact hdecoder

theorem Handle.split_flags {decoders : Decoders ε} (h : decoders.Quiet) (handle : Handle)
    (w : World ε) : (handle.split decoders w).2.flags = w.flags := by
  unfold Handle.split
  cases handle.decoded with
  | some split => rfl
  | none =>
    have hdecode := Decoders.decode_flags h handle.tag handle.payload w
    simp only [bind, StateT.bind]
    rcases hanswer : decoders.decode handle.tag handle.payload w with ⟨error | split, w'⟩
    · rw [hanswer] at hdecode
      exact hdecode
    · rw [hanswer] at hdecode
      exact hdecode

namespace Reader

variable {library : Library ρ ε} (h : library.Quiet) (reader : Reader library) (w : World ε)

include h

theorem release_flags : (reader.release w).2.2.flags = w.flags := by
  unfold release
  cases reader.cursor with
  | none => rfl
  | some cursor =>
    have hclose := h.close cursor w
    dsimp only
    rcases hanswer : library.close cursor w with ⟨⟨fault | _, after⟩, w'⟩
    · rw [hanswer] at hclose
      exact hclose
    · rw [hanswer] at hclose
      exact hclose

theorem pull_flags : (reader.pull w).2.2.flags = w.flags := by
  unfold pull
  cases reader.cursor with
  | none => rfl
  | some cursor =>
    have hnext := h.next cursor w
    dsimp only
    rcases hanswer : library.next cursor w with ⟨⟨fault | _ | pair, after⟩, w'⟩
    · rw [hanswer] at hnext
      exact hnext
    · rw [hanswer] at hnext
      have hrelease := release_flags h { reader with cursor := some after } w'
      dsimp only
      rcases hclosed : release { reader with cursor := some after } w' with ⟨error | _, closed, w''⟩
      · rw [hclosed] at hrelease
        exact hrelease.trans hnext
      · rw [hclosed] at hrelease
        exact hrelease.trans hnext
    · rw [hanswer] at hnext
      exact hnext

theorem openNext_flags (split : Descriptor) : (reader.openNext split w).2.2.flags = w.flags := by
  unfold openNext
  cases w.isRaised reader.interrupt with
  | true => rfl
  | false =>
    have hopen := h.openCursor split reader.source.overrides reader.interrupt w
    rw [if_neg Bool.false_ne_true]
    dsimp only
    rcases hanswer : library.openCursor split reader.source.overrides reader.interrupt w with
      ⟨fault | cursor, w'⟩
    · rw [hanswer] at hopen
      exact hopen
    · rw [hanswer] at hopen
      exact hopen

theorem search_flags (unopened : List Descriptor) :
    (search unopened reader w).2.2.flags = w.flags := by
  induction unopened generalizing reader w with
  | nil => exact pull_flags h reader w
  | cons split unopened ih =>
    have hpull := pull_flags h reader w
    unfold search
    rcases hpulled : reader.pull w with ⟨error | _ | _, reader', w'⟩
    · rw [hpulled] at hpull
      exact hpull
    · rw [hpulled] at hpull
      have hopen := openNext_flags h reader' w' split
      dsimp only
      rcases hopened : reader'.openNext split w' with ⟨error | _, reader'', w''⟩
      · rw [hopened] at hopen
        exact hopen.trans hpull
      · rw [hopened] at hopen
        exact (ih reader'' w'').trans (hopen.trans hpull)
    · rw [hpulled] at hpull
      exact hpull

theorem drop_flags : (reader.drop w).flags = w.flags := by
  unfold drop
  cases reader.cursor with
  | none => rfl
  | some cursor =>
    have hclose := h.close cursor w
    dsimp only
    rcases hanswer : library.close cursor w with ⟨⟨fault | _, after⟩, w'⟩
    · rw [hanswer] at hclose
      exact hclose
    · rw [hanswer] at hclose
      exact hclose

variable [Ratio ρ]

theorem fail_flags : (reader.fail w).2.flags = w.flags := by
  unfold fail
  dsimp only
  cases reader.cursor with
  | none => rfl
  | some cursor =>
    have hclose := h.close cursor w
    dsimp only
    rcases hanswer : library.close cursor w with ⟨⟨fault | _, after⟩, w'⟩
    · rw [hanswer] at hclose
      exact hclose
    · rw [hanswer] at hclose
      exact hclose

theorem advance_flags : (reader.advance w).2.2.flags = w.flags := by
  unfold advance
  cases reader.phase with
  | active =>
    have hsearch := search_flags h reader w (reader.splits.drop reader.opened)
    dsimp only
    rcases hfound : search (reader.splits.drop reader.opened) reader w with
      ⟨error | _ | _, reader', w'⟩
    · rw [hfound] at hsearch
      exact (fail_flags h reader' w').trans hsearch
    · rw [hfound] at hsearch
      exact hsearch
    · rw [hfound] at hsearch
      exact hsearch
  | _ => rfl

omit [Ratio ρ] in
theorem resolveSplits_flags (hdecoders : reader.decoders.Quiet) :
    (reader.resolveSplits w).2.2.flags = w.flags := by
  unfold resolveSplits
  cases reader.source.split with
  | some handle =>
    have hsplit := Handle.split_flags hdecoders handle w
    dsimp only
    rcases hanswer : handle.split reader.decoders w with ⟨⟨error | split, handle'⟩, w'⟩
    · rw [hanswer] at hsplit
      exact hsplit
    · rw [hanswer] at hsplit
      exact hsplit
  | none =>
    have hdiscover := h.discover reader.source.resourceText reader.source.overrides none w
    dsimp only
    rcases hanswer : library.discover reader.source.resourceText reader.source.overrides none w with
      ⟨fault | splits, w'⟩
    · rw [hanswer] at hdiscover
      exact hdiscover
    · rw [hanswer] at hdiscover
      exact hdiscover

theorem start_flags (hdecoders : reader.decoders.Quiet) :
    (reader.start w).2.2.flags = w.flags := by
  unfold start
  cases reader.phase with
  | notStarted =>
    have hresolve := resolveSplits_flags h reader w hdecoders
    dsimp only
    rcases hanswer : reader.resolveSplits w with ⟨error | splits, reader', w'⟩
    · rw [hanswer] at hresolve
      exact hresolve
    · rw [hanswer] at hresolve
      exact (advance_flags h _ w').trans hresolve
  | _ => rfl

theorem close_flags : (reader.close w).2.2.flags = w.flags := by
  unfold close
  by_cases hclosed : reader.phase = .closed
  · rw [if_pos hclosed]
  · rw [if_neg hclosed]
    exact release_flags h _ w

end Reader

theorem Source.of_createReader [Ratio ρ] {source : Source} {context : Context ρ ε}
    {created : AnyReader ρ ε} (h : source.createReader context = .ok created) :
    ∃ name library, context.formats.find? name = some library ∧
      created = ⟨library, .make library source context⟩ := by
  unfold Source.createReader at h
  cases hvalid : source.validate with
  | error error =>
    rw [hvalid] at h
    cases h
  | ok _ =>
    rw [hvalid] at h
    dsimp only at h
    unfold Source.library at h
    dsimp only at h
    cases hfind : context.formats.find? (source.format.getD "") with
    | none =>
      rw [hfind] at h
      cases h
    | some library =>
      rw [hfind] at h
      cases h
      exact ⟨_, _, hfind, rfl⟩

theorem Context.Quiet.created [Ratio ρ] {source : Source} {context : Context ρ ε}
    {created : AnyReader ρ ε} (h : context.Quiet)
    (hcreate : source.createReader context = .ok created) :
    created.library.Quiet ∧ created.reader.decoders.Quiet := by
  obtain ⟨name, library, hfind, rfl⟩ := Source.of_createReader hcreate
  exact ⟨h.formats name library hfind, h.decoders⟩

end Splittable
