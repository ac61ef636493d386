import Splittable.Proofs.Reader.Candid
import Splittable.Proofs.Reader.Likeness
import Splittable.Proofs.Source.Bundles
import Splittable.Proofs.Source.Plan
import Splittable.Proofs.Source.Shipped
import Splittable.Proofs.Split.Payload

/-!
# Shipping a bundle does not show

A bundle keeps the descriptor of its split, and the source that is read from what is shipped of it
makes the descriptor again when it is read.  Nothing that a reader answers tells the two apart.

* `Library.textLikeness`             the text format under two flags answers the same;
* `Source.of_mem_bundles_text`       what a bundle of a source of text is;
* `Source.shipping_transparent`      a bundle and what is read from its shipped form.
-/

namespace Splittable

variable {ρ ε ε₁ ε₂ : Type}

/-! ## the text format under two flags -/

theorem LineCursor.open_interrupt (files : FileSystem) (split : FileSplit) (delimiter : Delimiter)
    (flag₁ flag₂ : Flag) :
    LineCursor.open files split delimiter flag₂ =
      (LineCursor.open files split delimiter flag₁).map fun cursor =>
        { cursor with interrupt := flag₂ } := by
  unfold LineCursor.open
  show _ = (fun cursor : LineCursor => { cursor with interrupt := flag₂ }) <$> _
  split
  · simp only [map_bind, map_pure]
  · simp only [map_bind, map_pure]

theorem LineText.openCursor_interrupt (files : FileSystem) (split : Descriptor)
    (overrides : Overrides) (flag₁ flag₂ : Flag) :
    openCursor files split overrides flag₂ =
      (openCursor files split overrides flag₁).map fun cursor =>
        { cursor with interrupt := flag₂ } := by
  cases split with
  | custom split => rfl
  | file split =>
    unfold openCursor
    cases Delimiter.ofOverrides overrides with
    | error fault => rfl
    | ok delimiter => exact LineCursor.open_interrupt files split delimiter flag₁ flag₂

theorem LineCursor.moveTo_of_interrupt (cursor : LineCursor) (flag : Flag) (file : OpenFile)
    (position : Except Fault UInt64) (answer : Except Fault (Option Pair)) :
    LineCursor.moveTo { cursor with interrupt := flag } file position answer =
      ((cursor.moveTo file position answer).1,
        { (cursor.moveTo file position answer).2 with interrupt := flag }) := by
  cases position with
  | ok position => rfl
  | error fault => rfl

/-- A cursor heeds no more of its flag than whether that is raised. -/
theorem LineCursor.next_of_interrupt (files : FileSystem) (raised : Bool) (cursor : LineCursor)
    (flag : Flag) :
    LineCursor.next files raised { cursor with interrupt := flag } =
      ((cursor.next files raised).1,
        { (cursor.next files raised).2 with interrupt := flag }) := by
  unfold next
  split
  · rfl
  · dsimp only
    split
    · rfl
    · split
      · rfl
      · split
        · rfl
        · exact cursor.moveTo_of_interrupt flag _ _ _
        · exact cursor.moveTo_of_interrupt flag _ _ _

/-- The text format in two places with the same files, where the flags read alike. -/
def Library.textLikeness [Ratio ρ] (overrides : Overrides) (flag₁ flag₂ : Flag) :
    (Library.text ρ ε₁).Likeness (Library.text ρ ε₂) where
  overrides := overrides
  flag₁ := flag₁
  flag₂ := flag₂
  cursors c₁ c₂ := c₁.interrupt = flag₁ ∧ c₂ = { c₁ with interrupt := flag₂ }
  worlds w₁ w₂ := w₁.files = w₂.files ∧ w₁.isRaised flag₁ = w₂.isRaised flag₂
  raised h := h.2
  noted _ _ h := h
  opened := by
    intro w₁ w₂ split h
    refine ⟨?_, h⟩
    have hopening := LineText.openCursor_interrupt w₁.files split overrides flag₁ flag₂
    rw [h.1] at hopening
    cases hopen : LineText.openCursor w₁.files split overrides flag₁ with
    | error fault =>
      have hone : ((Library.text ρ ε₁).openCursor split overrides flag₁ w₁).1 = .error fault :=
        hopen
      have htwo : ((Library.text ρ ε₂).openCursor split overrides flag₂ w₂).1 = .error fault := by
        rw [h.1] at hopen
        rw [hopen] at hopening
        exact hopening
      rw [hone, htwo]
      exact .refused fault
    | ok cursor =>
      have hone : ((Library.text ρ ε₁).openCursor split overrides flag₁ w₁).1 = .ok cursor :=
        hopen
      have htwo : ((Library.text ρ ε₂).openCursor split overrides flag₂ w₂).1 =
          .ok { cursor with interrupt := flag₂ } := by
        rw [h.1] at hopen
        rw [hopen] at hopening
        exact hopening
      rw [hone, htwo]
      exact .opened ⟨LineText.interrupt_of_openCursor hopen, rfl⟩
  moved := by
    intro c₁ c₂ w₁ w₂ hcursors h
    obtain ⟨hflag, rfl⟩ := hcursors
    have hmoved := LineCursor.next_of_interrupt w₁.files (w₁.isRaised flag₁) c₁ flag₂
    have hnext₂ : (Library.text ρ ε₂).next { c₁ with interrupt := flag₂ } w₂ =
        (LineCursor.next w₁.files (w₁.isRaised flag₁) { c₁ with interrupt := flag₂ }, w₂) := by
      rw [h.1, h.2]
      rfl
    have hnext₁ : (Library.text ρ ε₁).next c₁ w₁ =
        (LineCursor.next w₁.files (w₁.isRaised flag₁) c₁, w₁) := by
      rw [← hflag]
      rfl
    rw [hnext₂, hmoved, hnext₁]
    exact ⟨rfl, ⟨(LineCursor.next_interrupt _ _ c₁).trans hflag, rfl⟩, h⟩
  progress := by
    rintro c₁ c₂ ⟨-, rfl⟩
    rfl
  closed := by
    rintro c₁ c₂ w₁ w₂ - h
    exact ⟨rfl, h⟩

/-! ## bundles -/

namespace Source

section
variable [Ratio ρ]

/-- A bundle of a source of text is the source with a file split: what is shipped of the split,
and the split itself behind it. -/
theorem of_mem_bundles_text {source bundle : Source} {desired : UInt64} {context : Context ρ ε}
    {w : World ε} {bundles : List Source} (hwhole : source.split = none)
    (hlibrary : ∀ library, source.library context = .ok library → library = .text ρ ε)
    (h : (source.bundles desired context w).1 = .ok bundles) (hmem : bundle ∈ bundles) :
    source.validate = .ok () ∧ ∃ (split : FileSplit) (payload : Bytes),
      split.payload = .ok payload ∧
      bundle = source.withSplit ⟨FileSplit.tag, split.length, payload, some (.file split)⟩ := by
  obtain ⟨hvalid, library, hfound, splits, w₁, hdiscover, split, hsplit, handle, hship, rfl⟩ :=
    of_mem_bundles hwhole h hmem
  obtain rfl := hlibrary library hfound
  have hfile : ∃ file, split = .file file := by
    have hanswer : (LineText.discover ρ w.files source.resourceText source.overrides
        (some (.exact (context.bundleSize desired)))).map (·.map Descriptor.file) = .ok splits :=
      congrArg Prod.fst hdiscover
    cases hfiles : LineText.discover ρ w.files source.resourceText source.overrides
        (some (.exact (context.bundleSize desired))) with
    | error fault =>
      rw [hfiles] at hanswer
      cases hanswer
    | ok files =>
      rw [hfiles] at hanswer
      cases hanswer
      obtain ⟨file, -, rfl⟩ := List.mem_map.1 hsplit
      exact ⟨file, rfl⟩
  obtain ⟨file, rfl⟩ := hfile
  obtain ⟨payload, hpayload, rfl⟩ := Handle.of_ofDescriptor hship
  exact ⟨hvalid, file, payload, hpayload, rfl⟩

/-- The reader of a source of the text format, in a context that knows it. -/
theorem createReader_text {source : Source} {context : Context ρ ε}
    (hvalid : source.validate = .ok ()) (hformat : source.format = some "text")
    (hlibrary : context.formats.find? "text" = some (.text ρ ε)) :
    source.createReader context = .ok ⟨.text ρ ε, .make (.text ρ ε) source context⟩ := by
  unfold Source.createReader Source.library
  rw [hvalid, hformat]
  dsimp only [Option.getD]
  rw [hlibrary]

end

end Source

/-- the same request on the same files, the flags reading alike -/
def Turn.Alike (flag₁ flag₂ : Flag) (turn₁ : Turn ρ ε₁) (turn₂ : Turn ρ ε₂) : Prop :=
  turn₁.request = turn₂.request ∧ turn₁.world.files = turn₂.world.files ∧
    turn₁.world.isRaised flag₁ = turn₂.world.isRaised flag₂

section
variable [Ratio ρ] {split : FileSplit} {payload : Bytes}

theorem Handle.split_of_payload {handle : Handle} {decoders : Decoders ε}
    (hdecoded : handle.decoded = none) (htag : handle.tag = FileSplit.tag)
    (hpayload : split.payload = .ok handle.payload)
    (hdecoder : decoders.find? FileSplit.tag = some Decoders.decodeFile) (w : World ε) :
    handle.split decoders w =
      ((.ok (.file split), { handle with decoded := some (.file split) }), w) := by
  have hdecode : decoders.decode handle.tag handle.payload w = (.ok (.file split), w) := by
    unfold Decoders.decode
    rw [htag, hdecoder]
    simp [Decoders.decodeFile, FileSplit.ofPayload_of_payload hpayload]
    rfl
  rw [Handle.split_of_undecoded hdecoded, hdecode]
  rfl

omit [Ratio ρ] in
theorem Reader.resolveSplits_of_handle {library : Library ρ ε} {reader : Reader library}
    {handle kept : Handle} {split : Descriptor} {w w₁ : World ε}
    (hsome : reader.source.split = some handle)
    (hsplit : handle.split reader.decoders w = ((.ok split, kept), w₁)) :
    (reader.resolveSplits w).1 = .ok [split] ∧ (reader.resolveSplits w).2.2 = w₁ := by
  simp [resolveSplits, hsome, hsplit]

/-- A reader of a split that was kept, and one of the split as it was shipped, are at the same
place and find the same split to read. -/
theorem Reader.like_shipped (source : Source) (here : Context ρ ε₁) {there : Context ρ ε₂}
    (hpayload : split.payload = .ok payload)
    (hdecoder : there.decoders.find? FileSplit.tag = some Decoders.decodeFile) :
    let handle : Handle := ⟨FileSplit.tag, split.length, payload, some (.file split)⟩
    let bundle := source.withSplit handle
    let same : (Library.text ρ ε₁).Likeness (Library.text ρ ε₂) :=
      Library.textLikeness bundle.overrides here.interrupt there.interrupt
    let r₁ := make (.text ρ ε₁) bundle here
    let r₂ := make (.text ρ ε₂) bundle.shipped there
    Like same r₁ r₂ ∧ LikeSplits same r₁ r₂ := by
  intro handle bundle same r₁ r₂
  refine ⟨⟨rfl, rfl, rfl, rfl, rfl, rfl, .none, rfl, rfl, rfl, rfl⟩, ?_⟩
  intro w₁ w₂ hworlds
  have hkept := resolveSplits_of_handle (show r₁.source.split = some handle from rfl)
    (Handle.split_of_decoded rfl here.decoders w₁)
  have hshipped := resolveSplits_of_handle
    (show r₂.source.split = some { handle with decoded := none } from rfl)
    (Handle.split_of_payload rfl rfl hpayload hdecoder w₂)
  rw [hkept.1, hkept.2, hshipped.1, hshipped.2]
  exact ⟨rfl, hworlds⟩

/-- **Shipping a bundle does not show.**  A bundle of a source of text is read from its shipped form
as the same source, without the descriptor of its split, and the replies of a reader of the one are
the replies of a reader of the other, whatever is called, on the same files. -/
theorem Source.shipping_transparent {source bundle : Source} {sending : Context ρ ε}
    {desired : UInt64} {w : World ε} {bundles : List Source}
    (hformat : source.format = some "text") (hwhole : source.split = none)
    (hsending : ∀ library, sending.formats.find? "text" = some library → library = .text ρ ε)
    (hbundles : (source.bundles desired sending w).1 = .ok bundles) (hmem : bundle ∈ bundles)
    {here : Context ρ ε₁} (hhere : here.formats.find? "text" = some (.text ρ ε₁))
    {there : Context ρ ε₂} (hthere : there.formats.find? "text" = some (.text ρ ε₂))
    (hdecoder : there.decoders.find? FileSplit.tag = some Decoders.decodeFile) :
    ∃ received, Source.parse bundle.render = some received ∧
      (∃ handle, received.split = some handle ∧ handle.isDecoded = false) ∧
      received.Same bundle ∧
      ∃ r₁ r₂, bundle.createReader here = .ok ⟨.text ρ ε₁, r₁⟩ ∧
        received.createReader there = .ok ⟨.text ρ ε₂, r₂⟩ ∧
        ∀ turns₁ turns₂,
          List.Forall₂ (Turn.Alike here.interrupt there.interrupt) turns₁ turns₂ →
            r₁.replies turns₁ = r₂.replies turns₂ := by
  have hlibrary (library : Library ρ ε) (hfound : source.library sending = .ok library) :
      library = .text ρ ε := by
    unfold Source.library at hfound
    rw [hformat] at hfound
    dsimp only [Option.getD] at hfound
    split at hfound
    · rename_i found hfind
      cases hfound
      exact hsending _ hfind
    · cases hfound
  obtain ⟨hvalid, split, payload, hpayload, rfl⟩ :=
    of_mem_bundles_text hwhole hlibrary hbundles hmem
  obtain ⟨hlike, hsplits⟩ := Reader.like_shipped source here hpayload hdecoder
  refine ⟨_, parse_render _, ⟨_, rfl, rfl⟩, same_shipped _, _, _,
    createReader_text hvalid hformat hhere, createReader_text hvalid hformat hthere, ?_⟩
  intro turns₁ turns₂ hturns
  exact Reader.replies_like hlike (fun _ => hsplits) hturns

end

theorem carve_of_short {path : String} {size : UInt64} (h : 1 < size) :
    carve ℚ ⟨path, 1⟩ size = [⟨path, 0, 1⟩] := by
  have hlong : ¬(exceedsSlop ℚ 1 size = true ∧ 0 < size ∧ size ≤ 1) := by
    rintro ⟨-, -, hle⟩
    rw [UInt64.lt_iff_toNat_lt] at h
    rw [UInt64.le_iff_toNat_le] at hle
    omega
  unfold carve carveFrom
  rw [dif_neg hlong]
  simp

/-- a file of one character, which is one bundle -/
theorem Source.shipping_transparent_single :
    let context : Context ℚ Unit := { Context.standard ℚ Unit ⟨0⟩ with order := .discovery }
    let w : World Unit := ⟨.single [97], .empty, [], fun _ => 0, 0, ()⟩
    let split : FileSplit := ⟨"f", 0, 1⟩
    let bundle := (Source.text "f").withSplit
      ⟨FileSplit.tag, 1, split.payload.toOption.getD [], some (.file split)⟩
    ((Source.text "f").bundles 1 context w).1 = .ok [bundle] ∧
      ∃ received, Source.parse bundle.render = some received ∧
        (∃ handle, received.split = some handle ∧ handle.isDecoded = false) ∧
        received.Same bundle ∧
        ∃ r₁ r₂, bundle.createReader context = .ok ⟨.text ℚ Unit, r₁⟩ ∧
          received.createReader context = .ok ⟨.text ℚ Unit, r₂⟩ ∧
          ∀ turns₁ turns₂,
            List.Forall₂ (Turn.Alike context.interrupt context.interrupt) turns₁ turns₂ →
              r₁.replies turns₁ = r₂.replies turns₂ := by
  intro context w split bundle
  have hformats : context.formats.find? "text" = some (.text ℚ Unit) := rfl
  have hlisting := listing_single [97] (show LineText.isRecursive {} = .ok false from rfl)
  have hdiscover : LineText.discover ℚ w.files "f" {}
      (some (.exact (context.bundleSize 1))) = .ok [split] := by
    have hcarve : carve ℚ ⟨"f", 1⟩ ((SplitSize.exact (context.bundleSize 1)).choose
        LineText.defaultBlockSize) = [split] := carve_of_short (by decide)
    unfold LineText.discover
    show (do let found ← LineText.listing (.single [97]) "f" {}; _) = _
    rw [hlisting]
    show Except.ok ([(⟨"f", 1⟩ : FileStatus)].flatMap _) = _
    rw [List.flatMap_singleton]
    exact congrArg Except.ok hcarve
  have hbundles : ((Source.text "f").bundles 1 context w).1 = .ok [bundle] := by
    have hsplits : (Library.text ℚ Unit).discover "f" {} (some (.exact (context.bundleSize 1))) w =
        (.ok [.file split], w) := by
      show ((LineText.discover ℚ w.files "f" {} _).map _, w) = _
      rw [hdiscover]
      rfl
    have hhandles : Source.handles context.decoders [.file split] =
        .ok [⟨FileSplit.tag, 1, split.payload.toOption.getD [], some (.file split)⟩] := rfl
    have hplan : Source.plan (.text ℚ Unit) "f" {} 1 context w =
        (.ok [⟨FileSplit.tag, 1, split.payload.toOption.getD [], some (.file split)⟩],
          w.note .info s!"Got {[Descriptor.file split].length} splits.") := by
      unfold Source.plan
      simp only [bind, StateT.bind, hsplits]
      rw [hhandles]
      rfl
    rw [bundles_of_plan rfl rfl rfl hplan]
    rfl
  refine ⟨hbundles, ?_⟩
  exact shipping_transparent rfl rfl (fun library h => Option.some.inj (h.symm.trans hformats))
    hbundles List.mem_cons_self hformats hformats rfl

end Splittable
