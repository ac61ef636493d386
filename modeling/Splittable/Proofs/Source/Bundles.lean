import Splittable.Proofs.FileSystem.Tree
import Splittable.Proofs.LineText.Reading
import Splittable.Proofs.Ratio.Rational
import Splittable.Proofs.Split.Decoding
import Splittable.Proofs.Split.Order
import Mathlib.Data.List.Perm.Basic

/-!
# Reading all bundles

The bundles of a source of text, each read with a reader of its own, together have the lines of
the files that the source stands for, and so has the source read in one.

* `Source.Yields`     the records of a source wherever the files are the same and nothing
  interrupts;
* `Source.OfLines`    a source of text whose files are listed and whose lines end with line feeds;
* `Source.bundles_yield_lines`   its bundles have its lines.
-/

namespace Splittable

variable {ρ ε : Type}

/-! ## handles -/

theorem FileSystem.Holds.payload {files : FileSystem} {path : String} {content : Bytes}
    (h : files.Holds path content) (start length : UInt64) :
    ∃ payload, FileSplit.payload ⟨path, start, length⟩ = .ok payload := by
  obtain ⟨⟨bytes, hread, _⟩, _⟩ := h
  have hsize : path.utf8ByteSize < pathLimit := by
    by_contra hlong
    obtain ⟨e, he⟩ := locate_of_long (Nat.le_of_not_lt hlong)
    unfold FileSystem.read resolve at hread
    rw [he] at hread
    cases hread
  have hlength : (Utf8.encode path).length < 2 ^ 32 := by
    have hbytes : (Utf8.encode path).length = path.utf8ByteSize := rfl
    have hlimit : pathLimit = 4096 := rfl
    omega
  exact ⟨_, if_pos hlength⟩

/-- the handle of a split of a file -/
def Handle.ofFile (split : FileSplit) : Handle :=
  ⟨FileSplit.tag, split.length, split.payload.toOption.getD [], some (.file split)⟩

theorem Source.handles_of_payload {decoders : Decoders ε}
    (hdecoder : decoders.contains FileSplit.tag = true) {splits : List FileSplit}
    (h : ∀ split ∈ splits, ∃ payload, split.payload = .ok payload) :
    handles decoders (splits.map Descriptor.file) = .ok (splits.map Handle.ofFile) := by
  induction splits with
  | nil => rfl
  | cons split splits ih =>
    obtain ⟨payload, hpayload⟩ := h split List.mem_cons_self
    have hrest := ih fun other hother => h other (List.mem_cons_of_mem _ hother)
    have hhandle : Handle.ofDescriptor (.file split) decoders = .ok (.ofFile split) := by
      unfold Handle.ofDescriptor Handle.ofFile
      rw [if_pos (show decoders.contains (Descriptor.file split).tag = true from hdecoder)]
      rw [show (Descriptor.file split).payload = split.payload from rfl, hpayload]
      rfl
    unfold handles
    rw [List.map_cons]
    dsimp only
    rw [hhandle, hrest]
    rfl

/-! ## sources of text -/

namespace Source

/-- the records of a source, wherever the files are the same and nothing interrupts -/
def Yields [Ratio ρ] (context : Context ρ ε) (files : FileSystem) (source : Source)
    (pairs : List Pair) : Prop :=
  ∀ w : World ε, w.files = files → w.isRaised context.interrupt = false →
    source.ReadsIn context w pairs

/-- A source of text, not narrowed to a split, whose lines end with line feeds: its settings are
well formed, and the files listed for it hold the texts. -/
structure OfLines [Ratio ρ] (context : Context ρ ε) (files : FileSystem) (source : Source)
    (texts : List String) : Prop where
  whole : source.split = none
  valid : source.validate = .ok ()
  library : source.library context = .ok (Library.text ρ ε)
  decoder : context.decoders.contains FileSplit.tag = true
  newline : source.overrides.find? Delimiter.overrideKey = none
  block : ∃ size, LineText.blockSize source.overrides = .ok size
  listed : ∃ found, LineText.listing files source.resourceText source.overrides = .ok found ∧
    List.Forall₂ files.HoldsText found texts

section
variable [Ratio ρ] {context : Context ρ ε} {files : FileSystem} {source : Source}
  {texts : List String}

theorem OfLines.createReader (h : source.OfLines context files texts) :
    source.createReader context =
      .ok ⟨Library.text ρ ε, .make (Library.text ρ ε) source context⟩ := by
  unfold Source.createReader
  rw [h.valid]
  dsimp only
  rw [h.library]

theorem OfLines.discover (h : source.OfLines context files texts) (size : Option SplitSize) :
    ∃ splits parts,
      LineText.discover ρ files source.resourceText source.overrides size = .ok splits ∧
      List.Forall₂ (LineText.Reads ρ ε files source.overrides context.interrupt) splits parts ∧
      parts.flatten = texts.flatMap Text.pairs ∧
      ∀ split ∈ splits, ∃ payload, split.payload = .ok payload := by
  obtain ⟨block, hblock⟩ := h.block
  obtain ⟨found, hfound, htexts⟩ := h.listed
  obtain ⟨parts, hparts, hflatten⟩ := LineText.reads_of_files (ρ := ρ) h.newline htexts
    ((size.getD ⟨1, 0xFFFFFFFFFFFFFFFF⟩).choose block)
  refine ⟨_, parts, ?_, hparts, hflatten, ?_⟩
  · unfold LineText.discover
    rw [hfound, hblock]
    rfl
  · intro split hsplit
    obtain ⟨file, hfile, hcarve⟩ := List.mem_flatMap.1 hsplit
    obtain ⟨text, htext⟩ : ∃ text, files.HoldsText file text := by
      clear h hsplit hparts hfound hflatten
      induction htexts with
      | nil => cases hfile
      | cons hholds _ ih =>
        rcases List.mem_cons.1 hfile with rfl | hfile
        · exact ⟨_, hholds⟩
        · exact ih hfile
    obtain ⟨hpath, -⟩ := of_mem_carve hcarve
    have hpayload := htext.holds.payload split.start split.length
    rwa [← hpath] at hpayload

theorem OfLines.yields (h : source.OfLines context files texts) :
    source.Yields context files (texts.flatMap Text.pairs) := by
  rintro w rfl hcalm
  obtain ⟨splits, parts, hdiscover, hparts, hflatten, -⟩ := h.discover none
  have hresolve : (Reader.make (Library.text ρ ε) source context).resolveSplits w =
      (.ok (splits.map Descriptor.file), .make (Library.text ρ ε) source context, w) := by
    have hwhole : (Reader.make (Library.text ρ ε) source context).source.split = none := h.whole
    have hfound : (Library.text ρ ε).discover source.resourceText source.overrides none w =
        (.ok (splits.map Descriptor.file), w) := by
      show ((LineText.discover ρ w.files source.resourceText source.overrides none).map _, w) = _
      rw [hdiscover]
      rfl
    unfold Reader.resolveSplits
    rw [hwhole]
    dsimp only
    rw [show (Reader.make (Library.text ρ ε) source context).source = source from rfl, hfound]
  rw [← hflatten]
  refine readsIn_of_splits h.createReader hresolve hcalm ?_
  rw [List.forall₂_map_left_iff]
  exact hparts.imp fun split part hreads => hreads w rfl hcalm

theorem OfLines.yields_withSplit (h : source.OfLines context files texts) {handle : Handle}
    {split : FileSplit} {part : List Pair} (hdecoded : handle.decoded = some (.file split))
    (hreads : LineText.Reads ρ ε files source.overrides context.interrupt split part) :
    (source.withSplit handle).Yields context files part := by
  rintro w rfl hcalm
  have hcreate : (source.withSplit handle).createReader context =
      .ok ⟨Library.text ρ ε, .make (Library.text ρ ε) (source.withSplit handle) context⟩ := by
    unfold Source.createReader
    have hvalid : (source.withSplit handle).validate = .ok () := h.valid
    have hlibrary : (source.withSplit handle).library context = .ok (Library.text ρ ε) := h.library
    rw [hvalid]
    dsimp only
    rw [hlibrary]
  have hresolve :
      (Reader.make (Library.text ρ ε) (source.withSplit handle) context).resolveSplits w =
        (.ok [.file split], .make (Library.text ρ ε) (source.withSplit handle) context, w) := by
    have hsplit := Handle.split_of_decoded hdecoded context.decoders w
    have hsome : (Reader.make (Library.text ρ ε) (source.withSplit handle) context).source.split =
        some handle := rfl
    have hdecoders : (Reader.make (Library.text ρ ε) (source.withSplit handle) context).decoders =
        context.decoders := rfl
    unfold Reader.resolveSplits
    rw [hsome]
    dsimp only
    rw [hdecoders, hsplit]
    rfl
  have hparts := List.Forall₂.cons (hreads w rfl hcalm) .nil
  have hread := readsIn_of_splits hcreate hresolve hcalm hparts
  rwa [List.flatten_singleton] at hread

theorem OfLines.plan (h : source.OfLines context files texts) (desired : UInt64) {w : World ε}
    (hfiles : w.files = files) :
    ∃ handles parts w₁, Source.plan (Library.text ρ ε) source.resourceText source.overrides desired
          context w = (.ok handles, w₁) ∧
      w₁.files = w.files ∧ w₁.flags = w.flags ∧
      List.Forall₂ (fun handle part => (source.withSplit handle).Yields context files part)
        handles parts ∧
      parts.flatten.Perm (texts.flatMap Text.pairs) := by
  subst hfiles
  obtain ⟨splits, parts, hdiscover, hparts, hflatten, hpayload⟩ :=
    h.discover (some (.exact (context.bundleSize desired)))
  have hhandles := handles_of_payload h.decoder hpayload
  have hfiles' : (Library.text ρ ε).discover source.resourceText source.overrides
      (some (.exact (context.bundleSize desired))) w = (.ok (splits.map Descriptor.file), w) := by
    show ((LineText.discover ρ w.files source.resourceText source.overrides _).map _, w) = _
    rw [hdiscover]
    rfl
  let found := splits.map Handle.ofFile
  let noted := w.note .info s!"Got {(splits.map Descriptor.file).length} splits."
  have hplan : Source.plan (Library.text ρ ε) source.resourceText source.overrides desired
      context w =
      (.ok (context.order.apply found noted).1, (context.order.apply found noted).2) := by
    unfold Source.plan
    simp only [bind, StateT.bind, hfiles']
    rw [hhandles]
    rfl
  have hyields : List.Forall₂
      (fun handle part => (source.withSplit handle).Yields context w.files part) found parts := by
    rw [List.forall₂_map_left_iff]
    exact hparts.imp fun split part hreads => h.yields_withSplit rfl hreads
  obtain ⟨parts', hparts', hperm⟩ :=
    List.perm_comp_forall₂ (context.order.apply_perm found noted) hyields
  obtain ⟨hkeeps, hkeeps'⟩ := context.order.apply_keeps found noted
  refine ⟨_, parts', _, hplan, hkeeps, hkeeps', hparts', ?_⟩
  rw [← hflatten]
  exact hperm.flatten

/-- **All bundles together have the lines of the files**, each line once, and so has the source
read in one, file by file and line by line.  This holds for every size that is asked for and every
order of the context. -/
theorem bundles_yield_lines {w : World ε} (h : source.OfLines context w.files texts)
    (desired : UInt64) :
    ∃ bundles w₁, source.bundles desired context w = (.ok bundles, w₁) ∧
      w₁.files = w.files ∧ w₁.flags = w.flags ∧
      (∃ parts, List.Forall₂ (Source.Yields context w.files) bundles parts ∧
        parts.flatten.Perm (texts.flatMap Text.pairs)) ∧
      source.Yields context w.files (texts.flatMap Text.pairs) := by
  obtain ⟨handles, parts, w₁, hplan, hkeeps, hkeeps', hparts, hperm⟩ := h.plan desired rfl
  have hbundles : source.bundles desired context w = (.ok (handles.map source.withSplit), w₁) := by
    unfold Source.bundles
    rw [h.whole, h.valid]
    simp only [Option.isSome_none, Bool.false_eq_true, if_false]
    rw [h.library]
    simp only [bind, StateT.bind, hplan]
    rfl
  refine ⟨_, w₁, hbundles, hkeeps, hkeeps', ⟨parts, ?_, hperm⟩, h.yields⟩
  rw [List.forall₂_map_left_iff]
  exact hparts

end

theorem listing_single (content : Bytes) {overrides : Overrides}
    (h : LineText.isRecursive overrides = .ok false) :
    LineText.listing (.single content) "f" overrides =
      .ok [⟨"f", content.length.toUInt64⟩] := by
  have hremote : Resource.isRemote "f" = false := by decide
  have hlocal : Resource.localPart "f" = "f" := by decide
  have hmeta : Glob.hasMeta "f" = false := by decide
  unfold LineText.listing
  rw [h]
  show Listing.resolve (.single content) "f" false = _
  unfold Listing.resolve
  rw [hremote, hlocal]
  dsimp only
  rw [hmeta, FileSystem.resolve_single]
  show Except.ok (Listing.distinct (List.mergeSort [⟨"f", content.length.toUInt64⟩] _)) = _
  rw [List.mergeSort_singleton, Listing.distinct]
  simp

/-- An empty line between two others, in splits of two bytes: a line end is cut in the middle. -/
theorem bundles_yield_three_lines :
    let w : World Unit := ⟨.single (Utf8.encode "a\r\n\nb"), .empty, [], fun _ => 0, 0, ()⟩
    let context : Context ℚ Unit := { Context.standard ℚ Unit ⟨0⟩ with minBundleSize := 2 }
    (Source.text "f").OfLines context w.files ["a\r\n\nb"] ∧
      carve ℚ ⟨"f", 5⟩ ((SplitSize.exact (context.bundleSize 1)).choose LineText.defaultBlockSize) =
        [⟨"f", 0, 2⟩, ⟨"f", 2, 2⟩, ⟨"f", 4, 1⟩] ∧
      ∃ bundles w₁, (Source.text "f").bundles 1 context w = (.ok bundles, w₁) ∧
        w₁.files = w.files ∧ w₁.flags = w.flags ∧
        (∃ parts, List.Forall₂ (Source.Yields context w.files) bundles parts ∧
          parts.flatten.Perm (["a\r\n\nb"].flatMap Text.pairs)) ∧
        (Source.text "f").Yields context w.files (["a\r\n\nb"].flatMap Text.pairs) := by
  intro w context
  have hlines : (Source.text "f").OfLines context w.files ["a\r\n\nb"] := by
    exact ⟨rfl, rfl, rfl, by decide, rfl, ⟨_, rfl⟩, _, listing_single _ rfl,
      .cons ⟨FileSystem.holds_single (by decide), by decide⟩ .nil⟩
  have hcarve : carve ℚ ⟨"f", 5⟩
      ((SplitSize.exact (context.bundleSize 1)).choose LineText.defaultBlockSize) =
        [⟨"f", 0, 2⟩, ⟨"f", 2, 2⟩, ⟨"f", 4, 1⟩] := by
    decide +kernel
  exact ⟨hlines, hcarve, bundles_yield_lines hlines 1⟩

end Source

end Splittable
