import Splittable.Proofs.Source.Bundles
import Splittable.Proofs.Source.EverySplit
import Splittable.Proofs.Split.Payload

/-!
# The size of a source

The size of a source of text is told from its listing, its bundles are planned with a size that
is asked for, and a reader finds splits with the block size.  All three come to the same length,
the length of the files.

* `LineText.discover_eq_ok_iff`   what is discovered: the files, each carved;
* `LineText.sum_length`           the splits found are as long as the files;
* `Source.sum_length_handles`     handles are as long as their splits;
* `Source.size_of_listing`        the size that is estimated;
* `Source.size_eq_sum_length`     it is the length of the bundles, and of the reader's splits.
-/

namespace Splittable

variable {ρ ε : Type}

/-- how many bytes are in files together -/
def FileStatus.total (files : List FileStatus) : Nat :=
  (files.map fun file => file.length.toNat).sum

/-! ## what is discovered -/

namespace LineText

section
variable [Ratio ρ] {files : FileSystem} {resource : String} {overrides : Overrides}

theorem discover_eq_ok_iff {size : Option SplitSize} {splits : List FileSplit} :
    discover ρ files resource overrides size = .ok splits ↔
      ∃ found block, listing files resource overrides = .ok found ∧
        blockSize overrides = .ok block ∧
        splits = found.flatMap fun file =>
          carve ρ file ((size.getD ⟨1, 0xFFFFFFFFFFFFFFFF⟩).choose block) := by
  unfold discover
  cases hfound : listing files resource overrides with
  | error fault => simp [bind, Except.bind]
  | ok found =>
    cases hblock : blockSize overrides with
    | error fault => simp [bind, Except.bind]
    | ok block =>
      constructor
      · rintro ⟨⟩
        exact ⟨found, block, rfl, rfl, rfl⟩
      · rintro ⟨_, _, ⟨⟩, ⟨⟩, rfl⟩
        rfl

theorem sum_length (found : List FileStatus) (size : UInt64) :
    ((found.flatMap fun file => carve ρ file size).map fun split => split.length.toNat).sum =
      FileStatus.total found := by
  induction found with
  | nil => rfl
  | cons file found ih =>
    rw [List.flatMap_cons, List.map_append, List.sum_append, carve_sum_length, ih]
    rfl

end

end LineText

/-! ## handles and bundles -/

namespace Source

theorem sum_length_handles {splits : List Descriptor} {handles : List Handle}
    (h : List.Forall₂ Descriptor.ShippedAs splits handles) :
    (handles.map fun handle => handle.length.toNat).sum =
      (splits.map fun split => split.length.toNat).sum := by
  induction h with
  | nil => rfl
  | cons hshipped _ ih => rw [List.map_cons, List.map_cons, List.sum_cons, List.sum_cons, ih,
      hshipped.length]

/-- The sizes of files are added as words, which is exact where the sum is one. -/
theorem toNat_foldl_length (files : List FileStatus) (sum : UInt64)
    (h : sum.toNat + FileStatus.total files < 2 ^ 64) :
    (files.foldl (fun sum file => sum + file.length) sum).toNat =
      sum.toNat + FileStatus.total files := by
  induction files generalizing sum with
  | nil => rfl
  | cons file files ih =>
    have htotal : FileStatus.total (file :: files) =
        file.length.toNat + FileStatus.total files := List.sum_cons
    have hadd : (sum + file.length).toNat = sum.toNat + file.length.toNat := by
      rw [UInt64.toNat_add]
      omega
    rw [List.foldl_cons, ih _ (by omega)]
    omega

section
variable [Ratio ρ] {source : Source} {context : Context ρ ε} {w : World ε}

/-- The size that is estimated is the total of the files listed. -/
theorem size_of_listing {found : List FileStatus}
    (htext : source.library context = .ok (Library.text ρ ε))
    (hlisted : context.suppressListing = false)
    (hfound : LineText.listing w.files source.resourceText source.overrides = .ok found)
    (hsmall : FileStatus.total found < 2 ^ 64) :
    (source.estimatedSize context w).1.toNat = FileStatus.total found := by
  have hlisting : (Library.text ρ ε).listing source.resourceText source.overrides w =
      (.ok found, w) := by
    show (LineText.listing w.files source.resourceText source.overrides, w) = _
    rw [hfound]
  have hsize : source.listedSize context w =
      (.ok (found.foldl (fun sum file => sum + file.length) 0), w) := by
    unfold listedSize
    rw [htext]
    simp only [bind, StateT.bind, hlisting]
    rfl
  have hestimated : source.estimatedSize context w =
      (found.foldl (fun sum file => sum + file.length) 0, w) := by
    unfold estimatedSize
    rw [hlisted]
    simp only [Bool.false_eq_true, if_false, bind, StateT.bind, hsize]
    rfl
  rw [hestimated]
  have hsum := toNat_foldl_length found 0 (by rw [UInt64.toNat_zero]; omega)
  rwa [UInt64.toNat_zero, Nat.zero_add] at hsum

/-- The handles of a plan are as long as the files listed. -/
theorem sum_length_plan {desired : UInt64} {planned : List Handle}
    (h : (plan (Library.text ρ ε) source.resourceText source.overrides desired context w).1 =
      .ok planned) :
    ∃ found block,
      LineText.listing w.files source.resourceText source.overrides = .ok found ∧
      LineText.blockSize source.overrides = .ok block ∧
      (planned.map fun handle => handle.length.toNat).sum = FileStatus.total found := by
  obtain ⟨splits, w₁, shipped, hdiscover, hshipped, hperm⟩ := of_plan h
  have hanswer : (LineText.discover ρ w.files source.resourceText source.overrides
      (some (.exact (context.bundleSize desired)))).map (·.map Descriptor.file) = .ok splits :=
    congrArg Prod.fst hdiscover
  cases hfiles : LineText.discover ρ w.files source.resourceText source.overrides
      (some (.exact (context.bundleSize desired))) with
  | error fault =>
    rw [hfiles] at hanswer
    cases hanswer
  | ok carved =>
    rw [hfiles] at hanswer
    cases hanswer
    obtain ⟨found, block, hfound, hblock, rfl⟩ := LineText.discover_eq_ok_iff.1 hfiles
    refine ⟨found, block, hfound, hblock, ?_⟩
    have hlengths := sum_length_handles (handles_eq_ok_iff.1 hshipped).2
    rw [(hperm.map _).sum_nat, hlengths, List.map_map]
    exact LineText.sum_length (ρ := ρ) found _

/-- A reader of the whole source finds the files listed, carved by the block size. -/
theorem resolveSplits_of_listing {found : List FileStatus} {block : UInt64}
    (hwhole : source.split = none)
    (hfound : LineText.listing w.files source.resourceText source.overrides = .ok found)
    (hblock : LineText.blockSize source.overrides = .ok block) :
    let reader := Reader.make (Library.text ρ ε) source context
    ∃ splits, reader.resolveSplits w = (.ok splits, reader, w) ∧
      (splits.map fun split => split.length.toNat).sum = FileStatus.total found := by
  intro reader
  let carved := found.flatMap fun file =>
    carve ρ file (SplitSize.choose block ⟨1, 0xFFFFFFFFFFFFFFFF⟩)
  have hdiscover : LineText.discover ρ w.files source.resourceText source.overrides none =
      .ok carved := LineText.discover_eq_ok_iff.2 ⟨found, block, hfound, hblock, rfl⟩
  have hsplits : (Library.text ρ ε).discover source.resourceText source.overrides none w =
      (.ok (carved.map Descriptor.file), w) := by
    show ((LineText.discover ρ w.files source.resourceText source.overrides none).map _, w) = _
    rw [hdiscover]
    rfl
  refine ⟨carved.map .file, ?_, ?_⟩
  · have hsource : reader.source = source := rfl
    unfold Reader.resolveSplits
    rw [hsource, hwhole]
    dsimp only
    rw [hsplits]
  · rw [List.map_map]
    exact LineText.sum_length (ρ := ρ) found _

/-- **The size of a source is the length of its bundles, and of the splits its reader finds.**  This
holds for every size that is asked for, every order and every block size, wherever the files are
the same and their total is a word. -/
theorem size_eq_sum_length {w₁ : World ε} {bundles : List Source} {desired : UInt64}
    (hwhole : source.split = none) (htext : source.library context = .ok (Library.text ρ ε))
    (hlisted : context.suppressListing = false)
    (hsmall : ∀ found, LineText.listing w.files source.resourceText source.overrides = .ok found →
      FileStatus.total found < 2 ^ 64)
    (hbundles : source.bundles desired context w = (.ok bundles, w₁)) :
    ∃ handles : List Handle, bundles.map Source.split = handles.map some ∧
      ∀ v : World ε, v.files = w.files →
        (source.estimatedSize context v).1.toNat =
          (handles.map fun handle => handle.length.toNat).sum ∧
        let reader := Reader.make (Library.text ρ ε) source context
        source.createReader context = .ok ⟨_, reader⟩ ∧
        ∃ splits, reader.resolveSplits v = (.ok splits, reader, v) ∧
          (splits.map fun split => split.length.toNat).sum =
            (handles.map fun handle => handle.length.toNat).sum := by
  obtain ⟨hvalid, library, hlibrary, planned, hplan, rfl⟩ :=
    of_bundles hwhole (congrArg Prod.fst hbundles)
  obtain rfl : Library.text ρ ε = library := Except.ok.inj (htext.symm.trans hlibrary)
  obtain ⟨found, block, hfound, hblock, hsum⟩ := sum_length_plan hplan
  have hlength := hsmall found hfound
  refine ⟨planned, by rw [List.map_map]; rfl, fun v hv => ?_⟩
  rw [← hv] at hfound
  rw [hsum]
  refine ⟨size_of_listing htext hlisted hfound hlength, ?_,
    resolveSplits_of_listing hwhole hfound hblock⟩
  unfold Source.createReader
  rw [hvalid]
  dsimp only
  rw [htext]

end

/-- three bytes, planned as one bundle and read in splits of one byte -/
theorem size_eq_sum_length_single :
    let context : Context ℚ Unit := .standard ℚ Unit ⟨0⟩
    let w : World Unit := ⟨.single [97, 98, 99], .empty, [], fun _ => 0, 0, ()⟩
    let source := { Source.text "f" with overrides := .ofList [(LineText.blockSizeKey, "1")] }
    (source.split = none ∧ source.library context = .ok (Library.text ℚ Unit) ∧
      context.suppressListing = false ∧
      ∀ found, LineText.listing w.files source.resourceText source.overrides = .ok found →
        FileStatus.total found < 2 ^ 64) ∧
      ∃ bundles w₁, source.bundles 1 context w = (.ok bundles, w₁) ∧
        ∃ handles : List Handle, bundles.map Source.split = handles.map some ∧
          (source.estimatedSize context w).1.toNat =
            (handles.map fun handle => handle.length.toNat).sum ∧
          let reader := Reader.make (Library.text ℚ Unit) source context
          ∃ splits, reader.resolveSplits w = (.ok splits, reader, w) ∧
            (splits.map fun split => split.length.toNat).sum =
              (handles.map fun handle => handle.length.toNat).sum := by
  intro context w source
  have hlisting : LineText.listing w.files source.resourceText source.overrides =
      .ok [⟨"f", 3⟩] := listing_single [97, 98, 99] rfl
  have hsmall : ∀ found,
      LineText.listing w.files source.resourceText source.overrides = .ok found →
      FileStatus.total found < 2 ^ 64 := by
    intro found hfound
    obtain rfl : [⟨"f", 3⟩] = found := Except.ok.inj (hlisting.symm.trans hfound)
    decide
  have hblock : LineText.blockSize source.overrides = .ok 1 := by rfl
  obtain ⟨size, hsize⟩ : ∃ size, size = SplitSize.choose 1 (.exact (context.bundleSize 1)) :=
    ⟨_, rfl⟩
  have hcarved : LineText.discover ℚ w.files source.resourceText source.overrides
      (some (.exact (context.bundleSize 1))) = .ok (carve ℚ ⟨"f", 3⟩ size) := by
    refine LineText.discover_eq_ok_iff.2 ⟨_, 1, hlisting, hblock, ?_⟩
    rw [hsize, List.flatMap_singleton]
    rfl
  have hdiscover : ((Library.text ℚ Unit).discover source.resourceText source.overrides
      (some (.exact (context.bundleSize 1))) w).1 =
        .ok ((carve ℚ ⟨"f", 3⟩ size).map Descriptor.file) := by
    show (LineText.discover ℚ w.files source.resourceText source.overrides _).map _ = _
    rw [hcarved]
    rfl
  have hshippable : ∀ split ∈ (carve ℚ ⟨"f", 3⟩ size).map Descriptor.file,
      split.Shippable context.decoders := by
    intro split hsplit
    obtain ⟨file, hfile, rfl⟩ := List.mem_map.1 hsplit
    have hpath : file.path = "f" := (of_mem_carve hfile).1
    refine ⟨rfl, file.layout, FileSplit.payload_eq_ok_iff.2 ⟨?_, rfl⟩⟩
    rw [FileSplit.Counted, hpath]
    decide
  obtain ⟨_, planned, hplan, -⟩ := plan_of_shippable hdiscover hshippable
  have hlibrary : source.library context = .ok (Library.text ℚ Unit) := rfl
  have hbundles : (source.bundles 1 context w).1 = .ok (planned.map source.withSplit) := by
    rw [bundles_eq_plan rfl rfl hlibrary, hplan]
  obtain ⟨handles, hsplits, hsizes⟩ :=
    size_eq_sum_length rfl rfl rfl hsmall (Prod.ext hbundles rfl)
  exact ⟨⟨rfl, rfl, rfl, hsmall⟩, _, _, Prod.ext hbundles rfl, handles, hsplits,
    (hsizes w rfl).1, (hsizes w rfl).2.2⟩

end Source

end Splittable
