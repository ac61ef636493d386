import Splittable.Proofs.Reader.Script
import Splittable.Proofs.Source.Plan
import Mathlib.Data.List.Forall2

/-!
# A bundle for every split

Splitting a source succeeds where its splits are found and all of them can be shipped, and then
every split has one bundle, which cannot be split further.  Whatever goes wrong instead is told as
a failure of planning.

* `Descriptor.Shippable`, `Unshippable`   the splits that can be shipped, and why others cannot;
* `Descriptor.ShippedAs`   what the handle of a split says of it;
* `Source.handles_eq_ok_iff`, `handles_eq_error_iff`   the handles of all splits;
* `Source.Hindered`        what a plan fails of;
* `Source.plan_of_hindered`, `plan_of_shippable`   how planning goes;
* `Source.bundles_of_split`   a bundle is not split further;
* `Source.bundles_every_split`   the bundles of a source.
-/

namespace Splittable

variable {ρ ε : Type}

/-! ## shipping one split -/

namespace Descriptor

/-- The tag has a decoder, and there is a payload. -/
structure Shippable (decoders : Decoders ε) (split : Descriptor) : Prop where
  registered : decoders.contains split.tag = true
  writable : ∃ payload, split.payload = .ok payload

/-- why a split cannot be shipped; without a decoder its payload is not looked at -/
inductive Unshippable (decoders : Decoders ε) (split : Descriptor) : HandleError → Prop
  | unregistered : decoders.contains split.tag = false →
      Unshippable decoders split (.unregistered split.tag split.shown)
  | unwritable {fault : Fault} : decoders.contains split.tag = true →
      split.payload = .error fault →
      Unshippable decoders split (.unserializable split.shown fault)

/-- A handle says all of a split, and keeps it. -/
structure ShippedAs (split : Descriptor) (handle : Handle) : Prop where
  tag : handle.tag = split.tag
  length : handle.length = split.length
  payload : split.payload = .ok handle.payload
  kept : handle.decoded = some split

theorem Shippable.shippedAs {decoders : Decoders ε} {split : Descriptor}
    (h : split.Shippable decoders) : ∃ handle, split.ShippedAs handle := by
  obtain ⟨payload, hpayload⟩ := h.writable
  exact ⟨⟨split.tag, split.length, payload, some split⟩, rfl, rfl, hpayload, rfl⟩

theorem Unshippable.not_shippable {decoders : Decoders ε} {split : Descriptor} {e : HandleError}
    (h : split.Unshippable decoders e) : ¬split.Shippable decoders := by
  rintro ⟨hregistered, payload, hpayload⟩
  cases h with
  | unregistered hunregistered => simp [hunregistered] at hregistered
  | unwritable _ hfault => simp [hfault] at hpayload

end Descriptor

namespace Handle

variable {decoders : Decoders ε} {split : Descriptor}

theorem ofDescriptor_eq_ok_iff {handle : Handle} : ofDescriptor split decoders = .ok handle ↔
    split.Shippable decoders ∧ split.ShippedAs handle := by
  unfold ofDescriptor
  constructor
  · intro h
    split at h
    · rename_i hregistered
      split at h
      · rename_i payload hpayload
        cases h
        exact ⟨⟨hregistered, payload, hpayload⟩, rfl, rfl, hpayload, rfl⟩
      · cases h
    · cases h
  · rintro ⟨⟨hregistered, -⟩, htag, hlength, hpayload, hkept⟩
    rw [if_pos hregistered, hpayload, ← htag, ← hlength, ← hkept]

theorem ofDescriptor_eq_error_iff {e : HandleError} : ofDescriptor split decoders = .error e ↔
    split.Unshippable decoders e := by
  unfold ofDescriptor
  constructor
  · intro h
    split at h
    · rename_i hregistered
      split at h
      · cases h
      · rename_i fault hfault
        cases h
        exact .unwritable hregistered hfault
    · rename_i hregistered
      cases h
      exact .unregistered (Bool.eq_false_iff.2 hregistered)
  · intro h
    cases h with
    | unregistered hregistered => rw [hregistered, if_neg Bool.false_ne_true]
    | unwritable hregistered hfault => rw [if_pos hregistered, hfault]

end Handle

/-! ## shipping all splits -/

namespace Source

section
variable {decoders : Decoders ε} {splits : List Descriptor}

/-- The handles of splits are made where all of them can be shipped. -/
theorem handles_eq_ok_iff {found : List Handle} : handles decoders splits = .ok found ↔
    (∀ split ∈ splits, split.Shippable decoders) ∧
      List.Forall₂ Descriptor.ShippedAs splits found := by
  induction splits generalizing found with
  | nil =>
    rw [handles, List.forall₂_nil_left_iff]
    simp [eq_comm]
  | cons split splits ih =>
    rw [handles, List.forall_mem_cons]
    constructor
    · intro h
      cases hfirst : Handle.ofDescriptor split decoders with
      | error e => simp [hfirst] at h
      | ok first =>
        cases hrest : handles decoders splits with
        | error e => simp [hfirst, hrest, Except.map] at h
        | ok rest =>
          rw [hfirst, hrest] at h
          cases h
          obtain ⟨hshippable, hshipped⟩ := Handle.ofDescriptor_eq_ok_iff.1 hfirst
          obtain ⟨hall, hothers⟩ := ih.1 hrest
          exact ⟨⟨hshippable, hall⟩, .cons hshipped hothers⟩
    · rintro ⟨⟨hshippable, hall⟩, hfound⟩
      cases hfound with
      | cons hshipped hothers =>
        rw [Handle.ofDescriptor_eq_ok_iff.2 ⟨hshippable, hshipped⟩, ih.2 ⟨hall, hothers⟩]
        rfl

/-- Otherwise the first split that cannot be shipped says why. -/
theorem handles_eq_error_iff {e : HandleError} : handles decoders splits = .error e ↔
    ∃ before split later, splits = before ++ split :: later ∧
      (∀ other ∈ before, other.Shippable decoders) ∧ split.Unshippable decoders e := by
  induction splits with
  | nil =>
    refine ⟨(fun h => by cases h), ?_⟩
    rintro ⟨before, split, later, hsplits, -⟩
    simp at hsplits
  | cons first splits ih =>
    rw [handles]
    constructor
    · intro h
      cases hfirst : Handle.ofDescriptor first decoders with
      | error e' =>
        rw [hfirst] at h
        cases h
        exact ⟨[], first, splits, rfl, by simp, Handle.ofDescriptor_eq_error_iff.1 hfirst⟩
      | ok handle =>
        cases hrest : handles decoders splits with
        | ok rest => simp [hfirst, hrest, Except.map] at h
        | error e' =>
          rw [hfirst, hrest] at h
          cases h
          obtain ⟨before, split, later, rfl, hbefore, hsplit⟩ := ih.1 hrest
          have hshippable := (Handle.ofDescriptor_eq_ok_iff.1 hfirst).1
          exact ⟨first :: before, split, later, rfl,
            List.forall_mem_cons.2 ⟨hshippable, hbefore⟩, hsplit⟩
    · rintro ⟨before, split, later, hsplits, hbefore, hsplit⟩
      cases before with
      | nil =>
        cases hsplits
        rw [Handle.ofDescriptor_eq_error_iff.2 hsplit]
      | cons other before =>
        cases hsplits
        obtain ⟨hother, hbefore⟩ := List.forall_mem_cons.1 hbefore
        obtain ⟨handle, hshipped⟩ := hother.shippedAs
        rw [Handle.ofDescriptor_eq_ok_iff.2 ⟨hother, hshipped⟩,
          ih.2 ⟨before, split, later, rfl, hbefore, hsplit⟩]
        rfl

end

/-! ## planning -/

/-- What a plan fails of: the splits are not found, or the first of them that cannot be shipped. -/
inductive Hindered (library : Library ρ ε) (resource : String) (decoders : Decoders ε) :
    Except Fault (List Descriptor) → PlanningError → Prop
  | undiscovered {fault : Fault} : Hindered library resource decoders (.error fault)
      (.undiscovered resource library.name fault)
  | unshippable {before later : List Descriptor} {split : Descriptor} {e : HandleError} :
      (∀ other ∈ before, other.Shippable decoders) → split.Unshippable decoders e →
      Hindered library resource decoders (.ok (before ++ split :: later)) (.unshippable e)

/-- A plan fails of something, or all splits are found and can be shipped. -/
theorem hindered_or_shippable (library : Library ρ ε) (resource : String) (decoders : Decoders ε)
    (found : Except Fault (List Descriptor)) :
    (∃ cause, Hindered library resource decoders found cause) ∨
      ∃ splits, found = .ok splits ∧ ∀ split ∈ splits, split.Shippable decoders := by
  cases found with
  | error fault => exact .inl ⟨_, .undiscovered⟩
  | ok splits =>
    cases hhandles : handles decoders splits with
    | error e =>
      obtain ⟨before, split, later, rfl, hbefore, hsplit⟩ := handles_eq_error_iff.1 hhandles
      exact .inl ⟨_, .unshippable hbefore hsplit⟩
    | ok shipped => exact .inr ⟨splits, rfl, (handles_eq_ok_iff.1 hhandles).1⟩

theorem Hindered.not_shippable {library : Library ρ ε} {resource : String}
    {decoders : Decoders ε} {splits : List Descriptor} {cause : PlanningError}
    (h : Hindered library resource decoders (.ok splits) cause) :
    ¬∀ split ∈ splits, split.Shippable decoders := by
  cases h with
  | unshippable _ hsplit => exact fun hall => hsplit.not_shippable (hall _ (by simp))

section
variable {library : Library ρ ε} {resource : String} {overrides : Overrides} {desired : UInt64}
  {context : Context ρ ε} {w : World ε}

theorem plan_of_hindered {cause : PlanningError}
    (h : Hindered library resource context.decoders
      (library.discover resource overrides (some (.exact (context.bundleSize desired))) w).1
      cause) :
    (plan library resource overrides desired context w).1 = .error cause := by
  unfold plan
  simp only [bind, StateT.bind]
  rcases hdiscover : library.discover resource overrides
    (some (.exact (context.bundleSize desired))) w with ⟨found, w₁⟩
  rw [hdiscover] at h
  cases h with
  | undiscovered => rfl
  | unshippable hbefore hsplit =>
    dsimp only
    rw [handles_eq_error_iff.2 ⟨_, _, _, rfl, hbefore, hsplit⟩]
    rfl

theorem plan_of_shippable {splits : List Descriptor}
    (hfound : (library.discover resource overrides
      (some (.exact (context.bundleSize desired))) w).1 = .ok splits)
    (hall : ∀ split ∈ splits, split.Shippable context.decoders) :
    ∃ handles planned, (plan library resource overrides desired context w).1 = .ok planned ∧
      List.Forall₂ Descriptor.ShippedAs splits handles ∧ planned.Perm handles ∧
      (context.order = .discovery → planned = handles) := by
  cases hhandles : handles context.decoders splits with
  | error e =>
    obtain ⟨before, split, later, rfl, -, hsplit⟩ := handles_eq_error_iff.1 hhandles
    exact absurd (hall split (by simp)) hsplit.not_shippable
  | ok shipped =>
    rcases hdiscover : library.discover resource overrides
      (some (.exact (context.bundleSize desired))) w with ⟨found, w₁⟩
    rw [hdiscover] at hfound
    obtain rfl : found = .ok splits := hfound
    let noted := w₁.note .info s!"Got {splits.length} splits."
    have hplan : (plan library resource overrides desired context w).1 =
        .ok (context.order.apply shipped noted).1 := by
      unfold plan
      simp only [bind, StateT.bind, hdiscover]
      rw [hhandles]
      rfl
    refine ⟨shipped, _, hplan, (handles_eq_ok_iff.1 hhandles).2,
      context.order.apply_perm shipped noted, ?_⟩
    intro horder
    rw [horder]
    rfl

end

/-! ## bundles -/

theorem bundles_eq_plan {source : Source} {library : Library ρ ε} {context : Context ρ ε}
    (hwhole : source.split = none) (hvalid : source.validate = .ok ())
    (hlibrary : source.library context = .ok library) (desired : UInt64) (w : World ε) :
    (source.bundles desired context w).1 =
      match (plan library source.resourceText source.overrides desired context w).1 with
      | .error cause => .error (.planning cause)
      | .ok planned => .ok (planned.map source.withSplit) := by
  rcases hplan : plan library source.resourceText source.overrides desired context w with
    ⟨e | planned, w₁⟩
  · unfold Source.bundles
    rw [hwhole, hvalid]
    simp only [Option.isSome_none, Bool.false_eq_true, if_false]
    rw [hlibrary]
    simp only [bind, StateT.bind, hplan]
    rfl
  · rw [bundles_of_plan hwhole hvalid hlibrary hplan]

/-- A source with a split is its own only bundle, in every context. -/
theorem bundles_of_split {source : Source} (h : source.split.isSome = true) (desired : UInt64)
    (context : Context ρ ε) (w : World ε) :
    source.bundles desired context w = (.ok [source], w) := by
  rw [Source.bundles, if_pos h]
  rfl

/-- **Every split has a bundle.**  A source is split exactly where its splits are found and can be
shipped, and else the failure of its plan is told.  Its bundles are the source with the handles of
these splits, each once, in some order or that of the splits, and no bundle can be split further. -/
theorem bundles_every_split {source : Source} {library : Library ρ ε} {context : Context ρ ε}
    (hwhole : source.split = none) (hvalid : source.validate = .ok ())
    (hlibrary : source.library context = .ok library) (desired : UInt64) (w : World ε) :
    let found := (library.discover source.resourceText source.overrides
      (some (.exact (context.bundleSize desired))) w).1
    let answer := (source.bundles desired context w).1
    ((∃ bundles, answer = .ok bundles) ↔
      ∃ splits, found = .ok splits ∧ ∀ split ∈ splits, split.Shippable context.decoders) ∧
    (∀ e, answer = .error e →
      ∃ cause, e = .planning cause ∧
        Hindered library source.resourceText context.decoders found cause) ∧
    ∀ bundles, answer = .ok bundles →
      ∃ splits handles planned, found = .ok splits ∧
        List.Forall₂ Descriptor.ShippedAs splits handles ∧ planned.Perm handles ∧
        (context.order = .discovery → planned = handles) ∧
        bundles = planned.map source.withSplit ∧ bundles.length = splits.length ∧
        ∀ bundle ∈ bundles, { bundle with split := none } = source ∧
          ∀ (size : UInt64) (other : Context ρ ε) (v : World ε),
            bundle.bundles size other v = (.ok [bundle], v) := by
  intro found answer
  have hanswer := bundles_eq_plan hwhole hvalid hlibrary desired w
  obtain ⟨cause, hcause⟩ | ⟨splits, hfound, hall⟩ :=
    hindered_or_shippable library source.resourceText context.decoders found
  · have hfails : answer = .error (.planning cause) := by
      rw [plan_of_hindered hcause] at hanswer
      exact hanswer
    refine ⟨?_, ?_, ?_⟩
    · refine iff_of_false (by simp [hfails]) ?_
      rintro ⟨splits, hfound, hall⟩
      exact (hfound ▸ hcause).not_shippable hall
    · rintro e he
      obtain rfl : .planning cause = e := Except.error.inj (hfails.symm.trans he)
      exact ⟨cause, rfl, hcause⟩
    · rintro bundles hbundles
      cases hfails.symm.trans hbundles
  · obtain ⟨handles, planned, hplan, hshipped, hperm, horder⟩ := plan_of_shippable hfound hall
    have hsucceeds : answer = .ok (planned.map source.withSplit) := by
      rw [hplan] at hanswer
      exact hanswer
    refine ⟨iff_of_true ⟨_, hsucceeds⟩ ⟨splits, hfound, hall⟩, ?_, ?_⟩
    · rintro e he
      cases hsucceeds.symm.trans he
    · rintro bundles hbundles
      obtain rfl : planned.map source.withSplit = bundles :=
        Except.ok.inj (hsucceeds.symm.trans hbundles)
      refine ⟨splits, handles, planned, hfound, hshipped, hperm, horder, rfl, ?_, ?_⟩
      · rw [List.length_map, hperm.length_eq, hshipped.length_eq]
      · intro bundle hbundle
        obtain ⟨handle, -, rfl⟩ := List.mem_map.1 hbundle
        refine ⟨?_, bundles_of_split rfl⟩
        rw [withSplit, ← hwhole]

/-- two splits in the order of a seed -/
theorem bundles_every_split_seeded :
    let split (i : Nat) : Descriptor := .custom ⟨"part", i, 1, s!"part {i}", .ok [i.toUInt8]⟩
    let play : Play Unit := ⟨fun _ _ => ⟨.ok (), [], .ok (), .ok ()⟩, id, id⟩
    let library := Library.scripted ℚ play [split 0, split 1]
    let decoder : Decoder Unit := fun payload => pure (.ok (split (payload.headD 0).toNat))
    let context : Context ℚ Unit := { Context.standard ℚ Unit ⟨0⟩ with
      formats := (∅ : Formats ℚ Unit).register library
      decoders := .ofList [("part", decoder)]
      order := .seeded 7 }
    let source := Source.make "f" "scripted" (.record .long) (.record .text)
    let w : World Unit := ⟨.empty, .empty, [], fun _ => 0, 0, ()⟩
    (source.split = none ∧ source.validate = .ok () ∧ source.library context = .ok library) ∧
      ∃ bundles, (source.bundles 0 context w).1 = .ok bundles ∧ bundles.length = 2 ∧
        ∀ bundle ∈ bundles, ∀ size v, bundle.bundles size context v = (.ok [bundle], v) := by
  intro split play library decoder context source w
  have hwhole : source.split = none := rfl
  have hvalid : source.validate = .ok () := rfl
  have hlibrary : source.library context = .ok library := rfl
  have hall : ∀ other ∈ [split 0, split 1], other.Shippable context.decoders := by
    intro other hother
    obtain ⟨i, rfl⟩ : ∃ i, other = split i := by
      obtain rfl | hother := List.mem_cons.1 hother
      · exact ⟨0, rfl⟩
      · exact ⟨1, List.mem_singleton.1 hother⟩
    exact ⟨rfl, _, rfl⟩
  obtain ⟨hsucceeds, -, hbundles⟩ := bundles_every_split hwhole hvalid hlibrary 0 w
  obtain ⟨bundles, hanswer⟩ := hsucceeds.2 ⟨_, rfl, hall⟩
  obtain ⟨splits, _, _, hfound, -, -, -, -, hlength, heach⟩ := hbundles bundles hanswer
  obtain rfl : [split 0, split 1] = splits := Except.ok.inj hfound
  exact ⟨⟨hwhole, hvalid, hlibrary⟩, bundles, hanswer, hlength,
    fun bundle hbundle size v => (heach bundle hbundle).2 size context v⟩

end Source

end Splittable
