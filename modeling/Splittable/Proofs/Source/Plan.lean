import Splittable.Source.Plan
import Mathlib.Data.List.Perm.Basic

/-!
# What a plan has

A plan has the handle of every split that the library finds, in the order of the context, and a
bundle is the source with one of these handles.

* `Handle.of_ofDescriptor`   a handle has the payload of its descriptor, and keeps the descriptor;
* `Source.of_plan`           the handles of a plan;
* `Source.of_bundles`        the plan behind bundles;
* `Source.of_mem_bundles`    what a bundle is;
* `Source.bundles_of_plan`   the bundles of a source by its plan.
-/

namespace Splittable

variable {ρ ε : Type}

/-- A descriptor is shipped with its payload, and kept. -/
theorem Handle.of_ofDescriptor {split : Descriptor} {decoders : Decoders ε} {handle : Handle}
    (h : ofDescriptor split decoders = .ok handle) :
    ∃ payload, split.payload = .ok payload ∧
      handle = ⟨split.tag, split.length, payload, some split⟩ := by
  unfold ofDescriptor at h
  split at h
  · split at h
    · rename_i payload hpayload
      cases h
      exact ⟨payload, hpayload, rfl⟩
    · cases h
  · cases h

namespace Source

theorem of_mem_handles {decoders : Decoders ε} {splits : List Descriptor} {found : List Handle}
    (h : handles decoders splits = .ok found) {handle : Handle} (hmem : handle ∈ found) :
    ∃ split ∈ splits, Handle.ofDescriptor split decoders = .ok handle := by
  induction splits generalizing found with
  | nil =>
    cases h
    cases hmem
  | cons split splits ih =>
    unfold handles at h
    cases hhandle : Handle.ofDescriptor split decoders with
    | error e =>
      rw [hhandle] at h
      cases h
    | ok first =>
      rw [hhandle] at h
      cases hrest : handles decoders splits with
      | error e =>
        rw [hrest] at h
        cases h
      | ok others =>
        rw [hrest] at h
        cases h
        obtain rfl | hmem := List.mem_cons.1 hmem
        · exact ⟨split, List.mem_cons_self, hhandle⟩
        · obtain ⟨other, hother, hship⟩ := ih hrest hmem
          exact ⟨other, List.mem_cons_of_mem _ hother, hship⟩

/-- A plan has the handles of the splits that the library finds, in some order. -/
theorem of_plan {library : Library ρ ε} {resource : String} {overrides : Overrides}
    {desired : UInt64} {context : Context ρ ε} {w : World ε} {planned : List Handle}
    (h : (plan library resource overrides desired context w).1 = .ok planned) :
    ∃ splits w₁ found,
      library.discover resource overrides (some (.exact (context.bundleSize desired))) w =
        (.ok splits, w₁) ∧
      handles context.decoders splits = .ok found ∧ planned.Perm found := by
  unfold plan at h
  simp only [bind, StateT.bind] at h
  rcases hdiscover : library.discover resource overrides
    (some (.exact (context.bundleSize desired))) w with ⟨fault | splits, w₁⟩
  · rw [hdiscover] at h
    cases h
  · rw [hdiscover] at h
    dsimp only at h
    cases hhandles : handles context.decoders splits with
    | error e =>
      rw [hhandles] at h
      cases h
    | ok found =>
      rw [hhandles] at h
      have hplanned : (context.order.apply found
          (w₁.note .info s!"Got {splits.length} splits.")).1 = planned := Except.ok.inj h
      refine ⟨splits, w₁, found, rfl, hhandles, ?_⟩
      rw [← hplanned]
      exact context.order.apply_perm found _

theorem bundles_of_plan {source : Source} {library : Library ρ ε} {desired : UInt64}
    {context : Context ρ ε} {w w₁ : World ε} {planned : List Handle} (hwhole : source.split = none)
    (hvalid : source.validate = .ok ()) (hlibrary : source.library context = .ok library)
    (hplan : plan library source.resourceText source.overrides desired context w =
      (.ok planned, w₁)) :
    source.bundles desired context w = (.ok (planned.map source.withSplit), w₁) := by
  unfold Source.bundles
  rw [hwhole, hvalid]
  simp only [Option.isSome_none, Bool.false_eq_true, if_false]
  rw [hlibrary]
  simp only [bind, StateT.bind, hplan]
  rfl

/-- Bundles come from a plan: the source with each of the handles that are planned. -/
theorem of_bundles {source : Source} {desired : UInt64} {context : Context ρ ε} {w : World ε}
    {bundles : List Source} (hwhole : source.split = none)
    (h : (source.bundles desired context w).1 = .ok bundles) :
    source.validate = .ok () ∧ ∃ library, source.library context = .ok library ∧
      ∃ planned,
        (plan library source.resourceText source.overrides desired context w).1 = .ok planned ∧
        bundles = planned.map source.withSplit := by
  unfold Source.bundles at h
  rw [hwhole] at h
  cases hvalid : source.validate with
  | error e =>
    rw [hvalid] at h
    cases h
  | ok _ =>
    rw [hvalid] at h
    cases hlibrary : source.library context with
    | error e =>
      rw [hlibrary] at h
      cases h
    | ok library =>
      rw [hlibrary] at h
      rcases hplan : plan library source.resourceText source.overrides desired context w with
        ⟨e | planned, w₂⟩
      · simp [bind, StateT.bind, hplan] at h
        cases h
      · have hbundles : planned.map source.withSplit = bundles := by
          simp [bind, StateT.bind, hplan] at h
          exact Except.ok.inj h
        exact ⟨rfl, library, rfl, planned, congrArg Prod.fst hplan, hbundles.symm⟩

/-- **What a bundle is**: the source with the handle of one of the splits that its library finds. -/
theorem of_mem_bundles {source bundle : Source} {desired : UInt64} {context : Context ρ ε}
    {w : World ε} {bundles : List Source} (hwhole : source.split = none)
    (h : (source.bundles desired context w).1 = .ok bundles) (hmem : bundle ∈ bundles) :
    source.validate = .ok () ∧ ∃ library, source.library context = .ok library ∧
      ∃ splits w₁, library.discover source.resourceText source.overrides
          (some (.exact (context.bundleSize desired))) w = (.ok splits, w₁) ∧
        ∃ split ∈ splits, ∃ handle, Handle.ofDescriptor split context.decoders = .ok handle ∧
          bundle = source.withSplit handle := by
  obtain ⟨hvalid, library, hlibrary, planned, hplan, rfl⟩ := of_bundles hwhole h
  obtain ⟨handle, hhandle, rfl⟩ := List.mem_map.1 hmem
  obtain ⟨splits, w₁, found, hdiscover, hfound, hperm⟩ := of_plan hplan
  obtain ⟨split, hsplit, hship⟩ := of_mem_handles hfound (hperm.mem_iff.1 hhandle)
  exact ⟨hvalid, library, hlibrary, splits, w₁, hdiscover, split, hsplit, handle, hship, rfl⟩

end Source

end Splittable
