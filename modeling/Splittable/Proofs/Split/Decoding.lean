import Splittable.Proofs.Source.Plan
import Splittable.Proofs.Source.Shipped

/-!
# Descriptors are decoded once

A handle that was read from JSON asks the decoders for its descriptor until they give it one, and
never again.  A clone has the descriptor where it was known when the clone was taken, and asks on
its own where it was not.

* `split_of_decoded`, `split_of_undecoded`   one call, with a descriptor that is known and without;
* `Event`, `answers`    calls and clones, and what a handle was answered, as a clone before it was;
* `Reached`             the handles after some events, with any decoders at each call;
* `Reached.kept`, `Reached.decoded_iff`   what is shipped stays, what is known was answered;
* `split_reached`       the next call on any of the handles.
-/

namespace Splittable.Handle

variable {ε : Type} {first handle : Handle} {d : Descriptor}

/-! ## one call -/

theorem split_of_decoded (h : handle.decoded = some d) (decoders : Decoders ε) (w : World ε) :
    handle.split decoders w = ((.ok d, handle), w) := by
  unfold split
  rw [h]
  rfl

/-- A handle without its descriptor gives the answer of the decoders, and keeps a success. -/
theorem split_of_undecoded (h : handle.decoded = none) (decoders : Decoders ε) (w : World ε) :
    handle.split decoders w =
      (((decoders.decode handle.tag handle.payload w).1,
        { handle with decoded := (decoders.decode handle.tag handle.payload w).1.toOption }),
        (decoders.decode handle.tag handle.payload w).2) := by
  unfold split
  rw [h]
  simp only [bind, StateT.bind]
  rcases decoders.decode handle.tag handle.payload w with ⟨e | d, w'⟩
  · -- nothing is kept of a failure
    have hkept : handle = { handle with decoded := none } := by rw [← h]
    show ((Except.error e, handle), w') = _
    rw [hkept]
    rfl
  · rfl

/-- The descriptor is known after a call where it was before, or is what the call answered. -/
theorem decoded_split (decoders : Decoders ε) (w : World ε) :
    (handle.split decoders w).1.2.decoded = some d ↔
      handle.decoded = some d ∨ (handle.split decoders w).1.1 = .ok d := by
  cases h : handle.decoded with
  | some known =>
    rw [split_of_decoded h decoders w]
    simp [h]
  | none =>
    rw [split_of_undecoded h decoders w]
    cases (decoders.decode handle.tag handle.payload w).1 with
    | error e => simp [Except.toOption]
    | ok found => simp [Except.toOption]

theorem split_kept (decoders : Decoders ε) (w : World ε) : (handle.split decoders w).1.2 =
    { handle with decoded := (handle.split decoders w).1.2.decoded } := by
  cases h : handle.decoded with
  | some known => rw [split_of_decoded h decoders w]
  | none => rw [split_of_undecoded h decoders w]

/-! ## calls and clones -/

/-- what is done with one of the handles, which are numbered in the order in which they came -/
inductive Event
  | asked (i : Nat) (answer : Except HandleError Descriptor)
  | cloned (i : Nat)

/-- the number of handles after some events, of which the latest comes first -/
def copies : List Event → Nat
  | [] => 1
  | .asked _ _ :: past => copies past
  | .cloned _ :: past => copies past + 1

/-- what a handle was answered and, before it was taken as a clone, the one that it was taken of -/
def answers : List Event → Nat → List (Except HandleError Descriptor)
  | [], _ => []
  | .asked j answer :: past, i => if j = i then answer :: answers past i else answers past i
  | .cloned j :: past, i => if i = copies past then answers past j else answers past i

/-- the handles held after some events, of which each call has decoders and a world of its own -/
inductive Reached (ε : Type) (first : Handle) : List Event → List Handle → Prop
  | start : Reached ε first [] [first]
  | asked {past : List Event} {held : List Handle} {i : Nat} {handle : Handle}
      (h : Reached ε first past held) (hi : held[i]? = some handle) (decoders : Decoders ε)
      (w : World ε) : Reached ε first (.asked i (handle.split decoders w).1.1 :: past)
        (held.set i (handle.split decoders w).1.2)
  | cloned {past : List Event} {held : List Handle} {i : Nat} {handle : Handle}
      (h : Reached ε first past held) (hi : held[i]? = some handle) :
      Reached ε first (.cloned i :: past) (held ++ [handle])

namespace Reached

variable {past : List Event} {held : List Handle} {i : Nat}

theorem length_held (h : Reached ε first past held) : held.length = copies past := by
  induction h with
  | start => rfl
  | asked _ _ _ _ ih => rw [List.length_set, ih, copies]
  | cloned _ _ ih => rw [List.length_append, ih, copies, List.length_singleton]

theorem held_asked {j : Nat} {asked after : Handle} (hj : held[j]? = some asked)
    (hi : (held.set j after)[i]? = some handle) :
    if j = i then handle = after else held[i]? = some handle := by
  split
  · subst j
    rw [List.getElem?_set_self (List.getElem?_eq_some_iff.1 hj).1] at hi
    exact (Option.some.inj hi).symm
  · rename_i hne
    rwa [List.getElem?_set_ne hne] at hi

theorem held_cloned (h : Reached ε first past held) {original : Handle}
    (hi : (held ++ [original])[i]? = some handle) :
    if i = copies past then handle = original else held[i]? = some handle := by
  rw [← h.length_held]
  split
  · subst i
    rw [List.getElem?_concat_length] at hi
    exact (Option.some.inj hi).symm
  · rename_i hne
    have hlt := (List.getElem?_eq_some_iff.1 hi).1
    rw [List.length_append, List.length_singleton] at hlt
    rwa [List.getElem?_append_left (by omega)] at hi

/-- **What is shipped stays as it was.** -/
theorem kept (h : Reached ε first past held) (hi : held[i]? = some handle) :
    handle = { first with decoded := handle.decoded } := by
  induction h generalizing i handle with
  | start =>
    obtain rfl := List.mem_singleton.1 (List.mem_of_getElem? hi)
    rfl
  | asked h hj decoders w ih =>
    have hwhich := held_asked hj hi
    split at hwhich
    · rw [hwhich, split_kept, ih hj]
    · exact ih hwhich
  | cloned h hj ih =>
    have hwhich := h.held_cloned hi
    split at hwhich
    · rw [hwhich]
      exact ih hj
    · exact ih hwhich

/-- **The descriptor that is known is one that was answered**, or the first handle had it. -/
theorem decoded_iff (h : Reached ε first past held) (hi : held[i]? = some handle) :
    handle.decoded = some d ↔ first.decoded = some d ∨ .ok d ∈ answers past i := by
  induction h generalizing i handle with
  | start =>
    obtain rfl := List.mem_singleton.1 (List.mem_of_getElem? hi)
    simp [answers]
  | asked h hj decoders w ih =>
    have hwhich := held_asked hj hi
    rw [answers]
    split at hwhich
    · rename_i heq
      subst heq
      rw [if_pos rfl, hwhich, decoded_split, ih hj, List.mem_cons]
      tauto
    · rename_i hne
      rw [if_neg hne]
      exact ih hwhich
  | cloned h hj ih =>
    have hwhich := h.held_cloned hi
    rw [answers]
    split at hwhich
    · rename_i heq
      rw [if_pos heq, hwhich]
      exact ih hj
    · rename_i hne
      rw [if_neg hne]
      exact ih hwhich

end Reached

/-! ## the next call -/

theorem decoded_of_ofJson? {j : Json} (h : ofJson? j = some handle) : handle.decoded = none := by
  obtain ⟨members, -, h⟩ := Option.bind_eq_some_iff.1 h
  split at h
  · obtain ⟨tag, -, h⟩ := Option.bind_eq_some_iff.1 h
    obtain ⟨length, -, h⟩ := Option.bind_eq_some_iff.1 h
    obtain ⟨payload, -, h⟩ := Option.bind_eq_some_iff.1 h
    cases h
    rfl
  · cases h

/-- **What the next call answers** on any handle, after any calls and clones, with any decoders and
in any world.  For a handle that was read from JSON, once it or what it is a clone of was answered
a descriptor, the answer is that descriptor, no decoder is asked and the world stays as it is.
Until then the answer is that of the decoders, and only a descriptor is kept.  A handle that was
made of a descriptor answers that, and asks no decoder.  What is shipped stays as it was. -/
theorem split_reached {past : List Event} {held : List Handle} {i : Nat}
    (h : Reached ε first past held) (hi : held[i]? = some handle) (decoders : Decoders ε)
    (w : World ε) :
    (∀ j, ofJson? j = some first →
      (∀ d, .ok d ∈ answers past i → handle.split decoders w = ((.ok d, handle), w)) ∧
      ((∀ d, .ok d ∉ answers past i) → handle.isDecoded = false ∧
        ∀ answer w', decoders.decode first.tag first.payload w = (answer, w') →
          handle.split decoders w =
            ((answer, { handle with decoded := answer.toOption }), w'))) ∧
    (∀ d (registry : Decoders ε), ofDescriptor d registry = .ok first →
      handle.split decoders w = ((.ok d, handle), w)) ∧
    handle.tag = first.tag ∧ handle.length = first.length ∧ handle.payload = first.payload ∧
    handle.toJson = first.toJson ∧
    ∀ other, (handle.Same other ↔ first.Same other) ∧ (other.Same handle ↔ other.Same first) := by
  have hkept := h.kept hi
  have htag : handle.tag = first.tag := by rw [hkept]
  have hpayload : handle.payload = first.payload := by rw [hkept]
  refine ⟨fun j hj => ?_, fun d registry hmade => ?_, htag, ?_, hpayload, ?_, fun other => ?_⟩
  · have hfirst : first.decoded = none := decoded_of_ofJson? hj
    have hknown : ∀ d, handle.decoded = some d ↔ .ok d ∈ answers past i := fun d => by
      rw [h.decoded_iff hi, hfirst]
      simp
    refine ⟨fun d hd => split_of_decoded ((hknown d).2 hd) decoders w, fun hnone => ?_⟩
    have hunknown : handle.decoded = none :=
      Option.eq_none_iff_forall_ne_some.2 fun d hd => hnone d ((hknown d).1 hd)
    refine ⟨by rw [isDecoded, hunknown]; rfl, fun answer w' hdecode => ?_⟩
    rw [split_of_undecoded hunknown decoders w, htag, hpayload, hdecode]
  · obtain ⟨payload, -, hfirst⟩ := of_ofDescriptor hmade
    refine split_of_decoded ((h.decoded_iff hi).2 (.inl ?_)) decoders w
    rw [hfirst]
  · rw [hkept]
  · rw [hkept]
    rfl
  · rw [hkept]
    exact ⟨Iff.rfl, Iff.rfl⟩

/-- one failure, one success, and a clone taken after each of them -/
theorem split_reached_clones :
    let d : Descriptor := .custom ⟨"t", 0, 1, "t", .ok []⟩
    let first : Handle := ⟨"t", 1, [], none⟩
    let known : Handle := ⟨"t", 1, [], some d⟩
    let decoders : Decoders Unit := .ofList [("t", fun _ => pure (.ok d))]
    let w : World Unit := ⟨.empty, .empty, [], fun _ => 0, 0, ()⟩
    let past : List Event :=
      [.cloned 0, .asked 0 (.ok d), .cloned 0, .asked 0 (.error (.unknownTag "t"))]
    ofJson? first.toJson = some first ∧ Reached Unit first past [known, first, known] ∧
      known.split .empty w = ((.ok d, known), w) ∧
      first.split .empty w = ((.error (.unknownTag "t"), first), w) ∧
      ofDescriptor d decoders = .ok known ∧ Reached Unit known [] [known] ∧
      known.split .empty w = ((.ok d, known), w) := by
  intro d first known decoders w past
  have hjson : ofJson? first.toJson = some first := Handle.kept.back first
  have hfailed : Reached Unit first [.asked 0 (.error (.unknownTag "t"))] [first] :=
    @Reached.asked _ _ [] [first] 0 first .start rfl .empty w
  have hcloned : Reached Unit first [.cloned 0, .asked 0 (.error (.unknownTag "t"))]
      [first, first] := hfailed.cloned rfl
  have hasked : Reached Unit first
      [.asked 0 (.ok d), .cloned 0, .asked 0 (.error (.unknownTag "t"))] [known, first] :=
    @Reached.asked _ _ _ [first, first] 0 first hcloned rfl decoders w
  have hreached : Reached Unit first past [known, first, known] := hasked.cloned rfl
  have hmade : ofDescriptor d decoders = .ok known := rfl
  have hstart : Reached Unit known [] [known] := .start
  obtain ⟨hlater, -⟩ := split_reached hreached (i := 2) rfl .empty w
  obtain ⟨hearlier, -⟩ := split_reached hreached (i := 1) rfl .empty w
  obtain ⟨-, hnew, -⟩ := split_reached hstart (i := 0) rfl .empty w
  obtain ⟨-, hfails⟩ := (hearlier _ hjson).2 (by simp [answers, copies, past])
  exact ⟨hjson, hreached, (hlater _ hjson).1 d (by simp [answers, copies, past]),
    hfails _ _ rfl, hmade, hstart, hnew d decoders hmade⟩

end Splittable.Handle
