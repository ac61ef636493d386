import Splittable.Proofs.Pool.Ledger
import Splittable.Proofs.Ratio.Rational
import Mathlib.Data.List.Perm.Basic

/-!
# Complete reads

A read that answers its totals has handed on every record of every bundle once, the records of one
bundle in the order of its reader.  This holds for every order of the steps.

* `Ledger.moves`, `Run.ledger`   the step of a worker keeps the ledger, and a run keeps it;
* `Tally`, `Run.tally`           what the consumer has counted;
* `Run.complete`                 what was handed on when a read answers its totals.
-/

namespace Splittable.Pool

variable {ρ ε τ φ : Type} [Ratio ρ]

section
variable {context : Context ρ ε} {bundles done : List Bundle} {calls : List (Call ε)}
  {seen : List Event} {shared shared' : Shared ρ ε} {before after : List (Worker ρ ε)}
  {worker worker' : Worker ρ ε}

/-- **A step of a worker that does not fail keeps the ledger.** -/
theorem Ledger.moves
    (h : Ledger context bundles calls (seen ++ shared.channel) shared.queue
      (before ++ worker :: after) done)
    (hnodup : (bundles.map Bundle.place).Nodup)
    (hmoves : Worker.Moves shared worker worker' shared')
    (hcontext : shared.context = context) (hlistening : shared.listening = true)
    (hfirst : shared.firstFailure = none) (hfailing : ∀ failure, worker' ≠ .failing failure) :
    ∃ done', Ledger context bundles (calls ++ [⟨shared.world, shared'.world⟩])
      (seen ++ shared'.channel) shared'.queue (before ++ worker' :: after) done' := by
  have hcalls : calls.Sublist (calls ++ [⟨shared.world, shared'.world⟩]) :=
    List.sublist_append_left _ _
  have hfits := h.fits
  cases hmoves with
  | drained _ => exact ⟨done, h.moved hcalls rfl trivial⟩
  | took hqueue =>
    rw [hqueue] at h
    exact ⟨done, h.took hcalls⟩
  | gaveUp hsome =>
    rw [hfirst] at hsome
    cases hsome
  | wentOn _ => exact ⟨done, h.moved hcalls rfl hfits⟩
  | uncreated _ => exact absurd rfl (hfailing _)
  | @started _ _ _ _ pair hcreate hstart hcurrent =>
    rw [hcontext] at hcreate
    refine ⟨done, h.moved hcalls rfl ⟨_, [], List.sublist_append_right _ _, ?_, hfits, rfl⟩⟩
    exact .start hcreate hstart hcurrent
  | startedEmpty hcreate hstart =>
    rw [hcontext] at hcreate
    refine ⟨done, h.moved hcalls rfl ⟨rfl, _, [], List.sublist_append_right _ _, ?_, hfits, rfl⟩⟩
    exact .empty hcreate hstart
  | startFailed _ _ _ => exact absurd rfl (hfailing _)
  | unheard hdeaf =>
    rw [hlistening] at hdeaf
    cases hdeaf
  | @sent bundle sent pair any _ _ =>
    obtain ⟨made, pairs, hmade, hread, hevents, hlength⟩ := hfits
    have hledger : Ledger context bundles (calls ++ [⟨shared.world, shared.world⟩])
        (seen ++ shared.channel ++ [.record bundle.place pair]) shared.queue
        (before ++ .advancing bundle (sent + 1) any :: after) done := by
      refine h.sent rfl hnodup rfl hcalls rfl
        ⟨made, pairs ++ [pair], hmade.trans hcalls, hread, ?_, ?_⟩
      · exact eventsAt_append_self.trans (by rw [Event.place, hevents, List.map_append]; rfl)
      · rw [List.length_append, hlength]
        rfl
    rw [List.append_assoc] at hledger
    exact ⟨done, hledger⟩
  | advanced hadvance hcurrent =>
    obtain ⟨made, pairs, hmade, hread, hsent⟩ := hfits
    refine ⟨done, h.moved hcalls rfl ⟨_, pairs, ?_, .advance hread hadvance hcurrent, hsent⟩⟩
    exact List.Sublist.append hmade (List.Sublist.refl _)
  | ended hadvance =>
    obtain ⟨made, pairs, hmade, hread, hsent⟩ := hfits
    refine ⟨done, h.moved hcalls rfl ⟨rfl, _, pairs, ?_, .last hread hadvance, hsent⟩⟩
    exact List.Sublist.append hmade (List.Sublist.refl _)
  | advanceFailed _ _ => exact absurd rfl (hfailing _)
  | closed hclose =>
    obtain ⟨rfl, made, pairs, hmade, hread, hsent⟩ := hfits
    exact ⟨done, h.moved hcalls rfl ⟨made, pairs, hmade.trans hcalls, hread, hsent⟩⟩
  | closeFailed _ => exact absurd rfl (hfailing _)
  | unreported hdeaf =>
    rw [hlistening] at hdeaf
    cases hdeaf
  | @reported bundle sent _ _ =>
    obtain ⟨made, pairs, hmade, hread, hevents, hlength⟩ := hfits
    have hledger : Ledger context bundles (calls ++ [⟨shared.world, shared.world⟩])
        (seen ++ shared.channel ++ [.finished bundle.place sent]) shared.queue
        (before ++ .idle :: after) (bundle :: done) := by
      refine h.finished rfl hnodup rfl hcalls rfl trivial
        ⟨made, pairs, hmade.trans hcalls, hread, ?_⟩
      exact eventsAt_append_self.trans (by rw [Event.place, hevents, hlength])
    rw [List.append_assoc] at hledger
    exact ⟨bundle :: done, hledger⟩
  | recorded => exact hfits.elim
  | stopped => exact hfits.elim

end

/-! ## along a run -/

theorem map_place_number (sources : List Source) :
    (Bundle.number sources).map Bundle.place = List.range sources.length := by
  unfold Bundle.number
  rw [List.map_map, List.range_eq_range']
  exact List.zipIdx_map_snd 0 sources

section
variable {bundles : List Source} {context : Context ρ ε} {workers capacity : Nat} {gathered : τ}
  {w : World ε} {receive : Receive τ φ} {start s s' : State ρ ε τ φ}
  {history : List (Step ρ ε τ φ)}

/-- the ledger of a run -/
structure Progress (start : State ρ ε τ φ) (history : List (Step ρ ε τ φ)) (s : State ρ ε τ φ)
    (bundles : List Bundle) : Prop where
  ledger : ∃ done, Ledger start.shared.context bundles (history.map Step.call)
    (taken history ++ s.shared.channel) s.shared.queue s.workers done
  /-- a worker goes when the queue is empty -/
  drained : Worker.gone ∈ s.workers → s.shared.queue = []

theorem progress_start :
    Progress (State.start bundles context workers capacity gathered w : State ρ ε τ φ) []
      (State.start bundles context workers capacity gathered w) (Bundle.number bundles) where
  ledger := by
    refine ⟨[], ?_, fun _ _ => rfl, fun worker hworker => ?_, fun bundle hbundle => ?_,
      fun event hevent => ?_⟩
    · have hhand : inHand (List.replicate workers (Worker.idle : Worker ρ ε)) = [] := by
        unfold inHand
        exact List.filterMap_eq_nil_iff.2 fun worker hworker => by
          rw [List.eq_of_mem_replicate hworker]
          rfl
      show (Bundle.number bundles ++ (inHand (List.replicate workers _) ++ [])).Perm _
      rw [hhand, List.append_nil, List.append_nil]
    · rw [List.eq_of_mem_replicate hworker]
      trivial
    · cases hbundle
    · cases hevent
  drained := fun h => by cases List.eq_of_mem_replicate h

omit [Ratio ρ] in
theorem taken_concat (history : List (Step ρ ε τ φ)) (step : Step ρ ε τ φ) :
    taken (history ++ [step]) = taken history ++ step.taken?.toList := by
  unfold taken
  rw [List.filterMap_append]
  cases hstep : step.taken? with
  | none => rw [List.filterMap_cons_none hstep]; rfl
  | some event => rw [List.filterMap_cons_some hstep]; rfl

theorem Progress.same {step : Step ρ ε τ φ} {all : List Bundle} (h : Progress start history s all)
    (hqueue : s'.shared.queue = s.shared.queue) (hworkers : s'.workers = s.workers)
    (hevents : step.taken?.toList ++ s'.shared.channel = s.shared.channel) :
    Progress start (history ++ [step]) s' all := by
  obtain ⟨⟨done, hledger⟩, hdrained⟩ := h
  refine ⟨⟨done, ?_⟩, by rw [hqueue, hworkers]; exact hdrained⟩
  rw [taken_concat, List.append_assoc, hevents, hqueue, hworkers, List.map_append]
  exact hledger.later (List.sublist_append_left _ _)

/-- the step of a worker in a run that is not in trouble -/
theorem Progress.worker {before after : List (Worker ρ ε)} {worker worker' : Worker ρ ε}
    {shared : Shared ρ ε} {all : List Bundle} (h : Progress start history s all)
    (hnodup : (all.map Bundle.place).Nodup) (hsound : s.Sound)
    (hcontext : s.shared.context = start.shared.context) (hbefore : ¬ s.Trouble)
    (hworkers : s.workers = before ++ worker :: after)
    (hmoves : Worker.Moves s.shared worker worker' shared)
    (hcalm : ∀ failure, worker' ≠ .failing failure) :
    Progress start
      (history ++ [⟨.worker before.length, s,
        { s with shared, workers := before ++ worker' :: after }⟩])
      { s with shared, workers := before ++ worker' :: after } all := by
  obtain ⟨⟨done, hledger⟩, hdrained⟩ := h
  -- a consumer that left of its own accord found all workers gone, and this one is not
  have hlistening : s.shared.listening = true := by
    by_contra hdeaf
    obtain ⟨reason, hreason⟩ := hsound.listening.1 (Bool.eq_false_iff.2 hdeaf)
    cases reason with
    | none =>
      have hgone := State.allGone_iff.1 (hsound.drained (.inr hreason)).1
      rw [hworkers] at hgone
      exact hmoves.ne_gone (hgone worker (by simp))
    | some reason => exact hbefore (.inr (.inr ⟨reason, .inr (.inr hreason)⟩))
  have hfirst : s.shared.firstFailure = none := by
    by_contra hsome
    exact hbefore (.inl (Option.isSome_iff_ne_none.2 hsome))
  rw [hworkers] at hledger hdrained
  have hfits := hledger.fits
  refine ⟨?_, fun hgone => ?_⟩
  · rw [taken_concat, List.map_append]
    show ∃ done, Ledger _ _ (history.map Step.call ++ [⟨s.shared.world, shared.world⟩])
      (taken history ++ [] ++ shared.channel) _ _ done
    rw [List.append_nil]
    exact hledger.moves hnodup hmoves hcontext hlistening hfirst hcalm
  · show shared.queue = []
    rcases State.mem_replaced hgone with hself | hother
    · cases hmoves with
      | drained hqueue => exact hqueue
      | gaveUp hsome =>
        rw [hfirst] at hsome
        cases hsome
      | closed _ =>
        obtain ⟨rfl, -⟩ := hfits
        cases hself
      | unreported hdeaf =>
        rw [hlistening] at hdeaf
        cases hdeaf
      | stopped => exact hfits.elim
      | _ => cases hself
    · have hqueue := hdrained hother
      cases hmoves with
      | took hcons =>
        rw [hqueue] at hcons
        cases hcons
      | _ => exact hqueue

/-- **As long as a run is not in trouble, it keeps the ledger.** -/
theorem Run.progress
    (h : Run receive (State.start bundles context workers capacity gathered w) history s)
    (hcalm : ¬ s.Trouble) :
    Progress (State.start bundles context workers capacity gathered w) history s
      (Bundle.number bundles) := by
  induction h with
  | start => exact progress_start
  | @step history s s' action hrun hact ih =>
    have hacts := State.acts_of_act hact
    -- trouble stays, so there was none before this step and the ledger was kept so far
    have hbefore : ¬ s.Trouble := fun htrouble => hcalm (htrouble.act hacts)
    have hprogress := ih hbefore
    cases hacts with
    | interrupt => exact hprogress.same rfl rfl rfl
    | consumer hconsumes =>
      cases hconsumes with
      | received hconsumer hchannel _ =>
        refine hprogress.same rfl rfl ?_
        unfold Step.taken?
        dsimp only
        rw [hconsumer, hchannel]
        rfl
      | refused hconsumer _ _ => exact absurd (.inr (.inr ⟨_, .inl rfl⟩)) hcalm
      | drained hconsumer hchannel _ =>
        refine hprogress.same rfl rfl ?_
        unfold Step.taken?
        dsimp only
        rw [hconsumer, hchannel]
        rfl
      | stopped hconsumer => exact absurd (.inr (.inr ⟨_, .inl hconsumer⟩)) hbefore
      | left hconsumer =>
        refine hprogress.same rfl rfl ?_
        unfold Step.taken?
        dsimp only
        rw [hconsumer]
        rfl
    | worker hworkers hmoves =>
      refine hprogress.worker ?_ (hrun.sound (State.sound_start _ _ _ _ _ _)) hrun.keeps.1 hbefore
        hworkers hmoves fun failure hfailing => hcalm (.inr (.inl ⟨failure, ?_⟩))
      · rw [map_place_number]
        exact List.nodup_range
      · rw [hfailing]
        exact List.mem_append_right _ List.mem_cons_self

end

/-! ## what is counted -/

/-- What the consumer has counted, and what the caller has made of the records handed on. -/
structure Tally (onRecord : OnRecord τ φ) (total : τ) (events : List Event)
    (gathered : Summary × τ) : Prop where
  bundles : gathered.1.bundles = events.countP fun event => event.record?.isNone
  records : gathered.1.records = (events.filterMap Event.record?).length
  total : gathered.2 = (events.filterMap Event.record?).foldl
    (fun total record => (onRecord record.2 total).2) total

theorem Tally.receive {onRecord : OnRecord τ φ} {total : τ} {events : List Event}
    {gathered gathered' : Summary × τ} {event : Event} (h : Tally onRecord total events gathered)
    (hreceive : receiveRecords onRecord event gathered = (.ok (), gathered')) :
    Tally onRecord total (events ++ [event]) gathered' := by
  obtain ⟨hbundles, hrecords, htotal⟩ := h
  cases event with
  | finished place records =>
    cases hreceive
    refine ⟨?_, ?_, ?_⟩
    · rw [List.countP_append, ← hbundles]
      rfl
    · rw [List.filterMap_append, List.length_append, ← hrecords]
      rfl
    · rw [List.filterMap_append, List.foldl_append, ← htotal]
      rfl
  | record place pair =>
    unfold receiveRecords at hreceive
    dsimp only at hreceive
    rcases hon : onRecord pair gathered.2 with ⟨reason | _, total'⟩
    · rw [hon] at hreceive
      cases hreceive
    · rw [hon] at hreceive
      cases hreceive
      refine ⟨?_, ?_, ?_⟩
      · rw [List.countP_append, ← hbundles]
        rfl
      · rw [List.filterMap_append, List.length_append, ← hrecords]
        rfl
      · rw [List.filterMap_append, List.foldl_append, ← htotal]
        show total' = (onRecord pair gathered.2).2
        rw [hon]

theorem Run.tally {onRecord : OnRecord τ φ} {total : τ} {start s : State ρ ε (Summary × τ) φ}
    {history : List (Step ρ ε (Summary × τ) φ)}
    (h : Run (receiveRecords onRecord) start history s) (hstart : start.gathered = (⟨0, 0⟩, total))
    (hcalm : ¬ s.Trouble) : Tally onRecord total (taken history) s.gathered := by
  induction h with
  | start =>
    rw [hstart]
    exact ⟨rfl, rfl, rfl⟩
  | @step history s s' action hrun hact ih =>
    have hacts := State.acts_of_act hact
    have htally := ih fun htrouble => hcalm (htrouble.act hacts)
    rw [taken_concat]
    cases hacts with
    | interrupt => exact (List.append_nil (taken history)).symm ▸ htally
    | worker _ _ => exact (List.append_nil (taken history)).symm ▸ htally
    | consumer hconsumes =>
      unfold Step.taken?
      dsimp only
      cases hconsumes with
      | received hconsumer hchannel hreceive =>
        rw [hconsumer, hchannel]
        exact htally.receive hreceive
      | refused _ _ _ => exact absurd (.inr (.inr ⟨_, .inl rfl⟩)) hcalm
      | drained hconsumer hchannel _ =>
        rw [hconsumer, hchannel]
        exact (List.append_nil (taken history)).symm ▸ htally
      | stopped hconsumer =>
        rw [hconsumer]
        exact (List.append_nil (taken history)).symm ▸ htally
      | left hconsumer =>
        rw [hconsumer]
        exact (List.append_nil (taken history)).symm ▸ htally

theorem eventsAt_perm {events : List Event} {places : List Nat} (hnodup : places.Nodup)
    (hplaces : ∀ event ∈ events, event.place ∈ places) :
    (places.flatMap (eventsAt events)).Perm events := by
  induction places generalizing events with
  | nil =>
    cases events with
    | nil => exact .nil
    | cons event events => cases hplaces event List.mem_cons_self
  | cons place places ih =>
    obtain ⟨hnotin, hnodup⟩ := List.nodup_cons.1 hnodup
    let rest := events.filter fun event => !decide (event.place = place)
    have hrest : places.flatMap (eventsAt rest) = places.flatMap (eventsAt events) := by
      refine List.flatMap_congr fun other hother => ?_
      have hne : other ≠ place := fun h => hnotin (h ▸ hother)
      show (events.filter _).filter _ = events.filter _
      rw [List.filter_filter]
      refine List.filter_congr fun event _ => ?_
      by_cases heq : event.place = other
      · simp [heq, hne]
      · simp [heq]
    rw [List.flatMap_cons, ← hrest]
    refine ((ih hnodup fun event hevent => ?_).append_left _).trans
      (List.filter_append_perm (fun event : Event => decide (event.place = place)) events)
    obtain ⟨hmem, hne⟩ := List.mem_filter.1 hevent
    rcases List.mem_cons.1 (hplaces event hmem) with heq | hin
    · simp [heq] at hne
    · exact hin

/-! ## complete reads -/

/-- The records of a bundle that is read to its end. -/
def Complete (context : Context ρ ε) (calls : List (Call ε)) (events : List Event)
    (bundle : Bundle) (pairs : List Pair) : Prop :=
  (∃ made, made.Sublist calls ∧ bundle.source.ReadOut context made pairs) ∧
    eventsAt events bundle.place =
      pairs.map (Event.record bundle.place) ++ [.finished bundle.place pairs.length]

theorem exists_complete {context : Context ρ ε} {calls : List (Call ε)} {events : List Event}
    {bundles : List Bundle} (h : ∀ bundle ∈ bundles, Finished context calls events bundle) :
    ∃ records, List.Forall₂ (Complete context calls events) bundles records := by
  induction bundles with
  | nil => exact ⟨[], .nil⟩
  | cons bundle bundles ih =>
    obtain ⟨made, pairs, hmade, hread, hevents⟩ := h bundle List.mem_cons_self
    obtain ⟨records, hrecords⟩ := ih fun other hother => h other (List.mem_cons_of_mem _ hother)
    exact ⟨pairs :: records, .cons ⟨⟨made, hmade, hread⟩, hevents⟩ hrecords⟩

omit [Ratio ρ] in
theorem filterMap_record_map (place : Nat) (pairs : List Pair) (count : Nat) :
    (pairs.map (Event.record place) ++ [Event.finished place count]).filterMap Event.record? =
      pairs.map fun pair => (place, pair) := by
  rw [List.filterMap_append, List.filterMap_map]
  show pairs.filterMap (fun pair => some (place, pair)) ++ [] = _
  rw [List.append_nil, List.filterMap_eq_map']

/-- the records and the ends among the events of bundles that are read to their end -/
theorem count_complete {context : Context ρ ε} {calls : List (Call ε)} {events : List Event}
    {bundles : List Bundle} {records : List (List Pair)}
    (h : List.Forall₂ (Complete context calls events) bundles records) :
    (((bundles.map Bundle.place).flatMap (eventsAt events)).filterMap Event.record?).length =
        (records.map List.length).sum ∧
      ((bundles.map Bundle.place).flatMap (eventsAt events)).countP
        (fun event => event.record?.isNone) = bundles.length := by
  induction h with
  | nil => exact ⟨rfl, rfl⟩
  | @cons bundle pairs _ _ hcomplete _ ih =>
    obtain ⟨hrecords, hends⟩ := ih
    have hnone : (pairs.map (Event.record bundle.place)).countP
        (fun event => event.record?.isNone) = 0 := by
      rw [List.countP_eq_zero]
      intro event hevent
      obtain ⟨pair, -, rfl⟩ := List.mem_map.1 hevent
      exact Bool.false_ne_true
    rw [List.map_cons, List.flatMap_cons, hcomplete.2]
    constructor
    · rw [List.filterMap_append, filterMap_record_map, List.length_append, List.length_map,
        hrecords, List.map_cons, List.sum_cons]
    · rw [List.countP_append, List.countP_append, hnone, hends, List.length_cons]
      show 0 + 1 + _ = _
      omega

omit [Ratio ρ] in
theorem filter_filterMap_record (events : List Event) (place : Nat) :
    (events.filterMap Event.record?).filter (fun record => record.1 = place) =
      (eventsAt events place).filterMap Event.record? := by
  induction events with
  | nil => rfl
  | cons event events ih =>
    unfold eventsAt at ih ⊢
    cases event with
    | finished other count =>
      show (events.filterMap Event.record?).filter _ = _
      rw [ih, List.filter_cons]
      split
      · rfl
      · rfl
    | record other pair =>
      show ((other, pair) :: events.filterMap Event.record?).filter _ = _
      rw [List.filter_cons, List.filter_cons, ih]
      show (if decide (other = place) = true then _ else _) =
        (if decide (other = place) = true then _ else _ : List Event).filterMap _
      split
      · rfl
      · rfl

omit [Ratio ρ] in
theorem place_number {sources : List Source} {i : Nat} (h : i < (Bundle.number sources).length) :
    ((Bundle.number sources)[i]).place = i := by
  have hi : i < sources.length := by
    rwa [← List.length_map Bundle.place, map_place_number, List.length_range] at h
  have hget : ((Bundle.number sources).map Bundle.place)[i]? = some i := by
    rw [map_place_number, List.getElem?_range hi]
  rw [List.getElem?_map, List.getElem?_eq_getElem h] at hget
  exact Option.some.inj hget

/-- the records of the bundle at a place, and none where there is no bundle -/
theorem map_snd_of_complete {context : Context ρ ε} {calls : List (Call ε)} {events : List Event}
    {sources : List Source} {records : List (List Pair)}
    (h : List.Forall₂ (Complete context calls events) (Bundle.number sources) records)
    (hplaces : ∀ event ∈ events, event.place ∈ (Bundle.number sources).map Bundle.place)
    (place : Nat) :
    ((events.filterMap Event.record?).filter fun record => record.1 = place).map Prod.snd =
      records[place]?.getD [] := by
  rw [filter_filterMap_record]
  by_cases hplace : place < (Bundle.number sources).length
  · have hrecord : place < records.length := h.length_eq ▸ hplace
    have hcomplete := (List.forall₂_iff_get.1 h).2 place hplace hrecord
    have hevents := hcomplete.2
    rw [List.get_eq_getElem, List.get_eq_getElem, place_number hplace] at hevents
    rw [hevents, filterMap_record_map, List.map_map, List.getElem?_eq_getElem hrecord]
    exact List.map_id _
  · have hnone : eventsAt events place = [] := by
      refine List.filter_eq_nil_iff.2 fun event hevent => ?_
      have hmem := hplaces event hevent
      rw [map_place_number, List.mem_range] at hmem
      rw [← List.length_map Bundle.place, map_place_number, List.length_range] at hplace
      simp
      omega
    rw [hnone, List.getElem?_eq_none (h.length_eq ▸ Nat.le_of_not_lt hplace)]
    rfl

section
variable {bundles : List Source} {context : Context ρ ε} {workers capacity : Nat} {w : World ε}
  {receive : Receive τ φ} {gathered : τ} {s : State ρ ε τ φ} {history : List (Step ρ ε τ φ)}

/-- Where all workers are gone and nothing went wrong, every bundle is read to its end. -/
theorem Run.finished
    (h : Run receive (State.start bundles context workers capacity gathered w) history s)
    (hworkers : 0 < workers) (hcalm : ¬ s.Trouble) (hgone : s.allGone = true)
    (hchannel : s.shared.channel = []) :
    s.shared.queue = [] ∧ ∀ bundle ∈ Bundle.number bundles,
      Finished
        (State.start bundles context workers capacity gathered w : State ρ ε τ φ).shared.context
        (history.map Step.call) (taken history) bundle := by
  obtain ⟨⟨done, hledger⟩, hdrained⟩ := h.progress hcalm
  have hall := State.allGone_iff.1 hgone
  have hqueue : s.shared.queue = [] := by
    have hlength : s.workers.length = workers := h.keeps.2.2.2.trans List.length_replicate
    obtain ⟨worker, rest, hcons⟩ := List.exists_cons_of_length_pos (hlength ▸ hworkers)
    have hmem : worker ∈ s.workers := hcons ▸ List.mem_cons_self
    exact hdrained (hall worker hmem ▸ hmem)
  have hhand : inHand s.workers = [] :=
    List.filterMap_eq_nil_iff.2 fun worker hworker => by rw [hall worker hworker]; rfl
  rw [hchannel, List.append_nil] at hledger
  have hperm := hledger.all
  rw [hqueue, hhand, List.nil_append, List.nil_append] at hperm
  exact ⟨hqueue, fun bundle hbundle => hledger.done bundle (hperm.symm.subset hbundle)⟩

theorem Run.calm {start : State ρ ε τ φ} (h : Run receive start history s) (hcalm : ¬ s.Trouble)
    {step : Step ρ ε τ φ} (hstep : step ∈ history) :
    step.failure? = none ∧ step.refusal? = none := by
  have hafter := (h.not_before (fun htrouble hacts => htrouble.act hacts) hcalm hstep).2
  constructor
  · unfold Step.failure?
    split
    · split
      · rename_i hfailing
        exact absurd (.inr (.inl ⟨_, List.mem_of_getElem? hfailing⟩)) hafter
      · rfl
    · rfl
  · unfold Step.refusal?
    split
    · rename_i hrefusing
      exact absurd (.inr (.inr ⟨_, .inl hrefusing⟩)) hafter
    · rfl

end

/-- the context that the workers of a read are given: its flag is a child of the caller's -/
def runContext (context : Context ρ ε) (w : World ε) : Context ρ ε :=
  { context with interrupt := (w.flags.child context.interrupt).1 }

/-- **A read that answers its totals is complete**, whatever the order of its steps.  For each
bundle the records handed on are those of one reader of it, in their order and each once; the
totals count them; the queue is empty, and nothing failed or was refused on the way. -/
theorem Run.complete {bundles : List Source} {context : Context ρ ε} {available : Nat}
    {requested : Option Nat} {onRecord : OnRecord τ φ} {total total' : τ} {w : World ε}
    {summary : Summary} {s : State ρ ε (Summary × τ) φ}
    {history : List (Step ρ ε (Summary × τ) φ)}
    (h : Run (receiveRecords onRecord)
      (readState bundles context (.ofMachine available) requested total w) history s)
    (hok : s.outcome? = some (.ok (summary, total'))) :
    ∃ records : List (List Pair),
      List.Forall₂ (fun source pairs => ∃ calls, calls.Sublist (history.map Step.call) ∧
        source.ReadOut (runContext context w) calls pairs) bundles records ∧
      (∀ place, ((handed history).filter fun record => record.1 = place).map Prod.snd =
        records[place]?.getD []) ∧
      total' = (handed history).foldl (fun total record => (onRecord record.2 total).2) total ∧
      summary.bundles = bundles.length ∧ summary.records = (records.map List.length).sum ∧
      s.shared.queue = [] ∧
      ∀ step ∈ history, step.failure? = none ∧ step.refusal? = none := by
  obtain ⟨hconsumer, hgone, hgathered, hcalm⟩ := State.of_outcome_ok hok
  have hworkers : 0 < (Threads.ofMachine available).workersFor requested bundles.length :=
    Nat.lt_of_lt_of_le Nat.zero_lt_one (Nat.le_max_right _ _)
  have hchannel := ((h.sound (State.sound_start _ _ _ _ _ _)).drained (.inr hconsumer)).2
  obtain ⟨hqueue, hfinished⟩ := h.finished hworkers hcalm hgone hchannel
  obtain ⟨records, hrecords⟩ := exists_complete hfinished
  obtain ⟨hbundles, hcount, htotal⟩ := h.tally rfl hcalm
  rw [hgathered] at hbundles hcount htotal
  have hplaces : ∀ event ∈ taken history,
      event.place ∈ (Bundle.number bundles).map Bundle.place := by
    obtain ⟨⟨done, hledger⟩, -⟩ := h.progress hcalm
    intro event hevent
    obtain ⟨bundle, hbundle, heq⟩ := hledger.places event (List.mem_append_left _ hevent)
    exact List.mem_map.2 ⟨bundle, hbundle, heq⟩
  have hnodup : ((Bundle.number bundles).map Bundle.place).Nodup := by
    rw [map_place_number]
    exact List.nodup_range
  have hperm := eventsAt_perm hnodup hplaces
  obtain ⟨hlengths, hends⟩ := count_complete hrecords
  refine ⟨records, ?_, ?_, htotal, ?_, ?_, hqueue, fun step hstep => h.calm hcalm hstep⟩
  · have hzip : List.Forall₂ (fun source pairs => ∃ calls, calls.Sublist (history.map Step.call) ∧
        source.ReadOut (runContext context w) calls pairs)
        (bundles.zipIdx.map Prod.fst) records := by
      rw [List.forall₂_map_left_iff]
      exact (List.forall₂_map_left_iff.1 hrecords).imp fun _ _ hcomplete => hcomplete.1
    rwa [List.zipIdx_map_fst] at hzip
  · intro place
    exact map_snd_of_complete hrecords hplaces place
  · rw [hbundles, ← hperm.countP_eq, hends, ← List.length_map Bundle.place, map_place_number,
      List.length_range]
  · rw [hcount, ← (hperm.filterMap Event.record?).length_eq, hlengths]

/-! ## records in memory -/

/-- a library with the same records for every source, read until the flag is raised -/
def listed (pairs : List Pair) : Library ℚ Unit where
  name := "listed"
  Cursor := Flag × List Pair
  listing _ _ w := (.ok [], w)
  discover _ _ _ w := (.ok [.file ⟨"listed", 0, 0⟩], w)
  openCursor _ _ flag w := (.ok (flag, pairs), w)
  next cursor w :=
    if w.isRaised cursor.1 then ((.error Reader.interruptedBetween, cursor), w)
    else ((.ok cursor.2.head?, cursor.1, cursor.2.tail), w)
  progress _ := none
  close cursor w := ((.ok (), cursor), w)

def listedContext (pairs : List Pair) : Context ℚ Unit :=
  { Context.standard ℚ Unit ⟨0⟩ with formats := (∅ : Formats ℚ Unit).register (listed pairs) }

def listedSource : Source := .make "memory" "listed" (.record .long) .void

/-- no files, and one flag -/
def quietWorld : World Unit := ⟨.empty, Flags.empty.create.2, [], fun _ => 0, 0, ()⟩

omit [Ratio ρ] in
theorem State.outcome_ok {s : State ρ ε τ φ} {gathered : τ}
    (h : s.outcome?.bind Except.toOption = some gathered) :
    s.outcome? = some (.ok gathered) := by
  obtain ⟨outcome, houtcome, hok⟩ := Option.bind_eq_some_iff.1 h
  cases outcome with
  | error failure => cases hok
  | ok _ =>
    cases hok
    exact houtcome

/-- two bundles of two records, read by a machine of three threads -/
theorem Run.complete_listed :
    let pairs : List Pair := [⟨.long 0, .void⟩, ⟨.long 7, .void⟩]
    let context := listedContext pairs
    let bundles := [listedSource, listedSource]
    ∃ (s : State ℚ Unit (Summary × List Pair) Empty) (history : List (Step _ _ _ _)),
      Run (receiveRecords gatherRecord)
        (readState bundles context (.ofMachine 3) none [] quietWorld) history s ∧
      s.outcome? = some (.ok (⟨2, 4⟩, pairs.reverse ++ pairs.reverse)) ∧
      ∃ records : List (List Pair),
        List.Forall₂ (fun source pairs => ∃ calls, calls.Sublist (history.map Step.call) ∧
          source.ReadOut (runContext context quietWorld) calls pairs) bundles records ∧
        (∀ place, ((handed history).filter fun record => record.1 = place).map Prod.snd =
          records[place]?.getD []) := by
  intro pairs context bundles
  let start : State ℚ Unit (Summary × List Pair) Empty :=
    readState bundles context (.ofMachine 3) none [] quietWorld
  obtain ⟨history, hrun, -⟩ := exists_run (receiveRecords gatherRecord) 60 start
  have hok : (start.run (receiveRecords gatherRecord) 60).outcome? =
      some (.ok (⟨2, 4⟩, pairs.reverse ++ pairs.reverse)) := State.outcome_ok (by decide +kernel)
  obtain ⟨records, hread, hhanded, -⟩ := hrun.complete hok
  exact ⟨_, history, hrun, hok, records, hread, hhanded⟩

end Splittable.Pool
