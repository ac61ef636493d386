import Splittable.Proofs.Pool.Run
import Mathlib.Data.List.Nodup

/-!
# Where every bundle is

As long as nothing goes wrong, each bundle waits in the queue, is in the hands of one worker, or is
read to its end, and what was sent for it is what its reader has answered so far.

* `eventsAt`        the events that belong to one bundle;
* `Worker.Fits`     what was sent for the bundle in a worker's hands;
* `Finished`        a bundle that is read to its end;
* `Ledger`          where every bundle is;
* `Ledger.took`, `moved`, `sent`, `finished`   what the steps of a worker make of it.
-/

namespace Splittable.Pool

variable {ρ ε : Type}

/-- the events of the bundle at a place -/
def eventsAt (events : List Event) (place : Nat) : List Event :=
  events.filter fun event => event.place = place

theorem eventsAt_append_self {events : List Event} {event : Event} :
    eventsAt (events ++ [event]) event.place = eventsAt events event.place ++ [event] := by
  unfold eventsAt
  rw [List.filter_append, List.filter_cons_of_pos (by simp), List.filter_nil]

theorem eventsAt_append_ne {events : List Event} {event : Event} {place : Nat}
    (h : event.place ≠ place) : eventsAt (events ++ [event]) place = eventsAt events place := by
  unfold eventsAt
  rw [List.filter_append, List.filter_cons_of_neg (by simpa using h), List.filter_nil,
    List.append_nil]

/-- the bundle in a worker's hands -/
def Worker.bundle? : Worker ρ ε → Option Bundle
  | .checking bundle => some bundle
  | .starting bundle => some bundle
  | .sending bundle _ _ _ => some bundle
  | .advancing bundle _ _ => some bundle
  | .closing bundle _ _ _ => some bundle
  | .reporting bundle _ => some bundle
  | _ => none

section
variable {before after : List (Worker ρ ε)} {worker : Worker ρ ε} {bundle : Bundle}

/-- the bundles in the hands of workers -/
def inHand (workers : List (Worker ρ ε)) : List Bundle := workers.filterMap Worker.bundle?

theorem inHand_of_some (h : worker.bundle? = some bundle) :
    inHand (before ++ worker :: after) = inHand before ++ bundle :: inHand after := by
  unfold inHand
  rw [List.filterMap_append, List.filterMap_cons_some h]

theorem inHand_of_none (h : worker.bundle? = none) :
    inHand (before ++ worker :: after) = inHand before ++ inHand after := by
  unfold inHand
  rw [List.filterMap_append, List.filterMap_cons_none h]

theorem hand_perm (bundle : Bundle) (queue before after done : List Bundle) :
    (queue ++ ((before ++ bundle :: after) ++ done)).Perm
      (bundle :: (queue ++ (before ++ after ++ done))) := by
  rw [List.append_assoc before, List.append_assoc before, List.cons_append,
    ← List.append_assoc queue, ← List.append_assoc queue]
  exact List.perm_middle

end

variable [Ratio ρ]

/-- Records of a bundle were sent, in order, and no end of it. -/
structure Sent (events : List Event) (bundle : Bundle) (sent : Nat) (pairs : List Pair) : Prop where
  events : eventsAt events bundle.place = pairs.map (Event.record bundle.place)
  length : pairs.length = sent

/-- A worker has sent what its reader has answered.  The reader was called among `calls`. -/
def Worker.Fits (context : Context ρ ε) (calls : List (Call ε)) (events : List Event) :
    Worker ρ ε → Prop
  | .idle => True
  | .checking bundle => eventsAt events bundle.place = []
  | .starting bundle => eventsAt events bundle.place = []
  | .sending bundle sent pair any => ∃ made pairs, made.Sublist calls ∧
      bundle.source.ReadTo context made (pairs ++ [pair]) any ∧ Sent events bundle sent pairs
  | .advancing bundle sent any => ∃ made pairs, made.Sublist calls ∧
      bundle.source.ReadTo context made pairs any ∧ Sent events bundle sent pairs
  | .closing bundle sent report _ => report = true ∧ ∃ made pairs, made.Sublist calls ∧
      bundle.source.ReadOut context made pairs ∧ Sent events bundle sent pairs
  | .reporting bundle sent => ∃ made pairs, made.Sublist calls ∧
      bundle.source.ReadOut context made pairs ∧ Sent events bundle sent pairs
  | .failing _ => False
  | .stopping => False
  | .gone => True

/-- All records of a bundle were sent, in order, and then its end. -/
def Finished (context : Context ρ ε) (calls : List (Call ε)) (events : List Event)
    (bundle : Bundle) : Prop :=
  ∃ made pairs, made.Sublist calls ∧ bundle.source.ReadOut context made pairs ∧
    eventsAt events bundle.place =
      pairs.map (Event.record bundle.place) ++ [.finished bundle.place pairs.length]

section
variable {context : Context ρ ε} {calls calls' : List (Call ε)} {events events' : List Event}

theorem Worker.Fits.mono {worker : Worker ρ ε} (h : worker.Fits context calls events)
    (hcalls : calls.Sublist calls') (hevents : ∀ bundle, worker.bundle? = some bundle →
      eventsAt events' bundle.place = eventsAt events bundle.place) :
    worker.Fits context calls' events' := by
  have hsent : ∀ {bundle sent pairs}, worker.bundle? = some bundle →
      Sent events bundle sent pairs → Sent events' bundle sent pairs :=
    fun hbundle hsent => ⟨(hevents _ hbundle).trans hsent.events, hsent.length⟩
  cases worker with
  | checking bundle => exact (hevents bundle rfl).trans h
  | starting bundle => exact (hevents bundle rfl).trans h
  | sending bundle sent pair any =>
    obtain ⟨made, pairs, hmade, hread, h⟩ := h
    exact ⟨made, pairs, hmade.trans hcalls, hread, hsent rfl h⟩
  | advancing bundle sent any =>
    obtain ⟨made, pairs, hmade, hread, h⟩ := h
    exact ⟨made, pairs, hmade.trans hcalls, hread, hsent rfl h⟩
  | closing bundle sent report any =>
    obtain ⟨hreport, made, pairs, hmade, hread, h⟩ := h
    exact ⟨hreport, made, pairs, hmade.trans hcalls, hread, hsent rfl h⟩
  | reporting bundle sent =>
    obtain ⟨made, pairs, hmade, hread, h⟩ := h
    exact ⟨made, pairs, hmade.trans hcalls, hread, hsent rfl h⟩
  | _ => exact h

theorem Finished.mono {bundle : Bundle} (h : Finished context calls events bundle)
    (hcalls : calls.Sublist calls')
    (hevents : eventsAt events' bundle.place = eventsAt events bundle.place) :
    Finished context calls' events' bundle := by
  obtain ⟨made, pairs, hmade, hread, h⟩ := h
  exact ⟨made, pairs, hmade.trans hcalls, hread, hevents.trans h⟩

end

/-- Where every bundle is. -/
structure Ledger (context : Context ρ ε) (bundles : List Bundle) (calls : List (Call ε))
    (events : List Event) (queue : List Bundle) (workers : List (Worker ρ ε))
    (done : List Bundle) : Prop where
  all : (queue ++ (inHand workers ++ done)).Perm bundles
  waiting : ∀ bundle ∈ queue, eventsAt events bundle.place = []
  working : ∀ worker ∈ workers, worker.Fits context calls events
  done : ∀ bundle ∈ done, Finished context calls events bundle
  places : ∀ event ∈ events, ∃ bundle ∈ bundles, bundle.place = event.place

namespace Ledger

variable {context : Context ρ ε} {bundles queue done : List Bundle} {calls calls' : List (Call ε)}
  {events : List Event} {workers before after : List (Worker ρ ε)} {worker worker' : Worker ρ ε}
  {bundle : Bundle} {event : Event}

theorem later (h : Ledger context bundles calls events queue workers done)
    (hcalls : calls.Sublist calls') : Ledger context bundles calls' events queue workers done where
  all := h.all
  waiting := h.waiting
  working := fun worker hworker => (h.working worker hworker).mono hcalls fun _ _ => rfl
  done := fun bundle hbundle => (h.done bundle hbundle).mono hcalls rfl
  places := h.places

theorem fits (h : Ledger context bundles calls events queue (before ++ worker :: after) done) :
    worker.Fits context calls events :=
  h.working worker (by simp)

/-- a worker goes on with what it has in hand -/
theorem moved (h : Ledger context bundles calls events queue (before ++ worker :: after) done)
    (hcalls : calls.Sublist calls') (hbundle : worker'.bundle? = worker.bundle?)
    (hfits : worker'.Fits context calls' events) :
    Ledger context bundles calls' events queue (before ++ worker' :: after) done where
  all := by
    have hhand : inHand (before ++ worker' :: after) = inHand (before ++ worker :: after) := by
      unfold inHand
      rw [List.filterMap_append, List.filterMap_append, List.filterMap_cons, List.filterMap_cons,
        hbundle]
    rw [hhand]
    exact h.all
  waiting := h.waiting
  working := fun other hother => by
    rcases State.mem_replaced hother with rfl | hmem
    · exact hfits
    · exact (h.working other hmem).mono hcalls fun _ _ => rfl
  done := fun bundle hbundle => (h.done bundle hbundle).mono hcalls rfl
  places := h.places

/-- a worker takes the first bundle of the queue -/
theorem took
    (h : Ledger context bundles calls events (bundle :: queue) (before ++ .idle :: after) done)
    (hcalls : calls.Sublist calls') :
    Ledger context bundles calls' events queue (before ++ .checking bundle :: after) done where
  all := by
    have hall := h.all
    rw [inHand_of_none rfl] at hall
    rw [inHand_of_some (show (Worker.checking bundle : Worker ρ ε).bundle? = some bundle from rfl)]
    exact (hand_perm bundle queue (inHand before) (inHand after) done).trans hall
  waiting := fun other hother => h.waiting other (List.mem_cons_of_mem _ hother)
  working := fun other hother => by
    rcases State.mem_replaced hother with rfl | hmem
    · exact h.waiting bundle List.mem_cons_self
    · exact (h.working other hmem).mono hcalls fun _ _ => rfl
  done := fun bundle hbundle => (h.done bundle hbundle).mono hcalls rfl
  places := h.places

section
variable (h : Ledger context bundles calls events queue (before ++ worker :: after) done)
  (hbundle : worker.bundle? = some bundle)

include h hbundle

theorem mem_of_bundle : bundle ∈ bundles := by
  have hall := h.all
  rw [inHand_of_some hbundle] at hall
  exact hall.subset (by simp)

theorem place_ne (hnodup : (bundles.map Bundle.place).Nodup) {other : Bundle}
    (hother : other ∈ queue ++ (inHand before ++ inHand after ++ done)) :
    bundle.place ≠ other.place := by
  have hall := h.all
  rw [inHand_of_some hbundle] at hall
  have hplaces := (((hand_perm bundle queue _ _ done).symm.trans hall).map
    Bundle.place).nodup_iff.2 hnodup
  rw [List.map_cons, List.nodup_cons] at hplaces
  intro heq
  exact hplaces.1 (List.mem_map.2 ⟨other, hother, heq.symm⟩)

variable (hnodup : (bundles.map Bundle.place).Nodup) (hplace : event.place = bundle.place)
  (hcalls : calls.Sublist calls')

include hnodup hplace

theorem eventsAt_other {other : Bundle}
    (hother : other ∈ queue ++ (inHand before ++ inHand after ++ done)) :
    eventsAt (events ++ [event]) other.place = eventsAt events other.place := by
  refine eventsAt_append_ne ?_
  rw [hplace]
  exact h.place_ne hbundle hnodup hother

omit hnodup in
theorem places_append {other : Event} (hother : other ∈ events ++ [event]) :
    ∃ bundle ∈ bundles, bundle.place = other.place := by
  rcases List.mem_append.1 hother with hother | hother
  · exact h.places other hother
  · rw [List.mem_singleton] at hother
    subst hother
    exact ⟨bundle, h.mem_of_bundle hbundle, hplace.symm⟩

include hcalls

theorem fits_other (hworker' : worker'.Fits context calls' (events ++ [event])) :
    ∀ other ∈ before ++ worker' :: after, other.Fits context calls' (events ++ [event]) := by
  have hkeeps : ∀ other ∈ before ++ worker :: after,
      (∀ held, other.bundle? = some held → held ∈ inHand before ++ inHand after) →
      other.Fits context calls' (events ++ [event]) := fun other hmem hheld =>
    (h.working other hmem).mono hcalls fun held hsome => h.eventsAt_other hbundle hnodup hplace
      (List.mem_append_right _ (List.mem_append_left _ (hheld held hsome)))
  intro other hother
  rcases List.mem_append.1 hother with hmem | hmem
  · refine hkeeps other (List.mem_append_left _ hmem) fun held hsome => ?_
    exact List.mem_append_left _ (List.mem_filterMap.2 ⟨other, hmem, hsome⟩)
  · rcases List.mem_cons.1 hmem with rfl | hmem
    · exact hworker'
    · refine hkeeps other (List.mem_append_right _ (List.mem_cons_of_mem _ hmem))
        fun held hsome => ?_
      exact List.mem_append_right _ (List.mem_filterMap.2 ⟨other, hmem, hsome⟩)

/-- a worker sends a record of the bundle in its hands -/
theorem sent (hbundle' : worker'.bundle? = some bundle)
    (hfits : worker'.Fits context calls' (events ++ [event])) :
    Ledger context bundles calls' (events ++ [event]) queue (before ++ worker' :: after) done where
  all := by
    have hall := h.all
    rw [inHand_of_some hbundle] at hall
    rw [inHand_of_some hbundle']
    exact hall
  waiting := fun other hother =>
    (h.eventsAt_other hbundle hnodup hplace (List.mem_append_left _ hother)).trans
      (h.waiting other hother)
  working := h.fits_other hbundle hnodup hplace hcalls hfits
  done := fun other hother => (h.done other hother).mono hcalls
    (h.eventsAt_other hbundle hnodup hplace
      (List.mem_append_right _ (List.mem_append_right _ hother)))
  places := fun _ hother => h.places_append hbundle hplace hother

/-- a worker sends the end of the bundle in its hands -/
theorem finished (hbundle' : worker'.bundle? = none)
    (hfits : worker'.Fits context calls' (events ++ [event]))
    (hdone : Finished context calls' (events ++ [event]) bundle) :
    Ledger context bundles calls' (events ++ [event]) queue (before ++ worker' :: after)
      (bundle :: done) where
  all := by
    have hall := h.all
    rw [inHand_of_some hbundle] at hall
    rw [inHand_of_none hbundle']
    refine List.Perm.trans ?_ hall
    refine List.Perm.trans ?_ (hand_perm bundle queue (inHand before) (inHand after) done).symm
    rw [← List.append_assoc]
    refine List.perm_middle.trans ?_
    rw [List.append_assoc]
  waiting := fun other hother =>
    (h.eventsAt_other hbundle hnodup hplace (List.mem_append_left _ hother)).trans
      (h.waiting other hother)
  working := h.fits_other hbundle hnodup hplace hcalls hfits
  done := fun other hother => by
    rcases List.mem_cons.1 hother with rfl | hother
    · exact hdone
    · exact (h.done other hother).mono hcalls (h.eventsAt_other hbundle hnodup hplace
        (List.mem_append_right _ (List.mem_append_right _ hother)))
  places := fun _ hother => h.places_append hbundle hplace hother

end

end Ledger

end Splittable.Pool
