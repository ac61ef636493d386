import Splittable.Pool.Read
import Splittable.Proofs.Pool.Moves
import Splittable.Proofs.Reader.Reading
import Mathlib.Data.List.Induction

/-!
# Runs

A run of a read: its steps, in any order that the read allows.

* `Step`, `Run`         one step with the states around it, and the steps from a state on;
* `Step.taken?`, `failure?`, `recorded?`, `refusal?`   what happened in a step;
* `handed`              the records handed on, each with the place of its bundle;
* `State.Sound`         what holds in every state of a run;
* `State.Sound.act_isSome`   a read that is not over can go on;
* `State.Refused`       the consumer refused an event, and that stays so;
* `State.Trouble`       something went wrong, and a read that is in trouble stays so.
-/

namespace Splittable

def Event.place : Event → Nat
  | .record place _ => place
  | .finished place _ => place

def Event.record? : Event → Option (Nat × Pair)
  | .record place pair => some (place, pair)
  | .finished _ _ => none

namespace Pool

variable {ρ ε τ φ : Type}

structure Step (ρ ε τ φ : Type) where
  action : Action
  before : State ρ ε τ φ
  after : State ρ ε τ φ

namespace Step

def call (step : Step ρ ε τ φ) : Call ε := ⟨step.before.shared.world, step.after.shared.world⟩

/-- the event that the consumer took -/
def taken? (step : Step ρ ε τ φ) : Option Event :=
  match step.action, step.before.consumer with
  | .consumer, .receiving => step.before.shared.channel.head?
  | _, _ => none

/-- the failure with which a worker gave up its bundle -/
def failure? (step : Step ρ ε τ φ) : Option BundleFailure :=
  match step.action with
  | .worker i =>
    match step.after.workers[i]? with
    | some (.failing failure) => some failure
    | _ => none
  | _ => none

/-- the failure that a worker recorded -/
def recorded? (step : Step ρ ε τ φ) : Option BundleFailure :=
  match step.action with
  | .worker i =>
    match step.before.workers[i]? with
    | some (.failing failure) => some failure
    | _ => none
  | _ => none

/-- the reason for which the consumer refused an event -/
def refusal? (step : Step ρ ε τ φ) : Option φ :=
  match step.before.consumer, step.after.consumer with
  | .receiving, .refusing reason => some reason
  | _, _ => none

end Step

/-- the events that the consumer took -/
def taken (history : List (Step ρ ε τ φ)) : List Event := history.filterMap Step.taken?

/-- the records handed on, each with the place of its bundle -/
def handed (history : List (Step ρ ε τ φ)) : List (Nat × Pair) :=
  (taken history).filterMap Event.record?

def recorded (history : List (Step ρ ε τ φ)) : List BundleFailure :=
  history.filterMap Step.recorded?

variable [Ratio ρ] {receive : Receive τ φ} {start s s' s'' : State ρ ε τ φ}
  {history more : List (Step ρ ε τ φ)} {action : Action}

/-- The steps from a state on, in one of the orders that are possible, and where they lead. -/
inductive Run (receive : Receive τ φ) (start : State ρ ε τ φ) :
    List (Step ρ ε τ φ) → State ρ ε τ φ → Prop
  | start : Run receive start [] start
  | step {history : List (Step ρ ε τ φ)} {s s' : State ρ ε τ φ} {action : Action} :
      Run receive start history s → s.act receive action = some s' →
      Run receive start (history ++ [⟨action, s, s'⟩]) s'

theorem Run.trans (h : Run receive start history s) (h' : Run receive s more s') :
    Run receive start (history ++ more) s' := by
  induction h' with
  | start =>
    rw [List.append_nil]
    exact h
  | step _ hact ih =>
    rw [← List.append_assoc]
    exact .step ih hact

theorem Run.split {step : Step ρ ε τ φ} (h : Run receive start (history ++ step :: more) s) :
    Run receive start history step.before ∧
      step.before.act receive step.action = some step.after ∧ Run receive step.after more s := by
  induction more using List.reverseRecOn generalizing s with
  | nil =>
    generalize hall : history ++ [step] = all at h
    cases h with
    | start => simp at hall
    | step hrun hact =>
      obtain ⟨rfl, hstep⟩ := List.append_inj' hall rfl
      cases hstep
      exact ⟨hrun, hact, .start⟩
  | append_singleton more last ih =>
    generalize hall : history ++ step :: (more ++ [last]) = all at h
    cases h with
    | start => simp at hall
    | step hrun hact =>
      rw [← List.cons_append, ← List.append_assoc] at hall
      obtain ⟨rfl, hlast⟩ := List.append_inj' hall rfl
      cases hlast
      obtain ⟨hbefore, hstep, hafter⟩ := ih hrun
      exact ⟨hbefore, hstep, .step hafter hact⟩

theorem exists_of_stepWorker {i count : Nat} (h : s.stepWorker receive i count = some s') :
    ∃ action, action ≠ .interrupt ∧ s.act receive action = some s' := by
  induction count generalizing i with
  | zero => cases h
  | succ count ih =>
    unfold State.stepWorker at h
    split at h
    · rename_i hact
      exact ⟨.worker i, fun h => Action.noConfusion h, hact.trans h⟩
    · exact ih h

theorem exists_of_next (h : s.next? receive = some s') :
    ∃ action, action ≠ .interrupt ∧ s.act receive action = some s' := by
  unfold State.next? at h
  split at h
  · rename_i hact
    exact ⟨.consumer, fun h => Action.noConfusion h, hact.trans h⟩
  · exact exists_of_stepWorker h

/-- the order in which a read is carried out is one of those possible, without the caller -/
theorem exists_run (receive : Receive τ φ) (fuel : Nat) (s : State ρ ε τ φ) :
    ∃ history, Run receive s history (s.run receive fuel) ∧
      ∀ step ∈ history, step.action ≠ .interrupt := by
  induction fuel generalizing s with
  | zero => exact ⟨[], .start, fun _ hstep => by cases hstep⟩
  | succ fuel ih =>
    unfold State.run
    split
    · exact ⟨[], .start, fun _ hstep => by cases hstep⟩
    · rename_i s' hnext
      obtain ⟨action, hne, hact⟩ := exists_of_next hnext
      obtain ⟨history, hrun, hcaller⟩ := ih s'
      refine ⟨_, (Run.step .start hact).trans hrun, fun step hstep => ?_⟩
      rcases List.mem_append.1 hstep with hfirst | hlater
      · cases List.mem_singleton.1 hfirst
        exact hne
      · exact hcaller step hlater

/-! ## what holds in every state -/

namespace State

/-- What holds in every state of a run. -/
structure Sound (s : State ρ ε τ φ) : Prop where
  /-- a worker records a failure before it stops the others -/
  recorded : Worker.stopping ∈ s.workers → s.shared.firstFailure.isSome
  listening : s.shared.listening = false ↔ ∃ reason, s.consumer = .waiting reason
  /-- the consumer leaves of its own accord when there is nothing more to come -/
  drained : s.consumer = .leaving none ∨ s.consumer = .waiting none →
    s.allGone = true ∧ s.shared.channel = []

omit [Ratio ρ] in
theorem sound_start (bundles : List Source) (context : Context ρ ε) (workers capacity : Nat)
    (gathered : τ) (w : World ε) :
    (State.start bundles context workers capacity gathered w : State ρ ε τ φ).Sound := by
  refine ⟨fun h => ?_, ⟨fun h => Bool.noConfusion h, fun ⟨_, h⟩ => by cases h⟩, ?_⟩
  · cases List.eq_of_mem_replicate h
  · rintro (h | h)
    · cases h
    · cases h

omit [Ratio ρ] in
theorem mem_replaced {before after : List (Worker ρ ε)} {worker worker' other : Worker ρ ε}
    (h : other ∈ before ++ worker' :: after) :
    other = worker' ∨ other ∈ before ++ worker :: after := by
  rcases List.mem_append.1 h with h | h
  · exact .inr (List.mem_append_left _ h)
  · rcases List.mem_cons.1 h with h | h
    · exact .inl h
    · exact .inr (List.mem_append_right _ (List.mem_cons_of_mem _ h))

omit [Ratio ρ] in
theorem allGone_iff : s.allGone = true ↔ ∀ worker ∈ s.workers, worker = .gone := by
  unfold allGone
  rw [List.all_eq_true]
  refine forall₂_congr fun worker _ => ⟨fun h => ?_, fun h => by rw [h]; rfl⟩
  cases worker with
  | gone => rfl
  | _ => cases h

theorem Acts.keeps (hact : Acts receive s action s') :
    s'.shared.context = s.shared.context ∧ s'.shared.capacity = s.shared.capacity ∧
      s'.caller = s.caller ∧ s'.workers.length = s.workers.length := by
  cases hact with
  | interrupt => exact ⟨rfl, rfl, rfl, rfl⟩
  | consumer hconsumes => cases hconsumes <;> exact ⟨rfl, rfl, rfl, rfl⟩
  | worker hworkers hmoves =>
    refine ⟨hmoves.context, hmoves.capacity, rfl, ?_⟩
    rw [hworkers, List.length_append, List.length_append, List.length_cons, List.length_cons]

theorem Sound.act (h : s.Sound) (hact : Acts receive s action s') : s'.Sound := by
  obtain ⟨hrecorded, hlistening, hdrained⟩ := h
  cases hact with
  | interrupt => exact ⟨hrecorded, hlistening, hdrained⟩
  | consumer hconsumes =>
    cases hconsumes with
    | received hconsumer hchannel _ =>
      refine ⟨hrecorded, hlistening, fun h => ?_⟩
      change s.consumer = _ ∨ s.consumer = _ at h
      rw [hconsumer] at h
      rcases h with h | h
      · cases h
      · cases h
    | refused hconsumer _ _ =>
      refine ⟨hrecorded, ?_, fun h => ?_⟩
      · show s.shared.listening = false ↔ _
        rw [hlistening, hconsumer]
        simp
      · rcases h with h | h
        · cases h
        · cases h
    | drained hconsumer hchannel hgone =>
      refine ⟨hrecorded, ?_, fun _ => ⟨hgone, hchannel⟩⟩
      show s.shared.listening = false ↔ _
      rw [hlistening, hconsumer]
      simp
    | stopped hconsumer =>
      refine ⟨hrecorded, ?_, fun h => ?_⟩
      · show s.shared.listening = false ↔ _
        rw [hlistening, hconsumer]
        simp
      · rcases h with h | h
        · cases h
        · cases h
    | left hconsumer =>
      refine ⟨hrecorded, ⟨fun _ => ⟨_, rfl⟩, fun _ => rfl⟩, fun h => ?_⟩
      rcases h with h | h
      · cases h
      · cases h
        exact hdrained (.inl hconsumer)
  | worker hworkers hmoves =>
    rw [hworkers] at hrecorded
    refine ⟨fun h => ?_, ?_, fun h => ?_⟩
    · rcases mem_replaced h with rfl | hmem
      · exact hmoves.recorded_of_stopping
      · obtain ⟨failure, hfailure⟩ := Option.isSome_iff_exists.1 (hrecorded hmem)
        rw [hmoves.firstFailure hfailure]
        rfl
    · show _ = false ↔ ∃ reason, s.consumer = _
      rw [hmoves.listening]
      exact hlistening
    · have hall := allGone_iff.1 (hdrained h).1
      rw [hworkers] at hall
      exact absurd (hall _ (by simp)) hmoves.ne_gone

omit [Ratio ρ] in
theorem exists_of_not_allGone (h : s.allGone = false) : ∃ worker ∈ s.workers, worker ≠ .gone := by
  by_contra hnone
  have hall : s.allGone = true := allGone_iff.2 fun worker hmem => by
    by_contra hne
    exact hnone ⟨worker, hmem, hne⟩
  rw [h] at hall
  cases hall

theorem act_worker_isSome (receive : Receive τ φ) (hgone : s.allGone = false)
    (hroom : s.shared.listening = true → s.shared.hasRoom = true) :
    ∃ i, (s.act receive (.worker i)).isSome := by
  obtain ⟨worker, hmem, hworker⟩ := exists_of_not_allGone hgone
  obtain ⟨i, hi, hget⟩ := List.getElem_of_mem hmem
  have hsome : s.workers[i]? = some worker := by rw [List.getElem?_eq_getElem hi, hget]
  cases hstep : worker.step s.shared with
  | none =>
    rcases Worker.of_step_eq_none hstep with hgone | ⟨hlistening, hfull⟩
    · exact absurd hgone hworker
    · rw [hroom hlistening] at hfull
      cases hfull
  | some next =>
    refine ⟨i, ?_⟩
    unfold State.act
    dsimp only
    rw [hsome]
    dsimp only
    rw [hstep]
    rfl

/-- **A read that is not over can go on**, without the caller. -/
theorem Sound.act_isSome (h : s.Sound) (receive : Receive τ φ) (hover : s.isOver = false) :
    ∃ action, action ≠ .interrupt ∧ (s.act receive action).isSome := by
  have hworker : s.allGone = false → (s.shared.listening = true → s.shared.hasRoom = true) →
      ∃ action, action ≠ .interrupt ∧ (s.act receive action).isSome := by
    intro hgone hroom
    obtain ⟨i, hi⟩ := act_worker_isSome receive hgone hroom
    exact ⟨.worker i, fun h => Action.noConfusion h, hi⟩
  have hconsumer : (s.consume receive).isSome →
      ∃ action, action ≠ .interrupt ∧ (s.act receive action).isSome :=
    fun h => ⟨.consumer, fun h => Action.noConfusion h, h⟩
  unfold isOver at hover
  cases hat : s.consumer with
  | receiving =>
    unfold consume at hconsumer
    rw [hat] at hconsumer
    cases hchannel : s.shared.channel with
    | nil =>
      cases hgone : s.allGone with
      | true =>
        rw [hchannel, hgone] at hconsumer
        exact hconsumer rfl
      | false =>
        refine hworker hgone fun _ => ?_
        unfold Shared.hasRoom
        rw [hchannel]
        exact decide_eq_true (Nat.lt_of_lt_of_le Nat.zero_lt_one (Nat.le_max_right _ _))
    | cons event channel =>
      rw [hchannel] at hconsumer
      apply hconsumer
      dsimp only
      rcases receive event s.gathered with ⟨reason | _, gathered⟩
      · rfl
      · rfl
  | refusing reason =>
    unfold consume at hconsumer
    rw [hat] at hconsumer
    exact hconsumer rfl
  | leaving reason =>
    unfold consume at hconsumer
    rw [hat] at hconsumer
    exact hconsumer rfl
  | waiting reason =>
    rw [hat] at hover
    have hdeaf := h.listening.2 ⟨reason, hat⟩
    refine hworker hover fun hlistening => ?_
    rw [hdeaf] at hlistening
    cases hlistening

/-! ## refusals and trouble -/

theorem Acts.firstFailure (hact : Acts receive s action s') {failure : BundleFailure}
    (h : s.shared.firstFailure = some failure) : s'.shared.firstFailure = some failure := by
  cases hact with
  | interrupt => exact h
  | consumer hconsumes => cases hconsumes <;> exact h
  | worker _ hmoves => exact hmoves.firstFailure h

/-- The consumer refused an event for this reason. -/
def Refused (s : State ρ ε τ φ) (reason : φ) : Prop :=
  s.consumer = .refusing reason ∨ s.consumer = .leaving (some reason) ∨
    s.consumer = .waiting (some reason)

/-- A worker failed, or the consumer refused an event. -/
def Trouble (s : State ρ ε τ φ) : Prop :=
  s.shared.firstFailure.isSome ∨ (∃ failure, Worker.failing failure ∈ s.workers) ∨
    ∃ reason, s.Refused reason

/-- **A refusal stays, and so does its reason.** -/
theorem Refused.act {reason : φ} (h : s.Refused reason) (hact : Acts receive s action s') :
    s'.Refused reason := by
  cases hact with
  | interrupt => exact h
  | worker _ _ => exact h
  | consumer hconsumes =>
    unfold Refused at h
    cases hconsumes with
    | received hconsumer _ _ => simp [hconsumer] at h
    | refused hconsumer _ _ => simp [hconsumer] at h
    | drained hconsumer _ _ => simp [hconsumer] at h
    | stopped hconsumer =>
      rw [hconsumer] at h
      rcases h with h | h | h
      · cases h
        exact .inr (.inl rfl)
      · cases h
      · cases h
    | left hconsumer =>
      rw [hconsumer] at h
      rcases h with h | h | h
      · cases h
      · cases h
        exact .inr (.inr rfl)
      · cases h

/-- **A read that is in trouble stays in trouble.** -/
theorem Trouble.act (h : s.Trouble) (hact : Acts receive s action s') : s'.Trouble := by
  rcases h with hfirst | hfailing | ⟨reason, hrefused⟩
  · left
    obtain ⟨failure, hfailure⟩ := Option.isSome_iff_exists.1 hfirst
    rw [hact.firstFailure hfailure]
    rfl
  · cases hact with
    | interrupt => exact .inr (.inl hfailing)
    | consumer hconsumes =>
      right
      left
      cases hconsumes <;> exact hfailing
    | worker hworkers hmoves =>
      obtain ⟨failure, hfailing⟩ := hfailing
      rw [hworkers] at hfailing
      rcases mem_replaced hfailing with rfl | hmem
      · left
        cases hmoves with
        | recorded =>
          show (Option.or _ _).isSome = true
          cases s.shared.firstFailure with
          | none => rfl
          | some _ => rfl
      · exact .inr (.inl ⟨failure, hmem⟩)
  · exact .inr (.inr ⟨reason, hrefused.act hact⟩)

end State

/-! ## along a run -/

theorem Run.stable {P : State ρ ε τ φ → Prop} (h : Run receive start history s)
    (hkeep : ∀ {s s' action}, P s → State.Acts receive s action s' → P s') (hstart : P start) :
    P s := by
  induction h with
  | start => exact hstart
  | step _ hact ih => exact hkeep ih (State.acts_of_act hact)

/-- what a run has not come to was not there before any of its steps -/
theorem Run.not_before {P : State ρ ε τ φ → Prop} (h : Run receive start history s)
    (hkeep : ∀ {s s' action}, P s → State.Acts receive s action s' → P s') (hnot : ¬ P s)
    {step : Step ρ ε τ φ} (hstep : step ∈ history) : ¬ P step.before ∧ ¬ P step.after := by
  obtain ⟨before, after, rfl⟩ := List.append_of_mem hstep
  obtain ⟨-, hact, hrest⟩ := h.split
  have hafter : ¬ P step.after := fun hP => hnot (hrest.stable hkeep hP)
  exact ⟨fun hP => hafter (hkeep hP (State.acts_of_act hact)), hafter⟩

theorem Run.sound (h : Run receive start history s) (hstart : start.Sound) : s.Sound :=
  h.stable (fun hsound hacts => hsound.act hacts) hstart

theorem Run.keeps (h : Run receive start history s) :
    s.shared.context = start.shared.context ∧ s.shared.capacity = start.shared.capacity ∧
      s.caller = start.caller ∧ s.workers.length = start.workers.length := by
  induction h with
  | start => exact ⟨rfl, rfl, rfl, rfl⟩
  | step _ hact ih =>
    obtain ⟨hcontext, hcapacity, hcaller, hlength⟩ := (State.acts_of_act hact).keeps
    exact ⟨hcontext.trans ih.1, hcapacity.trans ih.2.1, hcaller.trans ih.2.2.1,
      hlength.trans ih.2.2.2⟩

theorem Run.refused {reason : φ} (h : Run receive start history s) (hstart : start.Refused reason) :
    s.Refused reason :=
  h.stable (P := fun s => s.Refused reason) (fun hrefused hacts => hrefused.act hacts) hstart

theorem Run.trouble (h : Run receive start history s) (hstart : start.Trouble) : s.Trouble :=
  h.stable (fun htrouble hacts => htrouble.act hacts) hstart

omit [Ratio ρ] in
theorem State.of_outcome_ok {gathered : τ} (h : s.outcome? = some (.ok gathered)) :
    s.consumer = .waiting none ∧ s.allGone = true ∧ s.gathered = gathered ∧ ¬ s.Trouble := by
  unfold outcome? at h
  split at h
  · rename_i reason hconsumer
    split at h
    · rename_i hgone
      split at h
      · cases h
      · cases h
      · rename_i hfirst
        cases h
        refine ⟨hconsumer, hgone, rfl, ?_⟩
        rintro (htrouble | ⟨failure, htrouble⟩ | ⟨reason, htrouble⟩)
        · rw [hfirst] at htrouble
          cases htrouble
        · cases allGone_iff.1 hgone _ htrouble
        · simp [Refused, hconsumer] at htrouble
    · cases h
  · cases h

end Pool

end Splittable
