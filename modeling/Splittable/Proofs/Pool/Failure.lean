import Splittable.Proofs.Pool.Complete
import Splittable.Proofs.Pool.Ends

/-!
# Failures on record

A worker that fails records its failure and only then raises the flag of the read, so that the
first failure on record is one that no other failure brought about.

* `Worker.failure?`      the failure that a worker is about to record;
* `Run.firstFailure`     the slot keeps the first failure recorded;
* `Run.blame`            a failure on record was met before any other was recorded.
-/

namespace Splittable.Pool

variable {ρ ε τ φ : Type}

namespace Worker

/-- the failure that a worker is about to record -/
def failure? : Worker ρ ε → Option BundleFailure
  | .failing failure => some failure
  | _ => none

theorem eq_failing {worker : Worker ρ ε} {failure : BundleFailure}
    (h : worker.failure? = some failure) : worker = .failing failure := by
  cases worker with
  | failing other =>
    cases h
    rfl
  | _ => cases h

/-- the bundle that a worker is at, or that it failed with -/
def concerns? (worker : Worker ρ ε) : Option Bundle :=
  worker.bundle?.or (worker.failure?.map BundleFailure.bundle)

variable [Ratio ρ] {worker worker' : Worker ρ ε} {shared shared' : Shared ρ ε}

/-- **A worker keeps the failure on record, or records its own.** -/
theorem Moves.firstFailure_eq (h : Moves shared worker worker' shared') :
    shared'.firstFailure = shared.firstFailure.or worker.failure? := by
  cases h with
  | recorded => rfl
  | _ => exact (Option.or_none).symm

theorem Moves.queue_subset (h : Moves shared worker worker' shared') :
    shared'.queue ⊆ shared.queue := by
  cases h with
  | took hqueue =>
    rw [hqueue]
    exact List.subset_cons_self _ _
  | _ => exact List.Subset.refl _

theorem Moves.concerns (h : Moves shared worker worker' shared') {bundle : Bundle}
    (hbundle : worker'.concerns? = some bundle) :
    worker.concerns? = some bundle ∨ bundle ∈ shared.queue := by
  cases h with
  | took hqueue =>
    cases hbundle
    rw [hqueue]
    exact .inr List.mem_cons_self
  | @closed _ _ report _ _ _ _ =>
    cases report with
    | false => cases hbundle
    | true => exact .inl hbundle
  | drained _ => cases hbundle
  | gaveUp _ => cases hbundle
  | unreported _ => cases hbundle
  | reported _ _ => cases hbundle
  | recorded => cases hbundle
  | stopped => cases hbundle
  | _ => exact .inl hbundle

end Worker

namespace Step

variable {s s' : State ρ ε τ φ} {before after : List (Worker ρ ε)} {worker : Worker ρ ε}

theorem recorded?_worker (h : s.workers = before ++ worker :: after) :
    (⟨.worker before.length, s, s'⟩ : Step ρ ε τ φ).recorded? = worker.failure? := by
  have hget : s.workers[before.length]? = some worker := by
    rw [h, List.getElem?_append_right (Nat.le_refl _), Nat.sub_self]
    rfl
  unfold recorded?
  dsimp only
  rw [hget]
  cases worker <;> rfl

theorem failure?_worker (h : s'.workers = before ++ worker :: after) :
    (⟨.worker before.length, s, s'⟩ : Step ρ ε τ φ).failure? = worker.failure? := by
  have hget : s'.workers[before.length]? = some worker := by
    rw [h, List.getElem?_append_right (Nat.le_refl _), Nat.sub_self]
    rfl
  unfold failure?
  dsimp only
  rw [hget]
  cases worker <;> rfl

theorem exists_of_failure [Ratio ρ] {receive : Receive τ φ} {action : Action}
    {failure : BundleFailure} (hact : State.Acts receive s action s')
    (h : (⟨action, s, s'⟩ : Step ρ ε τ φ).failure? = some failure) :
    ∃ worker ∈ s.workers, Worker.Moves s.shared worker (.failing failure) s'.shared ∧
      Worker.failing failure ∈ s'.workers := by
  cases hact with
  | interrupt => cases h
  | consumer _ => cases h
  | worker hworkers hmoves =>
    rw [failure?_worker rfl] at h
    cases Worker.eq_failing h
    rw [hworkers]
    exact ⟨_, List.mem_append_right _ List.mem_cons_self, hmoves,
      List.mem_append_right _ List.mem_cons_self⟩

end Step

section
variable [Ratio ρ] {receive : Receive τ φ} {start s s' : State ρ ε τ φ} {action : Action}
  {history : List (Step ρ ε τ φ)}

theorem State.Acts.firstFailure_eq (hact : State.Acts receive s action s') :
    s'.shared.firstFailure =
      s.shared.firstFailure.or (⟨action, s, s'⟩ : Step ρ ε τ φ).recorded? := by
  cases hact with
  | interrupt => exact (Option.or_none).symm
  | consumer hconsumes => cases hconsumes <;> exact (Option.or_none).symm
  | worker hworkers hmoves =>
    rw [Step.recorded?_worker hworkers]
    exact hmoves.firstFailure_eq

/-- **The slot keeps the first failure recorded.** -/
theorem Run.firstFailure (h : Run receive start history s)
    (hstart : start.shared.firstFailure = none) :
    s.shared.firstFailure = (recorded history).head? := by
  induction h with
  | start => exact hstart
  | @step history s s' action _ hact ih =>
    have hrecorded : recorded (history ++ [⟨action, s, s'⟩]) =
        recorded history ++ (⟨action, s, s'⟩ : Step ρ ε τ φ).recorded?.toList := by
      unfold recorded
      rw [List.filterMap_append]
      cases hstep : (⟨action, s, s'⟩ : Step ρ ε τ φ).recorded? with
      | none => rw [List.filterMap_cons_none hstep]; rfl
      | some failure => rw [List.filterMap_cons_some hstep]; rfl
    rw [(State.acts_of_act hact).firstFailure_eq, ih, hrecorded, List.head?_append,
      Option.head?_toList]

end

/-! ## who is to blame -/

section
variable [Ratio ρ] {receive : Receive τ φ} {start s s' : State ρ ε τ φ} {action : Action}
  {history : List (Step ρ ε τ φ)}

/-- Every failure was met in a step, and the one on record before any was recorded. -/
structure Blame (history : List (Step ρ ε τ φ)) (s : State ρ ε τ φ) : Prop where
  failing : ∀ failure, Worker.failing failure ∈ s.workers →
    ∃ step ∈ history, step.failure? = some failure
  recorded : ∀ failure, s.shared.firstFailure = some failure →
    ∃ step ∈ history, step.failure? = some failure ∧ step.before.shared.firstFailure = none

theorem Run.firstFailure_before (h : Run receive start history s)
    (hnone : s.shared.firstFailure = none) {step : Step ρ ε τ φ} (hstep : step ∈ history) :
    step.before.shared.firstFailure = none := by
  have hbefore := h.not_before (P := fun s => s.shared.firstFailure.isSome)
    (fun {s s' _} hsome hacts => by
      obtain ⟨failure, hfailure⟩ := Option.isSome_iff_exists.1 hsome
      rw [hacts.firstFailure hfailure]
      rfl) (by rw [hnone]; exact Bool.false_ne_true) hstep
  exact Option.not_isSome_iff_eq_none.1 hbefore.1

/-- **A failure on record was met before any other was recorded.** -/
theorem Run.blame (h : Run receive start history s) (hfirst : start.shared.firstFailure = none)
    (hcalm : ∀ failure, Worker.failing failure ∉ start.workers) : Blame history s := by
  induction h with
  | start =>
    refine ⟨fun failure hfailing => absurd hfailing (hcalm failure), fun failure hfailure => ?_⟩
    rw [hfirst] at hfailure
    cases hfailure
  | @step history s s' action hrun hact ih =>
    have hacts := State.acts_of_act hact
    have hlater : ∀ {P : Step ρ ε τ φ → Prop}, (∃ step ∈ history, P step) →
        ∃ step ∈ history ++ [⟨action, s, s'⟩], P step := fun ⟨met, hmet, hP⟩ =>
      ⟨met, List.mem_append_left _ hmet, hP⟩
    refine ⟨fun failure hfailing => ?_, fun failure hfailure => ?_⟩
    · cases hacts with
      | interrupt => exact hlater (ih.failing failure hfailing)
      | consumer hconsumes =>
        cases hconsumes <;> exact hlater (ih.failing failure hfailing)
      | worker hworkers hmoves =>
        rcases State.mem_replaced hfailing with rfl | hmem
        · exact ⟨_, List.mem_append_right _ List.mem_cons_self,
            (Step.failure?_worker rfl).trans rfl⟩
        · rw [← hworkers] at hmem
          exact hlater (ih.failing failure hmem)
    · -- the slot is filled once: before this step, or by it
      cases hslot : s.shared.firstFailure with
      | some other =>
        rw [hacts.firstFailure hslot] at hfailure
        cases hfailure
        exact hlater (ih.recorded failure hslot)
      | none =>
        -- the worker met its failure earlier, and nothing was on record then either
        rw [hacts.firstFailure_eq, hslot, Option.none_or] at hfailure
        have hfailing : Worker.failing failure ∈ s.workers := by
          cases hacts with
          | interrupt => cases hfailure
          | consumer _ => cases hfailure
          | worker hworkers _ =>
            rw [Step.recorded?_worker hworkers] at hfailure
            cases Worker.eq_failing hfailure
            rw [hworkers]
            exact List.mem_append_right _ List.mem_cons_self
        obtain ⟨step, hstep, hmet⟩ := ih.failing failure hfailing
        exact hlater ⟨step, hstep, hmet, hrun.firstFailure_before hslot hstep⟩

/-! ## failures raise the flag -/

namespace State

/-- The flag of the read is raised, or a worker is about to raise it because a bundle failed. -/
def Alarmed (s : State ρ ε τ φ) : Prop :=
  s.Stopped ∨ ∃ worker ∈ s.workers, worker = .stopping ∨ ∃ failure, worker = .failing failure

theorem Alarmed.act (h : s.Alarmed) (hquiet : s.Quiet) (hact : Acts receive s action s') :
    s'.Alarmed := by
  rcases h with hstopped | ⟨worker, hmem, halarm⟩
  · exact .inl (hstopped.act hquiet hact)
  · cases hact with
    | interrupt => exact .inr ⟨worker, hmem, halarm⟩
    | consumer hconsumes => cases hconsumes <;> exact .inr ⟨worker, hmem, halarm⟩
    | @worker before after moved moved' shared hworkers hmoves =>
      rw [hworkers] at hmem
      have hkept : worker = moved ∨ worker ∈ before ++ moved' :: after := mem_replaced hmem
      rcases hkept with rfl | hkept
      · rcases halarm with rfl | ⟨failure, rfl⟩
        · cases hmoves
          exact .inl (Flags.isRaised_raise_self hquiet.flag)
        · cases hmoves
          exact .inr ⟨_, List.mem_append_right _ List.mem_cons_self, .inl rfl⟩
      · exact .inr ⟨worker, hkept, halarm⟩

/-- the bundles of a read are those that it was given -/
structure Given (all : List Bundle) (s : State ρ ε τ φ) : Prop where
  queue : s.shared.queue ⊆ all
  workers : ∀ worker ∈ s.workers, ∀ bundle, worker.concerns? = some bundle → bundle ∈ all

theorem Given.act {all : List Bundle} (h : s.Given all) (hact : Acts receive s action s') :
    s'.Given all := by
  cases hact with
  | interrupt => exact ⟨h.queue, h.workers⟩
  | consumer hconsumes => cases hconsumes <;> exact ⟨h.queue, h.workers⟩
  | worker hworkers hmoves =>
    obtain ⟨hqueue, hgiven⟩ := h
    rw [hworkers] at hgiven
    refine ⟨List.Subset.trans hmoves.queue_subset hqueue, fun other hother bundle hbundle => ?_⟩
    rcases mem_replaced hother with rfl | hmem
    · rcases hmoves.concerns hbundle with hheld | hqueued
      · exact hgiven _ (List.mem_append_right _ List.mem_cons_self) bundle hheld
      · exact hqueue hqueued
    · exact hgiven other hmem bundle hbundle

end State

theorem Run.trouble_of_failure (h : Run receive start history s) {step : Step ρ ε τ φ}
    (hstep : step ∈ history) {failure : BundleFailure} (hmet : step.failure? = some failure) :
    s.Trouble := by
  obtain ⟨before, after, rfl⟩ := List.append_of_mem hstep
  obtain ⟨-, hact, hrest⟩ := h.split
  obtain ⟨-, -, -, hfailing⟩ := Step.exists_of_failure (State.acts_of_act hact) hmet
  exact hrest.trouble (.inr (.inl ⟨failure, hfailing⟩))

/-- once a bundle has failed, the flag of the read is raised or about to be -/
theorem Run.alarmed (h : Run receive start history s) (hstart : start.Quiet) {step : Step ρ ε τ φ}
    (hstep : step ∈ history) (hfailure : step.failure?.isSome) : s.Alarmed := by
  obtain ⟨before, after, rfl⟩ := List.append_of_mem hstep
  obtain ⟨hrun, hact, hrest⟩ := h.split
  obtain ⟨failure, hfailure⟩ := Option.isSome_iff_exists.1 hfailure
  obtain ⟨-, -, -, hfailing⟩ := Step.exists_of_failure (State.acts_of_act hact) hfailure
  have hafter : step.after.Quiet := (hrun.quiet hstart).act (State.acts_of_act hact)
  have halarmed : step.after.Alarmed := .inr ⟨_, hfailing, .inr ⟨failure, rfl⟩⟩
  exact (hrest.stable (P := fun s => s.Quiet ∧ s.Alarmed)
    (fun h hacts => ⟨h.1.act hacts, h.2.act h.1 hacts⟩) ⟨hafter, halarmed⟩).2

end

end Splittable.Pool
