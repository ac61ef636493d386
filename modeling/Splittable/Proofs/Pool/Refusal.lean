import Splittable.Proofs.Pool.Complete
import Splittable.Proofs.Pool.Ends

/-!
# Refusals of the caller

A caller that refuses a record is handed no other one, and the read answers its reason.

* `Step.Refuses`         the caller refused the record that it was handed;
* `Run.exists_refuses`   a refused read has a step in which the caller refused;
* `Run.taken_of_refused` nothing is taken after a refusal;
* `State.outcome_of_refused`, `outcome_of_failure`   the answer of a read that is over.
-/

namespace Splittable.Pool

variable {ρ ε τ φ : Type}

/-- In this step the caller was handed a record, and refused it. -/
def Step.Refuses (onRecord : OnRecord τ φ) (step : Step ρ ε (Summary × τ) φ) (reason : φ) : Prop :=
  ∃ place pair, step.taken? = some (.record place pair) ∧
    (onRecord pair step.before.gathered.2).1 = .error reason

theorem receiveRecords_error {onRecord : OnRecord τ φ} {event : Event}
    {gathered gathered' : Summary × τ} {reason : φ}
    (h : receiveRecords onRecord event gathered = (.error reason, gathered')) :
    ∃ place pair, event = .record place pair ∧ (onRecord pair gathered.2).1 = .error reason := by
  cases event with
  | finished place records => cases h
  | record place pair =>
    refine ⟨place, pair, rfl, ?_⟩
    unfold receiveRecords at h
    dsimp only at h
    rcases hon : onRecord pair gathered.2 with ⟨other | _, total⟩
    · rw [hon] at h
      cases h
      rfl
    · rw [hon] at h
      cases h

theorem receiveRecords_of_error {onRecord : OnRecord τ φ} {pair : Pair} {gathered : Summary × τ}
    {reason : φ} (h : (onRecord pair gathered.2).1 = .error reason) (place : Nat) :
    (receiveRecords onRecord (.record place pair) gathered).1 = .error reason := by
  unfold receiveRecords
  dsimp only
  rcases hon : onRecord pair gathered.2 with ⟨other | _, total⟩
  · rw [hon] at h
    exact h
  · rw [hon] at h
    cases h

section
variable [Ratio ρ] {onRecord : OnRecord τ φ} {s s' : State ρ ε (Summary × τ) φ} {action : Action}
  {reason : φ}

/-- **A refusal is kept by the consumer**, with the reason of the caller. -/
theorem Step.Refuses.refused (h : Step.Refuses onRecord ⟨action, s, s'⟩ reason)
    (hact : State.Acts (receiveRecords onRecord) s action s') : s'.Refused reason := by
  obtain ⟨place, pair, htaken, herror⟩ := h
  unfold Step.taken? at htaken
  dsimp only at htaken
  cases hact with
  | interrupt => cases htaken
  | worker _ _ => cases htaken
  | consumer hconsumes =>
    cases hconsumes with
    | received hconsumer hchannel hreceive =>
      rw [hconsumer, hchannel] at htaken
      cases htaken
      have hrefused := receiveRecords_of_error herror place
      rw [hreceive] at hrefused
      cases hrefused
    | refused hconsumer hchannel hreceive =>
      rw [hconsumer, hchannel] at htaken
      cases htaken
      have hrefused := receiveRecords_of_error herror place
      rw [hreceive] at hrefused
      cases hrefused
      exact .inl rfl
    | drained hconsumer hchannel _ =>
      rw [hconsumer, hchannel] at htaken
      cases htaken
    | stopped hconsumer =>
      rw [hconsumer] at htaken
      cases htaken
    | left hconsumer =>
      rw [hconsumer] at htaken
      cases htaken

theorem Step.refuses_of_refused (hact : State.Acts (receiveRecords onRecord) s action s')
    (hbefore : ¬ s.Refused reason) (hafter : s'.Refused reason) :
    Step.Refuses onRecord ⟨action, s, s'⟩ reason := by
  cases hact with
  | interrupt => exact absurd hafter hbefore
  | worker _ _ => exact absurd hafter hbefore
  | consumer hconsumes =>
    cases hconsumes with
    | received hconsumer _ _ => exact absurd hafter hbefore
    | refused hconsumer hchannel hreceive =>
      obtain ⟨place, pair, rfl, herror⟩ := receiveRecords_error hreceive
      rcases hafter with h | h | h
      · cases h
        refine ⟨place, pair, ?_, herror⟩
        unfold Step.taken?
        dsimp only
        rw [hconsumer, hchannel]
        rfl
      · cases h
      · cases h
    | drained _ _ _ =>
      rcases hafter with h | h | h
      · cases h
      · cases h
      · cases h
    | stopped hconsumer =>
      rcases hafter with h | h | h
      · cases h
      · cases h
        exact absurd (.inl hconsumer) hbefore
      · cases h
    | left hconsumer =>
      rcases hafter with h | h | h
      · cases h
      · cases h
      · cases h
        exact absurd (.inr (.inl hconsumer)) hbefore

theorem Run.exists_refuses {start : State ρ ε (Summary × τ) φ}
    {history : List (Step ρ ε (Summary × τ) φ)}
    (h : Run (receiveRecords onRecord) start history s) (hstart : ¬ start.Refused reason)
    (hrefused : s.Refused reason) : ∃ step ∈ history, step.Refuses onRecord reason := by
  induction h with
  | start => exact absurd hrefused hstart
  | @step history s s' action _ hact ih =>
    by_cases hbefore : s.Refused reason
    · obtain ⟨step, hstep, hrefuses⟩ := ih hbefore
      exact ⟨step, List.mem_append_left _ hstep, hrefuses⟩
    · exact ⟨_, List.mem_append_right _ List.mem_cons_self,
        Step.refuses_of_refused (State.acts_of_act hact) hbefore hrefused⟩

end

section
variable {s : State ρ ε τ φ} {reason : φ}

theorem Step.taken?_of_refused {step : Step ρ ε τ φ} (h : step.before.Refused reason) :
    step.taken? = none := by
  unfold taken?
  cases step.action with
  | consumer =>
    rcases h with h | h | h
    · rw [h]
    · rw [h]
    · rw [h]
  | _ => rfl

/-- **Nothing is taken after a refusal.** -/
theorem Run.taken_of_refused [Ratio ρ] {receive : Receive τ φ} {start : State ρ ε τ φ}
    {history : List (Step ρ ε τ φ)} (h : Run receive start history s)
    (hstart : start.Refused reason) : taken history = [] := by
  induction h with
  | start => rfl
  | step hrun _ ih =>
    rw [taken_concat, ih, Step.taken?_of_refused (hrun.refused hstart)]
    rfl

theorem State.allGone_of_isOver (h : s.isOver = true) : s.allGone = true := by
  unfold isOver at h
  cases hconsumer : s.consumer with
  | waiting reason =>
    rw [hconsumer] at h
    exact h
  | _ =>
    rw [hconsumer] at h
    cases h

theorem State.outcome_of_refused (h : s.Refused reason) (hover : s.isOver = true) :
    s.outcome? = some (.error (.refused reason)) := by
  unfold isOver at hover
  unfold outcome?
  rcases h with h | h | h
  · rw [h] at hover
    cases hover
  · rw [h] at hover
    cases hover
  · rw [h] at hover ⊢
    dsimp only at hover ⊢
    rw [if_pos hover]

theorem State.outcome_of_failure {failure : BundleFailure} (hcalm : ∀ reason, ¬ s.Refused reason)
    (hover : s.isOver = true) (hfirst : s.shared.firstFailure = some failure) :
    s.outcome? = some (.error (.bundle failure)) := by
  unfold isOver at hover
  unfold outcome?
  cases hconsumer : s.consumer with
  | waiting reason =>
    rw [hconsumer] at hover
    cases reason with
    | some reason => exact absurd (.inr (.inr hconsumer)) (hcalm reason)
    | none =>
      dsimp only at hover ⊢
      rw [if_pos hover, hfirst]
  | _ =>
    rw [hconsumer] at hover
    cases hover

end

end Splittable.Pool
