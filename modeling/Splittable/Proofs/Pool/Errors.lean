import Splittable.Proofs.Pool.Failure
import Splittable.Proofs.Pool.Refusal

/-!
# Which error a read answers

A refusal of the caller counts more than any failure.  Where there is none, the answer is the first
failure on record: a worker records its failure before it raises the flag of the read, so no other
failure brought that one about.  The flag is the read's own, and the caller's is as it was.

* `Run.of_refuses`     a read in which the caller refuses a record;
* `Run.met`            a failure on record was met while no flag was raised;
* `Run.isRaised`       the flags that a read leaves behind;
* `Run.errors`         which error a read answers, and which flags it raises.
-/

namespace Splittable.Pool

variable {ρ ε τ φ : Type}

section
variable [Ratio ρ] {receive : Receive τ φ} {start s : State ρ ε τ φ}
  {history : List (Step ρ ε τ φ)}

/-- **A read in which the caller refuses a record** hands on no other, comes to its end, and answers
the reason. -/
theorem Run.of_refuses {onRecord : OnRecord τ φ} {start s : State ρ ε (Summary × τ) φ}
    {before after : List (Step ρ ε (Summary × τ) φ)} {step : Step ρ ε (Summary × τ) φ} {reason : φ}
    (h : Run (receiveRecords onRecord) start (before ++ step :: after) s)
    (hrefuses : step.Refuses onRecord reason) :
    handed after = [] ∧
      (own after).length ≤ 2 + 8 * start.workers.length + 6 * max start.shared.capacity 1 ∧
      (s.isOver = true → s.outcome? = some (.error (.refused reason))) := by
  obtain ⟨hrun, hact, hrest⟩ := h.split
  have hrefused : step.after.Refused reason := hrefuses.refused (State.acts_of_act hact)
  refine ⟨?_, ?_, State.outcome_of_refused (hrest.refused hrefused)⟩
  · unfold handed
    rw [hrest.taken_of_refused hrefused]
    rfl
  · obtain ⟨-, hcapacity, -, hworkers⟩ := (hrun.step hact).keeps
    have hbound := hrest.length_own_of_refused hrefused
    rwa [hworkers, hcapacity] at hbound

/-- **A failure on record was met while the flag of the read was not raised**, and where the
libraries watch the flag it is no interruption. -/
theorem Run.met (h : Run receive start history s) (hstart : start.Quiet)
    (hstopped : ¬ start.Stopped) (hfirst : start.shared.firstFailure = none)
    (hidle : ∀ failure, Worker.failing failure ∉ start.workers)
    (hcaller : ∀ step ∈ history, step.action ≠ .interrupt) (hcalm : ∀ reason, ¬ s.Refused reason)
    {failure : BundleFailure} (hfailure : s.shared.firstFailure = some failure) :
    ∃ step ∈ history, step.failure? = some failure ∧ ¬ step.before.Stopped ∧
      (start.Candid → failure.error.isInterrupted = false) := by
  obtain ⟨step, hstep, hmet, hnone⟩ := (h.blame hfirst hidle).recorded failure hfailure
  have hbefore : ∀ reason, ¬ step.before.Refused reason := fun reason =>
    (h.not_before (P := fun s => s.Refused reason) (fun hrefused hacts => hrefused.act hacts)
      (hcalm reason) hstep).1
  obtain ⟨before, after, rfl⟩ := List.append_of_mem hstep
  obtain ⟨hrun, hact, -⟩ := h.split
  -- up to the step in which the failure was met, nothing was on record and nothing refused
  have hflags := hrun.flags hstart
    (fun other hother => hcaller other (List.mem_append_left _ hother)) hnone hbefore
  have hquiet : ¬ step.before.Stopped := by
    unfold State.Stopped at hstopped ⊢
    rwa [hrun.keeps.1, World.isRaised_of_flags hflags]
  refine ⟨step, hstep, hmet, hquiet, fun hcandid => ?_⟩
  obtain ⟨worker, hworker, hmoves, -⟩ := Step.exists_of_failure (State.acts_of_act hact) hmet
  have hobedient := hrun.candid hcandid
  rw [← Bool.not_eq_true]
  intro hinterrupted
  exact hquiet (hmoves.raised_of_interrupted hobedient.context hobedient.candid
    (hobedient.watching worker hworker) hinterrupted)

end

section
variable {bundles : List Source} {context : Context ρ ε} {workers capacity : Nat} {gathered : τ}
  {w : World ε}

/-- a read starts with its flag raised only where the caller's is -/
theorem State.stopped_start (h : context.interrupt.cell < w.flags.cells.length) :
    (start bundles context workers capacity gathered w : State ρ ε τ φ).Stopped ↔
      w.isRaised context.interrupt = true := by
  show (w.flags.child context.interrupt).2.isRaised (w.flags.child context.interrupt).1 = true ↔ _
  rw [Flags.isRaised_child h]
  rfl

variable [Ratio ρ] {receive : Receive τ φ} {s : State ρ ε τ φ} {history : List (Step ρ ε τ φ)}

/-- **A read leaves the flags of its caller as they were**, unless the caller raises its own. -/
theorem Run.isRaised
    (h : Run receive (State.start bundles context workers capacity gathered w) history s)
    (hquiet : context.Quiet) (hcaller : ∀ step ∈ history, step.action ≠ .interrupt) {flag : Flag}
    (hflag : flag.cell < w.flags.cells.length) :
    s.shared.world.isRaised flag = w.isRaised flag := by
  refine Flags.isRaised_congr (fun i hi => ?_) hflag
  rw [h.cells (State.quiet_start hquiet _ _ _ _ _) hcaller (Nat.ne_of_lt hi)]
  exact Flags.agree_child context.interrupt i hi

theorem Run.lt_length_cells
    (h : Run receive (State.start bundles context workers capacity gathered w) history s)
    (hquiet : context.Quiet) {flag : Flag} (hflag : flag.cell < w.flags.cells.length) :
    flag.cell < s.shared.world.flags.cells.length := by
  have hown := (h.quiet (State.quiet_start hquiet _ _ _ _ _)).flag
  rw [h.keeps.1] at hown
  exact Nat.lt_trans hflag hown

theorem Run.given
    (h : Run receive (State.start bundles context workers capacity gathered w) history s) :
    s.Given (Bundle.number bundles) := by
  refine h.stable (fun hgiven hacts => hgiven.act hacts)
    ⟨List.Subset.refl _, fun worker hworker bundle hbundle => ?_⟩
  rw [List.eq_of_mem_replicate hworker] at hbundle
  cases hbundle

/-- **A read in which a bundle fails, and nothing is refused,** raises its flag, and answers the
first failure on record. -/
theorem Run.of_failure
    (h : Run receive (State.start bundles context workers capacity gathered w) history s)
    (hquiet : context.Quiet) (hcell : context.interrupt.cell < w.flags.cells.length)
    (hcaller : ∀ step ∈ history, step.action ≠ .interrupt) (hcalm : ∀ reason, ¬ s.Refused reason)
    (hlowered : w.isRaised context.interrupt = false) {failed : Step ρ ε τ φ}
    (hfailed : failed ∈ history) (hfailure : failed.failure?.isSome) :
    s.Alarmed ∧ (s.isOver = true → ∃ failure, s.outcome? = some (.error (.bundle failure)) ∧
      s.shared.firstFailure = some failure ∧ failure.bundle ∈ Bundle.number bundles ∧
      (∃ step ∈ history, step.failure? = some failure ∧ ¬ step.before.Stopped) ∧
      (context.Candid → failure.error.isInterrupted = false)) := by
  have hstart : (State.start bundles context workers capacity gathered w : State ρ ε τ φ).Quiet :=
    State.quiet_start hquiet _ _ _ _ _
  refine ⟨h.alarmed hstart hfailed hfailure, fun hover => ?_⟩
  have hgone : s.allGone = true := State.allGone_of_isOver hover
  obtain ⟨failure, hfirst⟩ : ∃ failure, s.shared.firstFailure = some failure := by
    obtain ⟨failure, hmet⟩ := Option.isSome_iff_exists.1 hfailure
    rcases h.trouble_of_failure hfailed hmet with hsome | ⟨other, hfailing⟩ | ⟨reason, hrefused⟩
    · exact Option.isSome_iff_exists.1 hsome
    · cases State.allGone_iff.1 hgone _ hfailing
    · exact absurd hrefused (hcalm reason)
  have hstopped : ¬ (State.start bundles context workers capacity gathered w :
      State ρ ε τ φ).Stopped := by
    rw [State.stopped_start hcell, hlowered]
    exact Bool.false_ne_true
  have hidle : ∀ failure, Worker.failing failure ∉
      (State.start bundles context workers capacity gathered w : State ρ ε τ φ).workers :=
    fun failure hfailing => by cases List.eq_of_mem_replicate hfailing
  obtain ⟨step, hstep, hmet, hbefore, hcandid⟩ :=
    h.met hstart hstopped rfl hidle hcaller hcalm hfirst
  refine ⟨failure, State.outcome_of_failure hcalm hover hfirst, hfirst, ?_,
    ⟨step, hstep, hmet, hbefore⟩, fun h => hcandid (State.candid_start hquiet h _ _ _ _ _)⟩
  obtain ⟨before, after, rfl⟩ := List.append_of_mem hstep
  obtain ⟨hrun, hact, -⟩ := h.split
  obtain ⟨-, -, -, hfailing⟩ := Step.exists_of_failure (State.acts_of_act hact) hmet
  exact (hrun.step hact).given.workers _ hfailing _ rfl

end

/-- **Which error a read answers, and which flags it raises**, whatever the order of its steps. -/
theorem Run.errors [Ratio ρ] {bundles : List Source} {context : Context ρ ε} {threads : Threads}
    {requested : Option Nat} {onRecord : OnRecord τ φ} {total : τ} {w : World ε}
    {s : State ρ ε (Summary × τ) φ} {history : List (Step ρ ε (Summary × τ) φ)}
    (h : Run (receiveRecords onRecord) (readState bundles context threads requested total w)
      history s) :
    -- the caller refuses a record: no other is handed on, and the read ends with the reason
    (∀ before step after reason, history = before ++ step :: after → step.Refuses onRecord reason →
      handed after = [] ∧
      (own after).length ≤
        2 + 8 * threads.workersFor requested bundles.length + 6 * channelCapacity ∧
      (s.isOver = true → s.outcome? = some (.error (.refused reason)))) ∧
    s.shared.firstFailure = (recorded history).head? ∧
    (s.isOver = false →
      ∃ action, action ≠ .interrupt ∧ (s.act (receiveRecords onRecord) action).isSome) ∧
    (context.Quiet → context.interrupt.cell < w.flags.cells.length →
      -- a bundle fails, and neither does the caller refuse anything nor is its flag raised
      ((∀ step ∈ history, step.action ≠ .interrupt ∧ ∀ reason, ¬ step.Refuses onRecord reason) →
        w.isRaised context.interrupt = false → (∃ step ∈ history, step.failure?.isSome) →
        s.Alarmed ∧
        (s.isOver = true → ∃ failure, s.outcome? = some (.error (.bundle failure)) ∧
          (recorded history).head? = some failure ∧ failure.bundle ∈ Bundle.number bundles ∧
          (∃ step ∈ history, step.failure? = some failure ∧ ¬ step.before.Stopped) ∧
          (context.Candid → failure.error.isInterrupted = false))) ∧
      -- once the flag of the read is raised, the read comes to its end
      (context.Candid → ∀ before step after, history = before ++ step :: after →
        step.after.Stopped →
        (own after).length ≤ 3 + 7 * threads.workersFor requested bundles.length +
          step.after.shared.channel.length + 6 * step.after.shared.queue.length) ∧
      -- the read raises no flag but its own
      (∀ step ∈ history, step.action ≠ .interrupt → ∀ i, i ≠ (runContext context w).interrupt.cell →
        step.after.shared.world.flags.cells[i]? = step.before.shared.world.flags.cells[i]?) ∧
      -- another read of the context starts as this one did
      ((∀ step ∈ history, step.action ≠ .interrupt) →
        (∀ flag : Flag, flag.cell < w.flags.cells.length →
          s.shared.world.isRaised flag = w.isRaised flag) ∧
        ∀ bundles' threads' requested' (total' : τ),
          (readState bundles' context threads' requested' total' s.shared.world :
            State ρ ε (Summary × τ) φ).Stopped ↔ w.isRaised context.interrupt = true)) := by
  have hworkers : (readState bundles context threads requested total w :
      State ρ ε (Summary × τ) φ).workers.length = threads.workersFor requested bundles.length :=
    List.length_replicate
  have hunrefused : ∀ reason, ¬ (readState bundles context threads requested total w :
      State ρ ε (Summary × τ) φ).Refused reason := by
    rintro reason (h | h | h)
    · cases h
    · cases h
    · cases h
  have hslot : s.shared.firstFailure = (recorded history).head? := h.firstFailure rfl
  refine ⟨?_, hslot, fun hover => ?_, fun hquiet hcell => ⟨?_, ?_, ?_, ?_⟩⟩
  · rintro before step after reason rfl hrefuses
    have hends := h.of_refuses hrefuses
    rwa [hworkers] at hends
  · exact (h.sound (State.sound_start _ _ _ _ _ _)).act_isSome _ hover
  · intro hcalm hlowered ⟨failed, hfailed, hfailure⟩
    have hrefused : ∀ reason, ¬ s.Refused reason := fun reason hrefused => by
      obtain ⟨step, hstep, hrefuses⟩ := h.exists_refuses (hunrefused reason) hrefused
      exact (hcalm step hstep).2 reason hrefuses
    rw [← hslot]
    exact h.of_failure hquiet hcell (fun step hstep => (hcalm step hstep).1) hrefused hlowered
      hfailed hfailure
  · rintro hcandid before step after rfl hstopped
    obtain ⟨hrun, hact, hrest⟩ := h.split
    have hbound := hrest.length_own_of_raised
      ((hrun.step hact).candid (State.candid_start hquiet hcandid _ _ _ _ _)) hstopped
    rwa [(hrun.step hact).keeps.2.2.2, hworkers] at hbound
  · exact fun step hstep hne i hi =>
      h.cells_of_mem (State.quiet_start hquiet _ _ _ _ _) hstep hne hi
  · intro hcaller
    refine ⟨fun flag hflag => h.isRaised hquiet hcaller hflag,
      fun bundles' threads' requested' total' => ?_⟩
    rw [← h.isRaised hquiet hcaller hcell]
    exact State.stopped_start (h.lt_length_cells hquiet hcell)

/-! ## two reads that fail -/

theorem quiet_listed (pairs : List Pair) : (listed pairs).Quiet where
  discover _ _ _ _ := rfl
  openCursor _ _ _ _ := rfl
  next cursor w := by
    unfold listed
    dsimp only
    split
    · rfl
    · rfl
  close _ _ := rfl

theorem candid_listed (pairs : List Pair) : (listed pairs).Candid := by
  refine ⟨fun cursor flag => cursor.1 = flag, ?_, ?_, ?_, ?_, ?_, ?_⟩
  · intro _ _ flag _ cursor h
    cases h
    rfl
  · intro _ _ _ _ _ h
    cases h
  · rintro cursor _ w rfl
    unfold listed
    dsimp only
    split
    · rfl
    · rfl
  · rintro cursor _ w fault rfl h -
    unfold listed at h
    dsimp only at h
    split at h
    · assumption
    · cases h
  · rintro cursor _ w pair rfl hraised h
    unfold listed at h
    dsimp only at h
    rw [if_pos hraised] at h
    cases h
  · intro _ _ _ _ _ h
    cases h

theorem quiet_listedContext (pairs : List Pair) : (listedContext pairs).Quiet where
  formats _ _ hfind := by
    rw [Formats.eq_of_find?_register hfind]
    exact quiet_listed pairs
  decoders := Decoders.quiet_builtin

theorem candid_listedContext (pairs : List Pair) : (listedContext pairs).Candid := by
  intro _ _ hfind
  rw [Formats.eq_of_find?_register hfind]
  exact candid_listed pairs

/-- a source whose format is not known -/
def strangeSource : Source := .make "memory" "strange" (.record .long) .void

/-- take one record, and refuse the next -/
def takeOne : OnRecord (List Pair) Unit := fun pair pairs =>
  (if pairs.isEmpty then .ok () else .error (), pair :: pairs)

/-- a bundle that fails beside one that does not, and a caller that refuses its second record -/
theorem Run.errors_listed :
    let pairs : List Pair := [⟨.long 0, .void⟩, ⟨.long 7, .void⟩]
    let context := listedContext pairs
    (∃ (s : State ℚ Unit (Summary × List Pair) Empty) (history : List (Step _ _ _ _)),
      Run (receiveRecords gatherRecord)
        (readState [listedSource, strangeSource] context (.ofMachine 3) none [] quietWorld)
        history s ∧
      s.isOver = true ∧ ∃ failure, s.outcome? = some (.error (.bundle failure)) ∧
        failure.error.isInterrupted = false) ∧
    ∃ (s : State ℚ Unit (Summary × List Pair) Unit) (history : List (Step _ _ _ _)),
      Run (receiveRecords takeOne)
        (readState [listedSource, listedSource] context (.ofMachine 3) none [] quietWorld)
        history s ∧
      s.outcome? = some (.error (.refused ())) := by
  intro pairs context
  constructor
  · let start : State ℚ Unit (Summary × List Pair) Empty :=
      readState [listedSource, strangeSource] context (.ofMachine 3) none [] quietWorld
    obtain ⟨history, hrun, hcaller⟩ := exists_run (receiveRecords gatherRecord) 60 start
    have hover : (start.run (receiveRecords gatherRecord) 60).isOver = true := by decide +kernel
    have hfirst : (start.run (receiveRecords gatherRecord) 60).shared.firstFailure.isSome := by
      decide +kernel
    obtain ⟨first, hfirst⟩ := Option.isSome_iff_exists.1 hfirst
    have hidle : ∀ failure, Worker.failing failure ∉ start.workers :=
      fun failure hfailing => by cases List.eq_of_mem_replicate hfailing
    obtain ⟨step, hstep, hmet, -⟩ := (hrun.blame rfl hidle).recorded first hfirst
    obtain ⟨-, -, -, hquiet⟩ := hrun.errors
    obtain ⟨-, hends⟩ := (hquiet (quiet_listedContext pairs) (by decide)).1
      (fun step hstep => ⟨hcaller step hstep, fun reason => reason.elim⟩) (by decide +kernel)
      ⟨step, hstep, by rw [hmet]; rfl⟩
    obtain ⟨failure, houtcome, -, -, -, hcandid⟩ := hends hover
    exact ⟨_, history, hrun, hover, failure, houtcome, hcandid (candid_listedContext pairs)⟩
  · let start : State ℚ Unit (Summary × List Pair) Unit :=
      readState [listedSource, listedSource] context (.ofMachine 3) none [] quietWorld
    obtain ⟨history, hrun, -⟩ := exists_run (receiveRecords takeOne) 60 start
    have hover : (start.run (receiveRecords takeOne) 60).isOver = true := by decide +kernel
    have hrefused : (start.run (receiveRecords takeOne) 60).Refused () :=
      .inr (.inr (by decide +kernel))
    have hstart : ¬ start.Refused () := by
      rintro (h | h | h)
      · cases h
      · cases h
      · cases h
    obtain ⟨step, hstep, hrefuses⟩ := hrun.exists_refuses hstart hrefused
    obtain ⟨before, after, rfl⟩ := List.append_of_mem hstep
    exact ⟨_, _, hrun, (hrun.errors.1 before step after () rfl hrefuses).2.2 hover⟩

end Splittable.Pool
