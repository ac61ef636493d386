import Splittable.Proofs.Flags
import Splittable.Proofs.Pool.Run
import Splittable.Proofs.Reader.Candid

/-!
# Flags along a run

Where the libraries and decoders of a context leave flags alone, a read raises no flag but its own,
and that only after a worker has recorded a failure or the consumer has refused an event.

* `Worker.Holds`        what is true of the reader that a worker holds;
* `Worker.Moves.flags`, `State.Acts.flags`   the flags that a step raises;
* `Run.quiet`, `Run.candid`   the readers along a run;
* `Run.cells`, `Run.flags`    what a run does to the flags;
* `State.Stopped`       the flag of the read is raised, and stays so.
-/

namespace Splittable.Pool

variable {ρ ε τ φ : Type}

namespace Worker

/-- the reader that a worker holds -/
def reader? : Worker ρ ε → Option (AnyReader ρ ε)
  | .sending _ _ _ any => some any
  | .advancing _ _ any => some any
  | .closing _ _ _ any => some any
  | _ => none

/-- the reader that a worker holds, if it holds one, is such -/
def Holds (P : AnyReader ρ ε → Prop) (worker : Worker ρ ε) : Prop :=
  ∀ any, worker.reader? = some any → P any

variable [Ratio ρ] {worker worker' : Worker ρ ε} {shared shared' : Shared ρ ε}

/-- **What starting and advancing a reader establish is true of the readers of all workers.** -/
theorem Moves.holds {P : AnyReader ρ ε → Prop} (h : Moves shared worker worker' shared')
    (hstart : ∀ (source : Source) (created : AnyReader ρ ε),
      source.createReader shared.context = .ok created →
        P ⟨created.library, (created.reader.start shared.world).2.1⟩)
    (hadvance : ∀ any : AnyReader ρ ε, P any →
      P ⟨any.library, (any.reader.advance shared.world).2.1⟩)
    (hworker : worker.Holds P) : worker'.Holds P := by
  intro any hany
  cases h with
  | started hcreate hstarted _ =>
    cases hany
    have hreader := hstart _ _ hcreate
    rwa [hstarted] at hreader
  | startedEmpty hcreate hstarted =>
    cases hany
    have hreader := hstart _ _ hcreate
    rwa [hstarted] at hreader
  | unheard _ => exact hworker any hany
  | sent _ _ => exact hworker any hany
  | advanced hadvanced _ =>
    cases hany
    have hreader := hadvance _ (hworker _ rfl)
    rwa [hadvanced] at hreader
  | ended hadvanced =>
    cases hany
    have hreader := hadvance _ (hworker _ rfl)
    rwa [hadvanced] at hreader
  | @closed _ _ report _ _ _ _ =>
    cases report with
    | false => cases hany
    | true => cases hany
  | _ => cases hany

/-- the library of its reader leaves the flags alone -/
def Quiet (worker : Worker ρ ε) : Prop := worker.Holds fun any => any.library.Quiet

/-- its reader watches a flag -/
def Candid (flag : Flag) (worker : Worker ρ ε) : Prop := worker.Holds fun any =>
  any.library.Quiet ∧ any.Candid flag

theorem Moves.quiet (h : Moves shared worker worker' shared') (hcontext : shared.context.Quiet)
    (hworker : worker.Quiet) : worker'.Quiet :=
  h.holds (fun _ _ hcreate => (hcontext.created hcreate).1) (fun _ hany => hany) hworker

theorem Moves.candid (h : Moves shared worker worker' shared') (hquiet : shared.context.Quiet)
    (hcontext : shared.context.Candid) (hworker : worker.Candid shared.context.interrupt) :
    worker'.Candid shared.context.interrupt := by
  refine h.holds (fun source created hcreate => ?_) (fun any hany => ?_) hworker
  · obtain ⟨hlibrary, hdecoders⟩ := hquiet.created hcreate
    obtain ⟨watches, hwatches, hwatching, hflag⟩ := hcontext.created hcreate
    have hstart := Reader.start_candid hwatches created.reader shared.world hwatching hlibrary
      hdecoders
    exact ⟨hlibrary, watches, hwatches, hstart.watching, hstart.interrupt.trans hflag⟩
  · obtain ⟨hlibrary, watches, hwatches, hwatching, hflag⟩ := hany
    have hadvance := Reader.advance_candid hwatches any.reader shared.world hwatching hlibrary
    exact ⟨hlibrary, watches, hwatches, hadvance.watching, hadvance.interrupt.trans hflag⟩

/-- **A worker raises no flag but that of the read**, and that only as its last step. -/
theorem Moves.flags (h : Moves shared worker worker' shared') (hcontext : shared.context.Quiet)
    (hworker : worker.Quiet) :
    shared'.world.flags = shared.world.flags ∨ worker = .stopping ∧ shared' = shared.stop := by
  cases h with
  | started hcreate hstart _ =>
    obtain ⟨hlibrary, hdecoders⟩ := hcontext.created hcreate
    have hflags := Reader.start_flags hlibrary _ shared.world hdecoders
    rw [hstart] at hflags
    exact .inl hflags
  | startedEmpty hcreate hstart =>
    obtain ⟨hlibrary, hdecoders⟩ := hcontext.created hcreate
    have hflags := Reader.start_flags hlibrary _ shared.world hdecoders
    rw [hstart] at hflags
    exact .inl hflags
  | @startFailed _ _ reader _ w _ hcreate hstart _ =>
    obtain ⟨hlibrary, hdecoders⟩ := hcontext.created hcreate
    have hflags := Reader.start_flags hlibrary _ shared.world hdecoders
    rw [hstart] at hflags
    exact .inl ((Reader.drop_flags hlibrary reader w).trans hflags)
  | @advanced _ _ any _ _ _ hadvance _ =>
    have hflags := Reader.advance_flags (hworker any rfl) any.reader shared.world
    rw [hadvance] at hflags
    exact .inl hflags
  | @ended _ _ any _ _ hadvance =>
    have hflags := Reader.advance_flags (hworker any rfl) any.reader shared.world
    rw [hadvance] at hflags
    exact .inl hflags
  | @advanceFailed _ _ any reader _ w _ hadvance _ =>
    have hflags := Reader.advance_flags (hworker any rfl) any.reader shared.world
    rw [hadvance] at hflags
    exact .inl ((Reader.drop_flags (hworker any rfl) reader w).trans hflags)
  | @closed _ _ _ any reader w hclose =>
    have hflags := Reader.close_flags (hworker any rfl) any.reader shared.world
    rw [hclose] at hflags
    exact .inl ((Reader.drop_flags (hworker any rfl) reader w).trans hflags)
  | @closeFailed _ _ _ any reader w _ hclose =>
    have hflags := Reader.close_flags (hworker any rfl) any.reader shared.world
    rw [hclose] at hflags
    exact .inl ((Reader.drop_flags (hworker any rfl) reader w).trans hflags)
  | stopped => exact .inr ⟨rfl, rfl⟩
  | _ => exact .inl rfl

/-- **A bundle is interrupted only where the flag of the read is raised.** -/
theorem Moves.raised_of_interrupted {bundle : Bundle} {error : SourceError}
    (h : Moves shared worker (.failing ⟨bundle, error⟩) shared') (hquiet : shared.context.Quiet)
    (hcontext : shared.context.Candid) (hworker : worker.Candid shared.context.interrupt)
    (hinterrupted : error.isInterrupted = true) :
    shared.world.isRaised shared.context.interrupt = true := by
  generalize hfailing : Worker.failing ⟨bundle, error⟩ = worker' at h
  cases h with
  | uncreated hcreate =>
    cases hfailing
    rw [Source.createReader_error hcreate] at hinterrupted
    cases hinterrupted
  | startFailed hcreate hstart hanswer =>
    cases hfailing
    obtain ⟨hlibrary, hdecoders⟩ := hquiet.created hcreate
    obtain ⟨watches, hwatches, hwatching, hflag⟩ := hcontext.created hcreate
    have hcandid := Reader.start_candid hwatches _ shared.world hwatching hlibrary hdecoders
    rw [hstart] at hcandid
    rcases hanswer with rfl | ⟨-, hcurrent⟩
    · exact hflag ▸ hcandid.raised error rfl hinterrupted
    · rw [Reader.error_of_current hcurrent] at hinterrupted
      cases hinterrupted
  | advanceFailed hadvance hanswer =>
    cases hfailing
    obtain ⟨hlibrary, watches, hwatches, hwatching, hflag⟩ := hworker _ rfl
    have hcandid := Reader.advance_candid hwatches _ shared.world hwatching hlibrary
    rw [hadvance] at hcandid
    rcases hanswer with rfl | ⟨-, hcurrent⟩
    · exact hflag ▸ hcandid.raised error rfl hinterrupted
    · rw [Reader.error_of_current hcurrent] at hinterrupted
      cases hinterrupted
  | closeFailed hclose =>
    cases hfailing
    obtain ⟨-, watches, hwatches, hwatching, hflag⟩ := hworker _ rfl
    have hcandid := Reader.close_candid hwatches _ shared.world hwatching
    rw [hclose] at hcandid
    exact hflag ▸ hcandid.raised error rfl hinterrupted
  | @closed _ _ report _ _ _ _ =>
    cases report with
    | false => cases hfailing
    | true => cases hfailing
  | _ => cases hfailing

end Worker

namespace State

variable [Ratio ρ] {receive : Receive τ φ} {s s' : State ρ ε τ φ} {action : Action}

/-- the libraries and decoders of a read leave the flags alone, and it has a flag of its own -/
structure Quiet (s : State ρ ε τ φ) : Prop where
  sound : s.Sound
  context : s.shared.context.Quiet
  workers : ∀ worker ∈ s.workers, worker.Quiet
  flag : s.shared.context.interrupt.cell < s.shared.world.flags.cells.length

/-- the libraries of a read watch its flag -/
structure Candid (s : State ρ ε τ φ) : Prop extends s.Quiet where
  candid : s.shared.context.Candid
  watching : ∀ worker ∈ s.workers, worker.Candid s.shared.context.interrupt

omit [Ratio ρ] in
theorem holds_start {P : AnyReader ρ ε → Prop} {bundles : List Source} {context : Context ρ ε}
    {workers capacity : Nat} {gathered : τ} {w : World ε} {worker : Worker ρ ε}
    (h : worker ∈ (start bundles context workers capacity gathered w : State ρ ε τ φ).workers) :
    worker.Holds P := by
  intro any hany
  rw [List.eq_of_mem_replicate h] at hany
  cases hany

omit [Ratio ρ] in
theorem quiet_start {context : Context ρ ε} (h : context.Quiet) (bundles : List Source)
    (workers capacity : Nat) (gathered : τ) (w : World ε) :
    (start bundles context workers capacity gathered w : State ρ ε τ φ).Quiet where
  sound := sound_start _ _ _ _ _ _
  context := ⟨h.formats, h.decoders⟩
  workers _ hworker := holds_start hworker
  flag := by
    show w.flags.cells.length < (w.flags.cells ++ [_]).length
    rw [List.length_append]
    exact Nat.lt_succ_self _

omit [Ratio ρ] in
theorem candid_start {context : Context ρ ε} (hquiet : context.Quiet) (h : context.Candid)
    (bundles : List Source) (workers capacity : Nat) (gathered : τ) (w : World ε) :
    (start bundles context workers capacity gathered w : State ρ ε τ φ).Candid :=
  ⟨quiet_start hquiet _ _ _ _ _, h, fun _ hworker => holds_start hworker⟩

/-- **A step of a read raises no flag but its own**, and that only once a worker has recorded a
failure or the consumer has refused an event. -/
theorem Acts.flags (hact : Acts receive s action s') (h : s.Quiet) (hne : action ≠ .interrupt) :
    s'.shared.world.flags = s.shared.world.flags ∨
      s'.shared.world.flags = s.shared.world.flags.raise s.shared.context.interrupt ∧
        (s.shared.firstFailure.isSome ∨ ∃ reason, s.consumer = .refusing reason) := by
  cases hact with
  | interrupt => exact absurd rfl hne
  | consumer hconsumes =>
    cases hconsumes with
    | stopped hconsumer => exact .inr ⟨rfl, .inr ⟨_, hconsumer⟩⟩
    | _ => exact .inl rfl
  | worker hsplit hmoves =>
    have hworker := h.workers _ (hsplit ▸ List.mem_append_right _ List.mem_cons_self)
    rcases hmoves.flags h.context hworker with hflags | ⟨rfl, rfl⟩
    · exact .inl hflags
    · refine .inr ⟨rfl, .inl (h.sound.recorded ?_)⟩
      rw [hsplit]
      exact List.mem_append_right _ List.mem_cons_self

theorem Acts.length_cells (hact : Acts receive s action s') (h : s.Quiet) :
    s'.shared.world.flags.cells.length = s.shared.world.flags.cells.length := by
  by_cases hne : action = .interrupt
  · subst hne
    cases hact
    exact Flags.length_raise
  · rcases hact.flags h hne with hflags | ⟨hflags, -⟩
    · rw [hflags]
    · rw [hflags]
      exact Flags.length_raise

theorem Quiet.act (h : s.Quiet) (hact : Acts receive s action s') : s'.Quiet where
  sound := h.sound.act hact
  context := hact.keeps.1.symm ▸ h.context
  workers other hother := by
    have hworkers := h.workers
    cases hact with
    | interrupt => exact hworkers other hother
    | consumer hconsumes => cases hconsumes <;> exact hworkers other hother
    | worker hsplit hmoves =>
      rw [hsplit] at hworkers
      rcases mem_replaced hother with rfl | hmem
      · exact hmoves.quiet h.context (hworkers _ (by simp))
      · exact hworkers other hmem
  flag := by
    rw [hact.keeps.1, hact.length_cells h]
    exact h.flag

theorem Candid.act (h : s.Candid) (hact : Acts receive s action s') : s'.Candid where
  toQuiet := h.toQuiet.act hact
  candid := hact.keeps.1.symm ▸ h.candid
  watching other hother := by
    have hworkers := h.watching
    rw [hact.keeps.1]
    cases hact with
    | interrupt => exact hworkers other hother
    | consumer hconsumes => cases hconsumes <;> exact hworkers other hother
    | worker hsplit hmoves =>
      rw [hsplit] at hworkers
      rcases mem_replaced hother with rfl | hmem
      · exact hmoves.candid h.context h.candid (hworkers _ (by simp))
      · exact hworkers other hmem

theorem Quiet.raised_act (h : s.Quiet) (hact : Acts receive s action s') {flag : Flag}
    (hraised : s.shared.world.isRaised flag = true) : s'.shared.world.isRaised flag = true := by
  by_cases hne : action = .interrupt
  · subst hne
    cases hact
    exact Flags.isRaised_raise hraised
  · unfold World.isRaised at hraised ⊢
    rcases hact.flags h hne with hflags | ⟨hflags, -⟩
    · rwa [hflags]
    · rw [hflags]
      exact Flags.isRaised_raise hraised

/-- the flag of the read is raised -/
def Stopped (s : State ρ ε τ φ) : Prop :=
  s.shared.world.isRaised s.shared.context.interrupt = true

theorem Stopped.act (h : s.Stopped) (hquiet : s.Quiet) (hact : Acts receive s action s') :
    s'.Stopped := by
  unfold Stopped at h ⊢
  rw [hact.keeps.1]
  exact hquiet.raised_act hact h

end State

/-! ## along a run -/

section
variable [Ratio ρ] {receive : Receive τ φ} {start s : State ρ ε τ φ}
  {history : List (Step ρ ε τ φ)}

theorem Run.quiet (h : Run receive start history s) (hstart : start.Quiet) : s.Quiet :=
  h.stable (fun hquiet hacts => hquiet.act hacts) hstart

theorem Run.candid (h : Run receive start history s) (hstart : start.Candid) : s.Candid :=
  h.stable (fun hcandid hacts => hcandid.act hacts) hstart

/-- **A step raises no flag but that of the read**, unless it is the caller's. -/
theorem Run.cells_of_mem (h : Run receive start history s) (hstart : start.Quiet)
    {step : Step ρ ε τ φ} (hstep : step ∈ history) (hne : step.action ≠ .interrupt) {i : Nat}
    (hi : i ≠ start.shared.context.interrupt.cell) :
    step.after.shared.world.flags.cells[i]? = step.before.shared.world.flags.cells[i]? := by
  obtain ⟨before, after, rfl⟩ := List.append_of_mem hstep
  obtain ⟨hrun, hact, -⟩ := h.split
  rcases (State.acts_of_act hact).flags (hrun.quiet hstart) hne with hflags | ⟨hflags, -⟩
  · rw [hflags]
  · rw [hflags, hrun.keeps.1]
    exact Flags.cells_raise_of_ne hi

/-- Without the caller, the flags are as they were but for that of the read. -/
theorem Run.cells (h : Run receive start history s) (hstart : start.Quiet)
    (hcaller : ∀ step ∈ history, step.action ≠ .interrupt) {i : Nat}
    (hi : i ≠ start.shared.context.interrupt.cell) :
    s.shared.world.flags.cells[i]? = start.shared.world.flags.cells[i]? := by
  induction h with
  | start => rfl
  | @step history s s' action hrun hact ih =>
    have hbefore := ih fun step hstep => hcaller step (List.mem_append_left _ hstep)
    have hlast : (⟨action, s, s'⟩ : Step ρ ε τ φ) ∈ history ++ [⟨action, s, s'⟩] :=
      List.mem_append_right _ List.mem_cons_self
    exact ((hrun.step hact).cells_of_mem hstart hlast (hcaller _ hlast) hi).trans hbefore

/-- **As long as nothing has failed and nothing was refused, no flag is raised.** -/
theorem Run.flags (h : Run receive start history s) (hstart : start.Quiet)
    (hcaller : ∀ step ∈ history, step.action ≠ .interrupt)
    (hfirst : s.shared.firstFailure = none) (hrefused : ∀ reason, ¬ s.Refused reason) :
    s.shared.world.flags = start.shared.world.flags := by
  induction h with
  | start => rfl
  | @step history s s' action hrun hact ih =>
    have hacts := State.acts_of_act hact
    -- a failure on record and a refusal stay, so there was neither before this step
    have hbefore : s.shared.firstFailure = none := by
      by_contra hsome
      obtain ⟨failure, hfailure⟩ := Option.ne_none_iff_exists'.1 hsome
      rw [hacts.firstFailure hfailure] at hfirst
      cases hfirst
    have hcalm : ∀ reason, ¬ s.Refused reason := fun reason h => hrefused reason (h.act hacts)
    have hflags := ih (fun step hstep => hcaller step (List.mem_append_left _ hstep)) hbefore hcalm
    have hne : action ≠ .interrupt :=
      hcaller ⟨action, s, s'⟩ (List.mem_append_right _ List.mem_cons_self)
    rcases hacts.flags (hrun.quiet hstart) hne with hsame | ⟨-, hsome | ⟨reason, hrefusing⟩⟩
    · exact hsame.trans hflags
    · rw [hbefore] at hsome
      cases hsome
    · exact absurd (.inl hrefusing) (hcalm reason)

end

end Splittable.Pool
