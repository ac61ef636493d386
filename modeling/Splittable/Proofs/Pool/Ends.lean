import Splittable.Proofs.Pool.Flags
import Mathlib.Algebra.GroupWithZero.Nat

/-!
# How long a read goes on

Two measures fall with every step of a read.  After a refusal nothing is received any more, and the
room in the channel runs out; once the flag of the read is raised, no reader has another record.

* `own`                 the steps of a run that are not the caller's;
* `Worker.rank`, `State.rank`       the measure after a refusal;
* `Worker.weight`, `State.weight`   the measure once the flag of the read is raised;
* `Run.length_own_of_refused`, `Run.length_own_of_raised`   bounds on the steps that are left.
-/

namespace Splittable.Pool

variable {ρ ε τ φ : Type}

/-- the steps that are not the caller's -/
def own (history : List (Step ρ ε τ φ)) : List (Step ρ ε τ φ) :=
  history.filter fun step => step.action ≠ .interrupt

theorem own_concat (history : List (Step ρ ε τ φ)) (step : Step ρ ε τ φ) :
    (own (history ++ [step])).length =
      (own history).length + if step.action = .interrupt then 0 else 1 := by
  unfold own
  rw [List.filter_append, List.length_append]
  by_cases h : step.action = .interrupt
  · simp [h]
  · simp [h]

/-- **A measure that falls with every step but those of the caller bounds the steps that are
left.** -/
theorem Run.length_own_le [Ratio ρ] {receive : Receive τ φ} {start s : State ρ ε τ φ}
    {history : List (Step ρ ε τ φ)} (P : State ρ ε τ φ → Prop) (measure : State ρ ε τ φ → Nat)
    (h : Run receive start history s) (hstart : P start)
    (hkeep : ∀ {s s' action}, P s → State.Acts receive s action s' → P s')
    (hfall : ∀ {s s' action}, P s → State.Acts receive s action s' →
      measure s' + (if action = .interrupt then 0 else 1) ≤ measure s) :
    P s ∧ (own history).length + measure s ≤ measure start := by
  induction h with
  | start => exact ⟨hstart, Nat.le_of_eq (Nat.zero_add _)⟩
  | @step history s s' action _ hact ih =>
    obtain ⟨hP, hle⟩ := ih
    have hacts := State.acts_of_act hact
    have hless := hfall hP hacts
    refine ⟨hkeep hP hacts, ?_⟩
    rw [own_concat]
    dsimp only at hless ⊢
    omega

/-- how many of its steps the consumer has before it -/
def Consumer.rank : Consumer φ → Nat
  | .receiving => 3
  | .refusing _ => 2
  | .leaving _ => 1
  | .waiting _ => 0

theorem sum_map_replaced (f : Worker ρ ε → Nat) (before after : List (Worker ρ ε))
    (worker : Worker ρ ε) : ((before ++ worker :: after).map f).sum =
      (before.map f).sum + f worker + (after.map f).sum := by
  rw [List.map_append, List.map_cons, List.sum_append, List.sum_cons, Nat.add_assoc]

theorem sum_map_le {f : Worker ρ ε → Nat} {bound : Nat} (h : ∀ worker, f worker ≤ bound)
    (workers : List (Worker ρ ε)) : (workers.map f).sum ≤ bound * workers.length := by
  induction workers with
  | nil => exact Nat.le_refl 0
  | cons worker workers ih =>
    have hworker := h worker
    rw [List.map_cons, List.sum_cons, List.length_cons, Nat.mul_succ]
    omega

/-! ## after a refusal -/

/-- how many events the channel still takes -/
def Shared.room (shared : Shared ρ ε) : Nat := max shared.capacity 1 - shared.channel.length

theorem Shared.room_send {shared : Shared ρ ε} (h : shared.hasRoom = true) (event : Event) :
    (shared.send event).room + 1 = shared.room := by
  have hroom : shared.channel.length < max shared.capacity 1 := of_decide_eq_true h
  show max shared.capacity 1 - (shared.channel ++ [event]).length + 1 = _
  rw [List.length_append, List.length_singleton]
  unfold room
  omega

namespace Worker

/-- The steps that a worker takes from one event to the next, so that sending one costs less than
the room it takes. -/
def rank : Worker ρ ε → Nat
  | .idle => 8
  | .checking _ => 7
  | .starting _ => 6
  | .advancing _ _ _ => 6
  | .sending _ _ _ _ => 5
  | .closing _ _ _ _ => 4
  | .reporting _ _ => 3
  | .failing _ => 2
  | .stopping => 1
  | .gone => 0

theorem rank_le (worker : Worker ρ ε) : worker.rank ≤ 8 := by
  cases worker <;> exact Nat.le_of_ble_eq_true rfl

variable [Ratio ρ] {worker worker' : Worker ρ ε} {shared shared' : Shared ρ ε}

theorem Moves.rank_lt (h : Moves shared worker worker' shared') :
    worker'.rank + 6 * shared'.room < worker.rank + 6 * shared.room := by
  have hsame : worker'.rank < worker.rank → shared'.room = shared.room →
      worker'.rank + 6 * shared'.room < worker.rank + 6 * shared.room := by
    intro hlt hroom
    rw [hroom]
    omega
  cases h with
  | @sent bundle _ pair _ _ hroom =>
    have hless := Shared.room_send hroom (.record bundle.place pair)
    show 6 + _ < 5 + _
    omega
  | @reported bundle sent _ hroom =>
    have hless := Shared.room_send hroom (.finished bundle.place sent)
    show 8 + _ < 3 + _
    omega
  | @closed _ _ report _ _ _ _ =>
    cases report with
    | false => exact hsame (Nat.lt_of_sub_eq_succ rfl) rfl
    | true => exact hsame (Nat.lt_of_sub_eq_succ rfl) rfl
  | _ => exact hsame (Nat.lt_of_sub_eq_succ rfl) rfl

end Worker

namespace State

def rank (s : State ρ ε τ φ) : Nat :=
  s.consumer.rank + (s.workers.map Worker.rank).sum + 6 * s.shared.room

theorem rank_le_of_refused {s : State ρ ε τ φ} {reason : φ} (h : s.Refused reason) :
    s.rank ≤ 2 + 8 * s.workers.length + 6 * max s.shared.capacity 1 := by
  have hconsumer : s.consumer.rank ≤ 2 := by
    rcases h with h | h | h
    · rw [h]
      exact Nat.le_refl 2
    · rw [h]
      exact Nat.le_succ 1
    · rw [h]
      exact Nat.zero_le 2
  have hworkers := sum_map_le Worker.rank_le s.workers
  have hroom : s.shared.room ≤ max s.shared.capacity 1 := Nat.sub_le _ _
  unfold rank
  omega

variable [Ratio ρ] {receive : Receive τ φ} {s s' : State ρ ε τ φ} {action : Action}

theorem Refused.rank_act {reason : φ} (h : s.Refused reason) (hact : Acts receive s action s') :
    s'.rank + (if action = .interrupt then 0 else 1) ≤ s.rank := by
  cases hact with
  | interrupt => exact Nat.le_refl _
  | @worker _ _ _ _ shared hworkers hmoves =>
    have hless := hmoves.rank_lt
    unfold rank
    rw [hworkers, sum_map_replaced, sum_map_replaced, if_neg (fun h => Action.noConfusion h)]
    show s.consumer.rank + _ + 6 * shared.room + 1 ≤ _
    omega
  | consumer hconsumes =>
    rw [if_neg (fun h => Action.noConfusion h)]
    unfold Refused at h
    unfold rank
    cases hconsumes with
    | received hconsumer _ _ => simp [hconsumer] at h
    | refused hconsumer _ _ => simp [hconsumer] at h
    | drained hconsumer _ _ => simp [hconsumer] at h
    | stopped hconsumer =>
      rw [hconsumer]
      show 1 + (s.workers.map Worker.rank).sum + 6 * s.shared.room + 1 ≤ 2 + _ + _
      omega
    | left hconsumer =>
      rw [hconsumer]
      show 0 + (s.workers.map Worker.rank).sum + 6 * s.shared.room + 1 ≤ 1 + _ + _
      omega

end State

/-- **After a refusal a read has only so many steps left**, whatever the workers are at. -/
theorem Run.length_own_of_refused [Ratio ρ] {receive : Receive τ φ} {start s : State ρ ε τ φ}
    {history : List (Step ρ ε τ φ)} {reason : φ} (h : Run receive start history s)
    (hstart : start.Refused reason) :
    (own history).length ≤ 2 + 8 * start.workers.length + 6 * max start.shared.capacity 1 := by
  have hle := (Run.length_own_le (fun s => s.Refused reason) State.rank h hstart
    (fun hrefused hacts => hrefused.act hacts) fun hrefused hacts => hrefused.rank_act hacts).2
  have hbound := State.rank_le_of_refused hstart
  omega

/-! ## once the flag is raised -/

/-- The events on their way, and the bundles that are still in the queue, each with what it costs
to take one. -/
def Shared.load (shared : Shared ρ ε) : Nat := shared.channel.length + 6 * shared.queue.length

theorem Shared.load_send (shared : Shared ρ ε) (event : Event) :
    (shared.send event).load = shared.load + 1 := by
  show (shared.channel ++ [event]).length + 6 * shared.queue.length = _
  rw [List.length_append, List.length_singleton]
  unfold load
  omega

namespace Worker

/-- The steps that a worker takes until it is idle or gone, an event that it sends counting for
one more. -/
def weight : Worker ρ ε → Nat
  | .sending _ _ _ _ => 7
  | .checking _ => 6
  | .starting _ => 5
  | .advancing _ _ _ => 5
  | .closing _ _ _ _ => 4
  | .reporting _ _ => 3
  | .failing _ => 2
  | .stopping => 1
  | .idle => 1
  | .gone => 0

theorem weight_le (worker : Worker ρ ε) : worker.weight ≤ 7 := by
  cases worker <;> exact Nat.le_of_ble_eq_true rfl

variable [Ratio ρ] {worker worker' : Worker ρ ε} {shared shared' : Shared ρ ε}

theorem Moves.weight_lt (h : Moves shared worker worker' shared') (hquiet : shared.context.Quiet)
    (hcontext : shared.context.Candid) (hworker : worker.Candid shared.context.interrupt)
    (hraised : shared.world.isRaised shared.context.interrupt = true) :
    worker'.weight + shared'.load < worker.weight + shared.load := by
  have hsame : worker'.weight < worker.weight → shared'.load = shared.load →
      worker'.weight + shared'.load < worker.weight + shared.load := by
    intro hlt hload
    rw [hload]
    omega
  cases h with
  | @took bundle queue hqueue =>
    show 6 + (shared.channel.length + 6 * queue.length) < 1 + (shared.channel.length + 6 * _)
    rw [hqueue, List.length_cons]
    omega
  | started hcreate hstart _ =>
    -- the flag is raised, so the reader cannot have answered a record
    obtain ⟨hlibrary, hdecoders⟩ := hquiet.created hcreate
    obtain ⟨watches, hwatches, hwatching, hflag⟩ := hcontext.created hcreate
    have hmore := Reader.start_of_raised hwatches hlibrary _ shared.world hwatching
      (hflag.symm ▸ hraised) hdecoders
    rw [hstart] at hmore
    exact absurd rfl hmore
  | advanced hadvance _ =>
    obtain ⟨hlibrary, watches, hwatches, hwatching, hflag⟩ := hworker _ rfl
    have hmore := Reader.advance_of_raised hwatches hlibrary _ shared.world hwatching
      (hflag.symm ▸ hraised)
    rw [hadvance] at hmore
    exact absurd rfl hmore
  | @sent bundle _ pair _ _ _ =>
    rw [Shared.load_send]
    show 5 + _ < 7 + _
    omega
  | @reported bundle sent _ _ =>
    rw [Shared.load_send]
    show 1 + _ < 3 + _
    omega
  | @closed _ _ report _ _ _ _ =>
    cases report with
    | false => exact hsame (Nat.lt_of_sub_eq_succ rfl) rfl
    | true => exact hsame (Nat.lt_of_sub_eq_succ rfl) rfl
  | _ => exact hsame (Nat.lt_of_sub_eq_succ rfl) rfl

end Worker

namespace State

def weight (s : State ρ ε τ φ) : Nat :=
  s.consumer.rank + (s.workers.map Worker.weight).sum + s.shared.load

theorem weight_le (s : State ρ ε τ φ) :
    s.weight ≤ 3 + 7 * s.workers.length + s.shared.channel.length + 6 * s.shared.queue.length := by
  have hconsumer : s.consumer.rank ≤ 3 := by
    cases s.consumer <;> exact Nat.le_of_ble_eq_true rfl
  have hworkers := sum_map_le Worker.weight_le s.workers
  unfold weight Shared.load
  omega

variable [Ratio ρ] {receive : Receive τ φ} {s s' : State ρ ε τ φ} {action : Action}

theorem Stopped.weight_act (h : s.Stopped) (hcandid : s.Candid) (hact : Acts receive s action s') :
    s'.weight + (if action = .interrupt then 0 else 1) ≤ s.weight := by
  cases hact with
  | interrupt => exact Nat.le_refl _
  | @worker _ _ _ _ shared hworkers hmoves =>
    have hworker := hcandid.watching _ (hworkers ▸ List.mem_append_right _ List.mem_cons_self)
    have hless := hmoves.weight_lt hcandid.context hcandid.candid hworker h
    unfold weight
    rw [hworkers, sum_map_replaced, sum_map_replaced, if_neg (fun h => Action.noConfusion h)]
    show s.consumer.rank + _ + shared.load + 1 ≤ _
    omega
  | consumer hconsumes =>
    rw [if_neg (fun h => Action.noConfusion h)]
    unfold weight Shared.load
    cases hconsumes with
    | @received _ channel _ _ hchannel _ =>
      rw [hchannel, List.length_cons]
      show _ + (channel.length + 6 * s.shared.queue.length) + 1 ≤ _
      dsimp only
      omega
    | @refused _ channel _ _ hconsumer hchannel _ =>
      rw [hconsumer, hchannel, List.length_cons]
      show 2 + _ + (channel.length + 6 * s.shared.queue.length) + 1 ≤ 3 + _ + _
      dsimp only
      omega
    | drained hconsumer _ _ =>
      rw [hconsumer]
      show 1 + _ + _ + 1 ≤ 3 + _ + _
      dsimp only
      omega
    | stopped hconsumer =>
      rw [hconsumer]
      show 1 + (s.workers.map Worker.weight).sum +
        (s.shared.channel.length + 6 * s.shared.queue.length) + 1 ≤ 2 + _ + _
      omega
    | left hconsumer =>
      rw [hconsumer]
      show 0 + (s.workers.map Worker.weight).sum +
        (s.shared.channel.length + 6 * s.shared.queue.length) + 1 ≤ 1 + _ + _
      omega

end State

/-- **Once the flag of a read is raised, the read has only so many steps left**, where its
libraries watch the flag. -/
theorem Run.length_own_of_raised [Ratio ρ] {receive : Receive τ φ} {start s : State ρ ε τ φ}
    {history : List (Step ρ ε τ φ)} (h : Run receive start history s) (hstart : start.Candid)
    (hraised : start.Stopped) :
    (own history).length ≤ 3 + 7 * start.workers.length + start.shared.channel.length +
      6 * start.shared.queue.length := by
  have hle := (Run.length_own_le (fun s => s.Candid ∧ s.Stopped) State.weight h ⟨hstart, hraised⟩
    (fun h hacts => ⟨h.1.act hacts, h.2.act h.1.toQuiet hacts⟩)
    fun h hacts => h.2.weight_act h.1 hacts).2
  have hbound := start.weight_le
  omega

end Splittable.Pool
