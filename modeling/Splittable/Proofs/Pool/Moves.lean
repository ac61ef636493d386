import Splittable.Pool.State

/-!
# The steps of a read

Every step that a worker, the consumer or the caller can take, told once, so that what holds along
a run is shown step by step.

* `Worker.Moves`       the steps of a worker, each with what makes it possible;
* `State.Consumes`     the steps of the consumer;
* `State.Acts`         the steps of a read;
* `Worker.step_eq_none`   what keeps a worker from its next step.
-/

namespace Splittable.Pool

variable {ρ ε τ φ : Type} [Ratio ρ]

namespace Worker

/-- The steps of a worker: where it stood, where it stands then, and what is shared then. -/
inductive Moves (shared : Shared ρ ε) : Worker ρ ε → Worker ρ ε → Shared ρ ε → Prop
  | drained : shared.queue = [] → Moves shared .idle .gone shared
  | took {bundle : Bundle} {queue : List Bundle} : shared.queue = bundle :: queue →
      Moves shared .idle (.checking bundle) { shared with queue }
  | gaveUp {bundle : Bundle} : shared.firstFailure.isSome →
      Moves shared (.checking bundle) .gone shared
  | wentOn {bundle : Bundle} : shared.firstFailure = none →
      Moves shared (.checking bundle) (.starting bundle) shared
  | uncreated {bundle : Bundle} {error : SourceError} :
      bundle.source.createReader shared.context = .error error →
      Moves shared (.starting bundle) (.failing ⟨bundle, error⟩) shared
  | started {bundle : Bundle} {created : AnyReader ρ ε} {reader : Reader created.library}
      {w : World ε} {pair : Pair} :
      bundle.source.createReader shared.context = .ok created →
      created.reader.start shared.world = (.ok true, reader, w) → reader.current? = .ok pair →
      Moves shared (.starting bundle) (.sending bundle 0 pair ⟨created.library, reader⟩)
        { shared with world := w }
  | startedEmpty {bundle : Bundle} {created : AnyReader ρ ε} {reader : Reader created.library}
      {w : World ε} :
      bundle.source.createReader shared.context = .ok created →
      created.reader.start shared.world = (.ok false, reader, w) →
      Moves shared (.starting bundle) (.closing bundle 0 true ⟨created.library, reader⟩)
        { shared with world := w }
  | startFailed {bundle : Bundle} {created : AnyReader ρ ε} {reader : Reader created.library}
      {answer : Except SourceError Bool} {w : World ε} {error : SourceError} :
      bundle.source.createReader shared.context = .ok created →
      created.reader.start shared.world = (answer, reader, w) →
      answer = .error error ∨ answer = .ok true ∧ reader.current? = .error error →
      Moves shared (.starting bundle) (.failing ⟨bundle, error⟩)
        { shared with world := reader.drop w }
  | unheard {bundle : Bundle} {sent : Nat} {pair : Pair} {any : AnyReader ρ ε} :
      shared.listening = false →
      Moves shared (.sending bundle sent pair any) (.closing bundle sent false any) shared
  | sent {bundle : Bundle} {sent : Nat} {pair : Pair} {any : AnyReader ρ ε} :
      shared.listening = true → shared.hasRoom = true →
      Moves shared (.sending bundle sent pair any) (.advancing bundle (sent + 1) any)
        (shared.send (.record bundle.place pair))
  | advanced {bundle : Bundle} {sent : Nat} {any : AnyReader ρ ε} {reader : Reader any.library}
      {w : World ε} {pair : Pair} :
      any.reader.advance shared.world = (.ok true, reader, w) → reader.current? = .ok pair →
      Moves shared (.advancing bundle sent any) (.sending bundle sent pair ⟨any.library, reader⟩)
        { shared with world := w }
  | ended {bundle : Bundle} {sent : Nat} {any : AnyReader ρ ε} {reader : Reader any.library}
      {w : World ε} :
      any.reader.advance shared.world = (.ok false, reader, w) →
      Moves shared (.advancing bundle sent any) (.closing bundle sent true ⟨any.library, reader⟩)
        { shared with world := w }
  | advanceFailed {bundle : Bundle} {sent : Nat} {any : AnyReader ρ ε}
      {reader : Reader any.library} {answer : Except SourceError Bool} {w : World ε}
      {error : SourceError} :
      any.reader.advance shared.world = (answer, reader, w) →
      answer = .error error ∨ answer = .ok true ∧ reader.current? = .error error →
      Moves shared (.advancing bundle sent any) (.failing ⟨bundle, error⟩)
        { shared with world := reader.drop w }
  | closed {bundle : Bundle} {sent : Nat} {report : Bool} {any : AnyReader ρ ε}
      {reader : Reader any.library} {w : World ε} :
      any.reader.close shared.world = (.ok (), reader, w) →
      Moves shared (.closing bundle sent report any)
        (if report then .reporting bundle sent else .gone) { shared with world := reader.drop w }
  | closeFailed {bundle : Bundle} {sent : Nat} {report : Bool} {any : AnyReader ρ ε}
      {reader : Reader any.library} {w : World ε} {error : SourceError} :
      any.reader.close shared.world = (.error error, reader, w) →
      Moves shared (.closing bundle sent report any) (.failing ⟨bundle, error⟩)
        { shared with world := reader.drop w }
  | unreported {bundle : Bundle} {sent : Nat} : shared.listening = false →
      Moves shared (.reporting bundle sent) .gone shared
  | reported {bundle : Bundle} {sent : Nat} : shared.listening = true → shared.hasRoom = true →
      Moves shared (.reporting bundle sent) .idle (shared.send (.finished bundle.place sent))
  | recorded {failure : BundleFailure} :
      Moves shared (.failing failure) .stopping (shared.recordFailure failure)
  | stopped : Moves shared .stopping .gone shared.stop

variable {worker worker' : Worker ρ ε} {shared shared' : Shared ρ ε}

omit [Ratio ρ] in
/-- What becomes of a worker by the answer of its reader: it fails, ends or has a record to send. -/
theorem proceed_cases {library : Library ρ ε} (bundle : Bundle) (sent : Nat)
    (answer : Except SourceError Bool) (reader : Reader library) (w : World ε) :
    (∃ error, (answer = .error error ∨ answer = .ok true ∧ reader.current? = .error error) ∧
      proceed bundle sent shared (answer, reader, w) =
        (.failing ⟨bundle, error⟩, { shared with world := reader.drop w })) ∨
    (answer = .ok false ∧ proceed bundle sent shared (answer, reader, w) =
      (.closing bundle sent true ⟨library, reader⟩, { shared with world := w })) ∨
    ∃ pair, answer = .ok true ∧ reader.current? = .ok pair ∧
      proceed bundle sent shared (answer, reader, w) =
        (.sending bundle sent pair ⟨library, reader⟩, { shared with world := w }) := by
  rcases answer with error | _ | _
  · exact .inl ⟨error, .inl rfl, rfl⟩
  · exact .inr (.inl ⟨rfl, rfl⟩)
  · unfold proceed
    dsimp only
    cases hcurrent : reader.current? with
    | error error => exact .inl ⟨error, .inr ⟨rfl, rfl⟩, rfl⟩
    | ok pair => exact .inr (.inr ⟨pair, rfl, rfl, rfl⟩)

theorem moves_of_step (h : worker.step shared = some (worker', shared')) :
    Moves shared worker worker' shared' := by
  cases worker with
  | idle =>
    unfold step at h
    cases hqueue : shared.queue with
    | nil =>
      rw [hqueue] at h
      cases h
      exact .drained hqueue
    | cons bundle queue =>
      rw [hqueue] at h
      cases h
      exact .took hqueue
  | checking bundle =>
    unfold step at h
    cases hfailure : shared.firstFailure with
    | none =>
      rw [hfailure] at h
      cases h
      exact .wentOn hfailure
    | some failure =>
      rw [hfailure] at h
      cases h
      exact .gaveUp (by rw [hfailure]; rfl)
  | starting bundle =>
    unfold step at h
    dsimp only at h
    cases hcreate : bundle.source.createReader shared.context with
    | error error =>
      rw [hcreate] at h
      cases h
      exact .uncreated hcreate
    | ok created =>
      rw [hcreate] at h
      dsimp only at h
      rcases hstart : created.reader.start shared.world with ⟨answer, reader, w⟩
      rw [hstart] at h
      rcases proceed_cases bundle 0 answer reader w with
        ⟨error, hanswer, heq⟩ | ⟨rfl, heq⟩ | ⟨pair, rfl, hcurrent, heq⟩
      · cases h.symm.trans (congrArg some heq)
        exact .startFailed hcreate hstart hanswer
      · cases h.symm.trans (congrArg some heq)
        exact .startedEmpty hcreate hstart
      · cases h.symm.trans (congrArg some heq)
        exact .started hcreate hstart hcurrent
  | sending bundle sent pair any =>
    unfold step at h
    dsimp only at h
    cases hlistening : shared.listening with
    | false =>
      rw [hlistening] at h
      cases h
      exact .unheard hlistening
    | true =>
      rw [hlistening] at h
      cases hroom : shared.hasRoom with
      | false =>
        rw [hroom] at h
        cases h
      | true =>
        rw [hroom] at h
        cases h
        exact .sent hlistening hroom
  | advancing bundle sent any =>
    unfold step at h
    dsimp only at h
    rcases hadvance : any.reader.advance shared.world with ⟨answer, reader, w⟩
    rw [hadvance] at h
    rcases proceed_cases bundle sent answer reader w with
      ⟨error, hanswer, heq⟩ | ⟨rfl, heq⟩ | ⟨pair, rfl, hcurrent, heq⟩
    · cases h.symm.trans (congrArg some heq)
      exact .advanceFailed hadvance hanswer
    · cases h.symm.trans (congrArg some heq)
      exact .ended hadvance
    · cases h.symm.trans (congrArg some heq)
      exact .advanced hadvance hcurrent
  | closing bundle sent report any =>
    unfold step at h
    dsimp only at h
    rcases hclose : any.reader.close shared.world with ⟨answer, reader, w⟩
    rw [hclose] at h
    rcases answer with error | _
    · cases h
      exact .closeFailed hclose
    · cases h
      exact .closed hclose
  | reporting bundle sent =>
    unfold step at h
    dsimp only at h
    cases hlistening : shared.listening with
    | false =>
      rw [hlistening] at h
      cases h
      exact .unreported hlistening
    | true =>
      rw [hlistening] at h
      cases hroom : shared.hasRoom with
      | false =>
        rw [hroom] at h
        cases h
      | true =>
        rw [hroom] at h
        cases h
        exact .reported hlistening hroom
  | failing failure =>
    cases h
    exact .recorded
  | stopping =>
    cases h
    exact .stopped
  | gone => cases h

/-- A worker that is not gone waits for nothing but room in the channel. -/
theorem of_step_eq_none (h : worker.step shared = none) :
    worker = .gone ∨ shared.listening = true ∧ shared.hasRoom = false := by
  cases worker with
  | idle =>
    unfold step at h
    cases hqueue : shared.queue with
    | nil => rw [hqueue] at h; cases h
    | cons bundle queue => rw [hqueue] at h; cases h
  | checking bundle =>
    unfold step at h
    dsimp only at h
    split at h
    · cases h
    · cases h
  | starting bundle =>
    unfold step at h
    dsimp only at h
    cases hcreate : bundle.source.createReader shared.context with
    | error error => rw [hcreate] at h; cases h
    | ok created => rw [hcreate] at h; cases h
  | sending bundle sent pair any =>
    unfold step at h
    dsimp only at h
    cases hlistening : shared.listening with
    | false => rw [hlistening] at h; cases h
    | true =>
      cases hroom : shared.hasRoom with
      | false => exact .inr ⟨rfl, rfl⟩
      | true => rw [hlistening, hroom] at h; cases h
  | advancing bundle sent any => cases h
  | closing bundle sent report any =>
    unfold step at h
    dsimp only at h
    rcases hclose : any.reader.close shared.world with ⟨answer, reader, w⟩
    rw [hclose] at h
    rcases answer with error | _
    · cases h
    · cases h
  | reporting bundle sent =>
    unfold step at h
    dsimp only at h
    cases hlistening : shared.listening with
    | false => rw [hlistening] at h; cases h
    | true =>
      cases hroom : shared.hasRoom with
      | false => exact .inr ⟨rfl, rfl⟩
      | true => rw [hlistening, hroom] at h; cases h
  | failing failure => cases h
  | stopping => cases h
  | gone => exact .inl rfl

/-! ## what no step of a worker changes -/

section
variable {worker worker' : Worker ρ ε} {shared shared' : Shared ρ ε}

theorem Moves.context (h : Moves shared worker worker' shared') :
    shared'.context = shared.context := by
  cases h <;> rfl

theorem Moves.capacity (h : Moves shared worker worker' shared') :
    shared'.capacity = shared.capacity := by
  cases h <;> rfl

theorem Moves.listening (h : Moves shared worker worker' shared') :
    shared'.listening = shared.listening := by
  cases h <;> rfl

theorem Moves.ne_gone (h : Moves shared worker worker' shared') : worker ≠ .gone := by
  rintro rfl
  cases h

theorem Moves.firstFailure (h : Moves shared worker worker' shared') {failure : BundleFailure}
    (hfirst : shared.firstFailure = some failure) : shared'.firstFailure = some failure := by
  cases h with
  | recorded =>
    show shared.firstFailure.or _ = _
    rw [hfirst]
    rfl
  | _ => exact hfirst

theorem Moves.recorded_of_stopping (h : Moves shared worker .stopping shared') :
    shared'.firstFailure.isSome := by
  generalize hworker : Worker.stopping = worker' at h
  cases h with
  | recorded =>
    show (shared.firstFailure.or _).isSome = true
    cases shared.firstFailure with
    | none => rfl
    | some failure => rfl
  | closed => split at hworker <;> cases hworker
  | _ => cases hworker

end

end Worker

namespace State

variable {receive : Receive τ φ} {s s' : State ρ ε τ φ}

omit [Ratio ρ] in
/-- The steps of the consumer. -/
inductive Consumes (receive : Receive τ φ) (s : State ρ ε τ φ) : State ρ ε τ φ → Prop
  | received {event : Event} {channel : List Event} {gathered : τ} :
      s.consumer = .receiving → s.shared.channel = event :: channel →
      receive event s.gathered = (.ok (), gathered) →
      Consumes receive s { s with shared := { s.shared with channel }, gathered }
  | refused {event : Event} {channel : List Event} {gathered : τ} {reason : φ} :
      s.consumer = .receiving → s.shared.channel = event :: channel →
      receive event s.gathered = (.error reason, gathered) →
      Consumes receive s
        { s with
          shared := { s.shared with channel }
          gathered
          consumer := .refusing reason }
  | drained : s.consumer = .receiving → s.shared.channel = [] → s.allGone = true →
      Consumes receive s { s with consumer := .leaving none }
  | stopped {reason : φ} : s.consumer = .refusing reason →
      Consumes receive s { s with shared := s.shared.stop, consumer := .leaving (some reason) }
  | left {reason : Option φ} : s.consumer = .leaving reason →
      Consumes receive s
        { s with shared := { s.shared with listening := false }, consumer := .waiting reason }

/-- The steps of a read. -/
inductive Acts (receive : Receive τ φ) (s : State ρ ε τ φ) : Action → State ρ ε τ φ → Prop
  | worker {before after : List (Worker ρ ε)} {worker worker' : Worker ρ ε}
      {shared : Shared ρ ε} : s.workers = before ++ worker :: after →
      Worker.Moves s.shared worker worker' shared →
      Acts receive s (.worker before.length)
        { s with shared, workers := before ++ worker' :: after }
  | consumer {s' : State ρ ε τ φ} : Consumes receive s s' → Acts receive s .consumer s'
  | interrupt : Acts receive s .interrupt
      { s with shared := { s.shared with world := s.shared.world.raise s.caller } }

omit [Ratio ρ] in
theorem consumes_of_consume (h : s.consume receive = some s') : Consumes receive s s' := by
  unfold consume at h
  cases hconsumer : s.consumer with
  | receiving =>
    rw [hconsumer] at h
    cases hchannel : s.shared.channel with
    | nil =>
      rw [hchannel] at h
      cases hgone : s.allGone with
      | false => rw [hgone] at h; cases h
      | true =>
        rw [hgone] at h
        cases h
        exact .drained hconsumer hchannel hgone
    | cons event channel =>
      rw [hchannel] at h
      dsimp only at h
      rcases hreceive : receive event s.gathered with ⟨reason | _, gathered⟩
      · rw [hreceive] at h
        cases h
        exact .refused hconsumer hchannel hreceive
      · rw [hreceive] at h
        cases h
        have hreceived := Consumes.received hconsumer hchannel hreceive
        rw [hconsumer] at hreceived
        exact hreceived
  | refusing reason =>
    rw [hconsumer] at h
    cases h
    exact .stopped hconsumer
  | leaving reason =>
    rw [hconsumer] at h
    cases h
    exact .left hconsumer
  | waiting reason =>
    rw [hconsumer] at h
    cases h

/-- **What a step of a read does.** -/
theorem acts_of_act {action : Action} (h : s.act receive action = some s') :
    Acts receive s action s' := by
  cases action with
  | consumer => exact .consumer (consumes_of_consume h)
  | interrupt =>
    cases h
    exact .interrupt
  | worker i =>
    unfold act at h
    dsimp only at h
    cases hworker : s.workers[i]? with
    | none =>
      rw [hworker] at h
      cases h
    | some worker =>
      rw [hworker] at h
      obtain ⟨⟨worker', shared⟩, hstep, rfl⟩ := Option.map_eq_some_iff.1 h
      obtain ⟨hi, hget⟩ := List.getElem?_eq_some_iff.1 hworker
      have hsplit : s.workers = s.workers.take i ++ worker :: s.workers.drop (i + 1) := by
        rw [← hget, List.getElem_cons_drop, List.take_append_drop]
      have hlength : (s.workers.take i).length = i := by
        rw [List.length_take]
        omega
      have hset : s.workers.set i worker' =
          s.workers.take i ++ worker' :: s.workers.drop (i + 1) :=
        List.set_eq_take_append_cons_drop.trans (if_pos hi)
      have hacts : Acts receive s (.worker (s.workers.take i).length)
          { s with shared, workers := s.workers.take i ++ worker' :: s.workers.drop (i + 1) } :=
        .worker hsplit (Worker.moves_of_step hstep)
      rw [hlength] at hacts
      dsimp only
      rw [hset]
      exact hacts

end State

end Splittable.Pool
