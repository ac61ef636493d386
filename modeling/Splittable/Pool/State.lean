import Splittable.Pool.Worker

/-!
# Reads as state machines

The state of a read is what its workers and its consumer share, and where each of them stands.
They take their steps in any order, and the caller may raise a flag at any moment.

* `State`, `State.start`   the state, and the one a read starts from;
* `Action`, `State.act`    one step, by whom it is taken;
* `State.next?`, `State.run`   one of the possible orders;
* `State.outcome?`         the answer of a read that has come to its end.
-/

namespace Splittable.Pool

variable {ρ ε τ φ : Type}

/-- Where the consumer stands. -/
inductive Consumer (φ : Type)
  | receiving
  /-- it refused an event, and is about to raise the flag of the read -/
  | refusing (reason : φ)
  /-- about to stop listening -/
  | leaving (reason : Option φ)
  /-- waiting for the workers to go -/
  | waiting (reason : Option φ)
deriving DecidableEq

/-- The consumer gathers a value of type `τ` from the events and may refuse one for a reason of
type `φ`. -/
structure State (ρ ε τ φ : Type) where
  shared : Shared ρ ε
  workers : List (Worker ρ ε)
  consumer : Consumer φ
  gathered : τ
  /-- the flag of the caller, under which that of the read was made -/
  caller : Flag

/-- what a consumer does with an event -/
abbrev Receive (τ φ : Type) := Event → τ → Except φ Unit × τ

inductive Action
  | worker (i : Nat)
  | consumer
  | interrupt
deriving DecidableEq, Repr

namespace State

/-- The workers read under a flag of their own, so stopping them leaves the caller's flag alone. -/
def start (bundles : List Source) (context : Context ρ ε) (workers capacity : Nat)
    (gathered : τ) (w : World ε) : State ρ ε τ φ :=
  let (stop, flags) := w.flags.child context.interrupt
  { shared :=
      { context := { context with interrupt := stop }
        queue := Bundle.number bundles
        channel := []
        capacity
        listening := true
        firstFailure := none
        world := { w with flags } }
    workers := List.replicate workers .idle
    consumer := .receiving
    gathered
    caller := context.interrupt }

def allGone (s : State ρ ε τ φ) : Bool := s.workers.all Worker.isGone

/-- the step of the consumer; it has none while the channel is empty and a worker is there -/
def consume (receive : Receive τ φ) (s : State ρ ε τ φ) : Option (State ρ ε τ φ) :=
  match s.consumer with
  | .receiving =>
    match s.shared.channel with
    | event :: channel =>
      let shared := { s.shared with channel }
      match receive event s.gathered with
      | (.ok (), gathered) => some { s with shared, gathered }
      | (.error reason, gathered) =>
        some { s with shared, gathered, consumer := .refusing reason }
    | [] => if s.allGone then some { s with consumer := .leaving none } else none
  | .refusing reason => some { s with shared := s.shared.stop, consumer := .leaving (some reason) }
  | .leaving reason =>
    some { s with shared := { s.shared with listening := false }, consumer := .waiting reason }
  | .waiting _ => none

def act [Ratio ρ] (receive : Receive τ φ) (action : Action) (s : State ρ ε τ φ) :
    Option (State ρ ε τ φ) :=
  match action with
  | .consumer => s.consume receive
  | .worker i =>
    match s.workers[i]? with
    | none => none
    | some worker =>
      (worker.step s.shared).map fun (worker, shared) =>
        { s with shared, workers := s.workers.set i worker }
  | .interrupt =>
    some { s with shared := { s.shared with world := s.shared.world.raise s.caller } }

/-! ## one order of the steps -/

/-- the step of the first worker from the `i`th on that has one -/
def stepWorker [Ratio ρ] (receive : Receive τ φ) (s : State ρ ε τ φ) :
    (i count : Nat) → Option (State ρ ε τ φ)
  | _, 0 => none
  | i, count + 1 =>
    match s.act receive (.worker i) with
    | some s => some s
    | none => stepWorker receive s (i + 1) count

/-- The consumer goes before the workers, and these by their number. -/
def next? [Ratio ρ] (receive : Receive τ φ) (s : State ρ ε τ φ) : Option (State ρ ε τ φ) :=
  match s.act receive .consumer with
  | some s => some s
  | none => s.stepWorker receive 0 s.workers.length

def run [Ratio ρ] (receive : Receive τ φ) : (fuel : Nat) → State ρ ε τ φ → State ρ ε τ φ
  | 0, s => s
  | fuel + 1, s =>
    match s.next? receive with
    | none => s
    | some s => run receive fuel s

/-! ## the answer -/

/-- the consumer waits, and all workers are gone -/
def isOver (s : State ρ ε τ φ) : Bool :=
  match s.consumer with
  | .waiting _ => s.allGone
  | _ => false

end State

/-- why a read failed -/
inductive Failure (φ : Type)
  /-- the consumer refused an event -/
  | refused (reason : φ)
  | bundle (failure : BundleFailure)

/-- The answer of a read that is over.  A refusal counts more than the failure of a bundle. -/
def State.outcome? (s : State ρ ε τ φ) : Option (Except (Failure φ) τ) :=
  match s.consumer with
  | .waiting reason =>
    if s.allGone then
      match reason, s.shared.firstFailure with
      | some reason, _ => some (.error (.refused reason))
      | none, some failure => some (.error (.bundle failure))
      | none, none => some (.ok s.gathered)
    else none
  | _ => none

end Splittable.Pool
