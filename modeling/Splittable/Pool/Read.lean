import Splittable.Pool.State

/-!
# Reading bundles

* `Summary`            the totals of a read;
* `Pool.receiveRecords`   the consumer that hands on each record and counts;
* `readBundles`        a read of bundles to its end;
* `collectEvents`      a read that gathers the events;
* `Source.readAll`     all records of a source.
-/

namespace Splittable

variable {ρ ε τ φ : Type}

/-- what was received so far -/
structure Summary where
  bundles : Nat
  records : Nat
deriving DecidableEq, Repr

/-- what a caller does with a record -/
abbrev OnRecord (τ φ : Type) := Pair → τ → Except φ Unit × τ

/-- Hand on each record, and count the records that were taken and the bundles that ended. -/
def Pool.receiveRecords (onRecord : OnRecord τ φ) : Receive (Summary × τ) φ
  | .record _ pair, (summary, total) =>
    match onRecord pair total with
    | (.ok (), total) => (.ok (), { summary with records := summary.records + 1 }, total)
    | (.error reason, total) => (.error reason, summary, total)
  | .finished _ _, (summary, total) =>
    (.ok (), { summary with bundles := summary.bundles + 1 }, total)

/-- The state in which a read of bundles starts. -/
def Pool.readState (bundles : List Source) (context : Context ρ ε) (threads : Threads)
    (requested : Option Nat) (total : τ) (w : World ε) : State ρ ε (Summary × τ) φ :=
  .start bundles context (threads.workersFor requested bundles.length) channelCapacity
    (⟨0, 0⟩, total) w

/-- After so many steps a read is given up. -/
def Pool.patience : Nat := 1 <<< 60

/-- what a read of bundles leaves behind -/
structure Reading (ε τ φ : Type) where
  /-- the totals, or why the read failed; absent where it was given up -/
  outcome : Option (Except (Pool.Failure φ) Summary)
  received : Summary
  total : τ
  world : World ε

/-- Read bundles with a pool of workers.  The records of one bundle come in the order of its
reader, those of different bundles in any order. -/
def readBundles [Ratio ρ] (bundles : List Source) (context : Context ρ ε) (threads : Threads)
    (requested : Option Nat) (onRecord : OnRecord τ φ) (total : τ) (w : World ε) :
    Reading ε τ φ :=
  let s := (Pool.readState bundles context threads requested total w).run
    (Pool.receiveRecords onRecord) Pool.patience
  { outcome := s.outcome?.map fun outcome => outcome.map fun gathered => gathered.1
    received := s.gathered.1
    total := s.gathered.2
    world := s.shared.world }

/-- the consumer that gathers all events, the newest first -/
def Pool.receiveEvents : Receive (List Event) Empty := fun event events => (.ok (), event :: events)

structure EventReading (ε : Type) where
  events : List Event
  firstFailure : Option BundleFailure
  /-- whether the flag of the read was raised -/
  stopped : Bool
  world : World ε

/-- Read bundles and gather the events as they arrive. -/
def collectEvents [Ratio ρ] (bundles : List Source) (context : Context ρ ε)
    (workers capacity : Nat) (w : World ε) : EventReading ε :=
  let s := (Pool.State.start bundles context workers capacity [] w).run Pool.receiveEvents
    Pool.patience
  { events := s.gathered.reverse
    firstFailure := s.shared.firstFailure
    stopped := s.shared.world.isRaised s.shared.context.interrupt
    world := s.shared.world }

/-- Gather all records, the newest first. -/
def Pool.gatherRecord : OnRecord (List Pair) Empty := fun pair pairs => (.ok (), pair :: pairs)

/-- why the records of a source could not be read -/
inductive ReadError
  | planning (error : SourceError)
  | bundle (failure : BundleFailure)
  /-- it was given up -/
  | endless

def ReadError.message : ReadError → String
  | .planning error => error.message
  | .bundle failure => failure.message
  | .endless => "the read did not come to an end"

/-- All records of a source, by a read of its bundles. -/
def Source.readAll [Ratio ρ] (source : Source) (desired : UInt64) (context : Context ρ ε)
    (threads : Threads) (requested : Option Nat) (w : World ε) :
    Except ReadError (List Pair) × World ε :=
  match source.bundles desired context w with
  | (.error e, w) => (.error (.planning e), w)
  | (.ok bundles, w) =>
    let reading := readBundles bundles context threads requested Pool.gatherRecord [] w
    let answer :=
      match reading.outcome with
      | none => .error .endless
      | some (.error (.bundle failure)) => .error (.bundle failure)
      | some (.error (.refused reason)) => reason.elim
      | some (.ok _) => .ok reading.total.reverse
    (answer, reading.world)

end Splittable
