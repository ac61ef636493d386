import Splittable.Pool.Basic

/-!
# Workers

A worker takes a bundle from the queue, reads it with a reader of its own, sends each record and
the end of the bundle, and takes the next one.  It goes when the queue is empty, when a bundle
failed, its own or another worker's, or when nobody listens any more.

A whole call of a reader is one step.  No flag goes up inside a call, then, and no file changes
there, although a reader looks at its flag more than once in a call.

* `Shared`        what the workers and the consumer of a read share;
* `Worker`        where a worker stands;
* `Worker.step`   its next step, where it has one.
-/

namespace Splittable.Pool

variable {ρ ε : Type}

structure Shared (ρ ε : Type) where
  /-- the context of the read; its flag is the read's own -/
  context : Context ρ ε
  /-- the bundles that no worker has taken, in order -/
  queue : List Bundle
  /-- the events on their way, the oldest first -/
  channel : List Event
  capacity : Nat
  /-- whether the consumer still receives -/
  listening : Bool
  /-- the first failure that a worker recorded -/
  firstFailure : Option BundleFailure
  world : World ε

inductive Worker (ρ ε : Type)
  /-- about to take a bundle -/
  | idle
  /-- about to look whether a bundle failed -/
  | checking (bundle : Bundle)
  /-- about to start reading -/
  | starting (bundle : Bundle)
  /-- about to send a record, `sent` of them being sent before -/
  | sending (bundle : Bundle) (sent : Nat) (pair : Pair) (reader : AnyReader ρ ε)
  /-- about to go to the next record -/
  | advancing (bundle : Bundle) (sent : Nat) (reader : AnyReader ρ ε)
  /-- about to close the reader, and then to report the end or to go -/
  | closing (bundle : Bundle) (sent : Nat) (report : Bool) (reader : AnyReader ρ ε)
  /-- about to send the end of the bundle -/
  | reporting (bundle : Bundle) (sent : Nat)
  /-- about to record why the bundle failed -/
  | failing (failure : BundleFailure)
  /-- about to raise the flag of the read -/
  | stopping
  | gone

namespace Shared

/-- An event can be sent while there is room; a channel without any passes on one at a time. -/
def hasRoom (shared : Shared ρ ε) : Bool := shared.channel.length < max shared.capacity 1

def send (shared : Shared ρ ε) (event : Event) : Shared ρ ε :=
  { shared with channel := shared.channel ++ [event] }

/-- The first failure stays: later ones come mostly from the interruption it causes. -/
def recordFailure (shared : Shared ρ ε) (failure : BundleFailure) : Shared ρ ε :=
  { shared with
    firstFailure := shared.firstFailure.or (some failure)
    world := shared.world.note .error
      s!"Bundle {failure.bundle.source.describe} failed: {failure.error.message}" }

def stop (shared : Shared ρ ε) : Shared ρ ε :=
  { shared with world := shared.world.raise shared.context.interrupt }

end Shared

namespace Worker

def isGone : Worker ρ ε → Bool
  | .gone => true
  | _ => false

/-- The bundle failed, and its reader goes out of use. -/
def abandon {library : Library ρ ε} (bundle : Bundle) (error : SourceError)
    (reader : Reader library) (shared : Shared ρ ε) (w : World ε) :
    Worker ρ ε × Shared ρ ε :=
  (.failing ⟨bundle, error⟩, { shared with world := reader.drop w })

/-- What becomes of a worker whose reader has told whether there is a next record. -/
def proceed {library : Library ρ ε} (bundle : Bundle) (sent : Nat) (shared : Shared ρ ε) :
    Reader.Outcome library Bool → Worker ρ ε × Shared ρ ε
  | (.error e, reader, w) => abandon bundle e reader shared w
  | (.ok false, reader, w) =>
    (.closing bundle sent true ⟨library, reader⟩, { shared with world := w })
  | (.ok true, reader, w) =>
    match reader.current? with
    | .error e => abandon bundle e reader shared w
    | .ok pair => (.sending bundle sent pair ⟨library, reader⟩, { shared with world := w })

/-- The next step of a worker.  It has none while the channel is full, and when it is gone. -/
def step [Ratio ρ] (worker : Worker ρ ε) (shared : Shared ρ ε) :
    Option (Worker ρ ε × Shared ρ ε) :=
  match worker with
  | .idle =>
    match shared.queue with
    | [] => some (.gone, shared)
    | bundle :: queue => some (.checking bundle, { shared with queue })
  | .checking bundle =>
    if shared.firstFailure.isSome then some (.gone, shared) else some (.starting bundle, shared)
  | .starting bundle =>
    match bundle.source.createReader shared.context with
    | .error e => some (.failing ⟨bundle, e⟩, shared)
    | .ok ⟨_, reader⟩ => some (proceed bundle 0 shared (reader.start shared.world))
  | .sending bundle sent pair reader =>
    if !shared.listening then some (.closing bundle sent false reader, shared)
    else if shared.hasRoom then
      some (.advancing bundle (sent + 1) reader, shared.send (.record bundle.place pair))
    else none
  | .advancing bundle sent ⟨_, reader⟩ =>
    some (proceed bundle sent shared (reader.advance shared.world))
  | .closing bundle sent report ⟨_, reader⟩ =>
    match reader.close shared.world with
    | (.error e, reader, w) => some (abandon bundle e reader shared w)
    | (.ok (), reader, w) =>
      some (if report then .reporting bundle sent else .gone,
        { shared with world := reader.drop w })
  | .reporting bundle sent =>
    if !shared.listening then some (.gone, shared)
    else if shared.hasRoom then some (.idle, shared.send (.finished bundle.place sent))
    else none
  | .failing failure => some (.stopping, shared.recordFailure failure)
  | .stopping => some (.gone, shared.stop)
  | .gone => none

end Worker

end Splittable.Pool
