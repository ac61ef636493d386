import Splittable.Reader

/-!
# Pools of workers

The parts of a read with several workers.  Bundles wait in a queue, each worker takes one after
another and sends what it reads through a channel, and a consumer receives it.

* `Bundle`, `Event`     what a worker takes, and what it sends;
* `BundleFailure`       why a bundle could not be read, with its message;
* `Threads.workersFor`  how many workers a read gets.
-/

namespace Splittable

/-- A source that waits to be read, and its place among those that were given. -/
structure Bundle where
  place : Nat
  source : Source

/-- what a worker sends -/
inductive Event
  | record (place : Nat) (pair : Pair)
  /-- the bundle is read to its end, with so many records -/
  | finished (place : Nat) (records : Nat)
deriving DecidableEq

structure BundleFailure where
  bundle : Bundle
  error : SourceError

/-- a bundle as it is named in messages -/
def Source.describe (source : Source) : String :=
  match source.split with
  | some handle =>
    s!"{source.resourceText} [{handle.tag} split, " ++ Numeral.render handle.length ++ " bytes]"
  | none => source.resourceText

def BundleFailure.message (failure : BundleFailure) : String :=
  s!"{failure.bundle.source.describe}: {failure.error.message}"

/-- the places count from 0 -/
def Bundle.number (sources : List Source) : List Bundle :=
  sources.zipIdx.map fun (source, place) => ⟨place, source⟩

/-! ## how many workers -/

structure Threads where
  /-- how many threads the machine has -/
  available : Nat
  /-- no read has fewer workers than this -/
  floor : Nat

/-- no read has fewer than one worker -/
def Threads.ofMachine (available : Nat) : Threads := ⟨available, 1⟩

/-- As many workers as are asked for, or one per thread, and no more than there are bundles. -/
def Threads.workersFor (threads : Threads) (requested : Option Nat) (bundles : Nat) : Nat :=
  max (min (requested.getD threads.available) bundles) threads.floor

/-- how many events the channel of a read holds -/
def channelCapacity : Nat := 10000

end Splittable
