import Splittable.Json.Basic
import Splittable.Random.ChaCha
import Splittable.Random.Shuffle
import Splittable.Record
import Splittable.World

/-!
# The order of splits

* `Order`         how planned splits are handed out;
* `Order.apply`   a list in that order.
-/

namespace Splittable

inductive Order
  /-- a random order, so that concurrent readers spread over the storage -/
  | shuffle
  /-- the random order of a seed: the same seed and number of items give the same order -/
  | seeded (seed : UInt64)
  /-- the order in which the splits were found -/
  | discovery
deriving DecidableEq, Repr

namespace Order

variable {ε α : Type}

/-- the next random word of a world -/
def drawWord (w : World ε) : UInt32 × World ε :=
  (w.entropy w.drawn, { w with drawn := w.drawn + 1 })

/-- The items in another order.  Only the unseeded shuffle uses the world's random words. -/
def apply (order : Order) (items : List α) (w : World ε) : List α × World ε :=
  match order with
  | .discovery => (items, w)
  | .seeded seed => ((Random.shuffle ChaCha.Stream.next (.ofSeed seed) items.toArray).1.toList, w)
  | .shuffle =>
    let (items, w) := Random.shuffle drawWord w items.toArray
    (items.toList, w)

/-- Whatever the order, the items are the same. -/
theorem apply_perm (order : Order) (items : List α) (w : World ε) :
    (order.apply items w).1.Perm items := by
  cases order with
  | discovery => exact .refl _
  | seeded seed => exact Random.shuffle_perm _ _ items.toArray
  | shuffle => exact Random.shuffle_perm drawWord w items.toArray

def toJson : Order → Json
  | .shuffle => .ofText "Shuffle"
  | .seeded seed => .ofFields [("Seeded", .ofWord64 seed)]
  | .discovery => .ofText "Discovery"

def shown : Order → String
  | .shuffle => "Shuffle"
  | .seeded seed => "Seeded(" ++ Numeral.render seed ++ ")"
  | .discovery => "Discovery"

end Order

end Splittable
