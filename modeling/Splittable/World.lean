import Splittable.FileSystem.Basic
import Splittable.Flags

/-!
# The world

All that an operation may read or change outside its arguments: the files, the interrupt flags,
what was logged, where random words come from, and whatever a caller's own format library keeps.

* `World`   the parts;
* `Act`     an operation on the world;
* `World.note`, `raise`, `isRaised`   small operations.
-/

namespace Splittable

inductive Level
  | info
  | warn
  | error
deriving DecidableEq, Repr

structure LogEntry where
  level : Level
  text : String
deriving DecidableEq, Repr

def Level.name : Level → String
  | .info => "INFO"
  | .warn => "WARN"
  | .error => "ERROR"

structure World (ε : Type) where
  files : FileSystem
  flags : Flags
  log : List LogEntry
  /-- the random words of this world, and how many of them are used up -/
  entropy : Nat → UInt32
  drawn : Nat
  /-- what a caller's library keeps -/
  extra : ε

/-- an operation that reads and changes the world -/
abbrev Act (ε : Type) := StateM (World ε)

variable {ε : Type}

def World.note (w : World ε) (level : Level) (text : String) : World ε :=
  { w with log := w.log ++ [⟨level, text⟩] }

def World.raise (w : World ε) (flag : Flag) : World ε := { w with flags := w.flags.raise flag }

def World.isRaised (w : World ε) (flag : Flag) : Bool := w.flags.isRaised flag

def note (level : Level) (text : String) : Act ε Unit := modify fun w => w.note level text

end Splittable
