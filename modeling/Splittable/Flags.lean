/-!
# Interrupt flags

A flag is raised once and never lowered.  A child of a flag also reads as raised when its parent
does, and raising the child leaves the parent alone.  The flags of a world live in one store; a
copy of a flag names the same cell.

* `Flags`, `Flag`   the store, and the name of a cell in it;
* `Flags.create`, `child`, `raise`, `isRaised`   the operations.
-/

namespace Splittable

/-- the name of a cell of the store -/
structure Flag where
  cell : Nat
deriving DecidableEq, Repr

namespace Flags

/-- whether the flag itself was raised, and the flag it was made under -/
structure Cell where
  raised : Bool
  parent : Option Nat
deriving DecidableEq, Repr

end Flags

structure Flags where
  cells : List Flags.Cell
deriving DecidableEq, Repr

namespace Flags

def empty : Flags := ⟨[]⟩

/-- A new cell comes after all others, so a parent comes before its children. -/
def add (flags : Flags) (parent : Option Nat) : Flag × Flags :=
  (⟨flags.cells.length⟩, ⟨flags.cells ++ [⟨false, parent⟩]⟩)

def create (flags : Flags) : Flag × Flags := flags.add none

def child (flags : Flags) (parent : Flag) : Flag × Flags := flags.add (some parent.cell)

def raise (flags : Flags) (flag : Flag) : Flags :=
  ⟨flags.cells.modify flag.cell fun cell => { cell with raised := true }⟩

/-- the cell at `i` or one of the cells it was made under is raised -/
def raisedAt (cells : List Cell) (i : Nat) : Bool :=
  match cells[i]? with
  | none => false
  | some cell =>
    cell.raised ||
      match cell.parent with
      | none => false
      | some parent => if parent < i then raisedAt cells parent else false
termination_by i

def isRaised (flags : Flags) (flag : Flag) : Bool := raisedAt flags.cells flag.cell

end Flags

end Splittable
