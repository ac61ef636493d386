/-!
# Fractions

The numbers in which progress is measured.  Reading only adds, divides and compares them, so every
type with these operations will do: the machine's doubles when the library runs, the rationals
where it is reasoned about.

* `Ratio`         the operations and the constants;
* `Ratio.clamp`, `atMost`   staying between bounds.
-/

namespace Splittable

class Ratio (ρ : Type) extends Add ρ, Div ρ where
  /-- whether a number is below another -/
  below : ρ → ρ → Bool
  ofNat : Nat → ρ
  /-- the largest number below one that is told apart from it -/
  belowOne : ρ
  /-- how far the last split of a file may exceed the size of the others -/
  slop : ρ

namespace Ratio

variable {ρ : Type} [Ratio ρ]

def zero : ρ := ofNat 0

def one : ρ := ofNat 1

/-- the nearest number that is neither below `low` nor above `high` -/
def clamp (low high x : ρ) : ρ :=
  let x := if below x low then low else x
  if below high x then high else x

def atMost (high x : ρ) : ρ := if below high x then high else x

end Ratio

instance : Ratio Float where
  below a b := a < b
  ofNat n := n.toUInt64.toFloat
  belowOne := Float.ofBits 0x3FEFFFFFFFFFFFFF
  slop := 1.1

end Splittable
