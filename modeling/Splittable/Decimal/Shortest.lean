/-!
# Shortest decimals

The decimal with the fewest digits that reads back as a given double.  A double `m · 2 ^ q` is
what every real near it is rounded to; the decimals of the grid `10 ^ e` that lie so near are
looked for from the coarsest grid to finer ones.  If a point of a grid reads back, one of the two
neighbours of the double on that grid does.

* `Double.ofBits`    what the bits of a double stand for;
* `Scaled.onGrid?`   the decimal of one grid that reads back;
* `Double.shortest`  the decimal of the coarsest grid that has one;
* `Double.render`    its text, written without an exponent.
-/

namespace Splittable

inductive Double
  | notANumber
  | infinite (negative : Bool)
  | zero (negative : Bool)
  /-- `mantissa · 2 ^ exponent`; with `narrow` the next double below is half as far as the next
  above -/
  | finite (negative : Bool) (mantissa : Nat) (exponent : Int) (narrow : Bool)
deriving DecidableEq, Repr

namespace Double

def ofBits (bits : UInt64) : Double :=
  let negative := bits >>> 63 == 1
  let power := ((bits >>> 52) &&& 0x7FF).toNat
  let fraction := (bits &&& 0xFFFFFFFFFFFFF).toNat
  if power = 0x7FF then if fraction = 0 then .infinite negative else .notANumber
  else if power = 0 then
    if fraction = 0 then .zero negative else .finite negative fraction (-1074) false
  else
    .finite negative (fraction + 0x10000000000000) ((power : Int) - 1075)
      (fraction == 0 && power != 1)

end Double

/-- A number in quarters of a double's last binary digit, over the unit of a decimal grid: the
value is `value · num / den`, and reals between `low` and `high` are rounded to it. -/
structure Scaled where
  low : Nat
  value : Nat
  high : Nat
  /-- whether the two ends are rounded to it as well -/
  closed : Bool
  num : Nat
  den : Nat

/-- a double over the grid `10 ^ e` -/
def Scaled.ofGrid (mantissa : Nat) (exponent : Int) (narrow : Bool) (e : Int) : Scaled where
  low := if narrow then 4 * mantissa - 1 else 4 * mantissa - 2
  value := 4 * mantissa
  high := 4 * mantissa + 2
  closed := mantissa % 2 == 0
  num := Nat.pow 2 (exponent - 2).toNat * Nat.pow 10 (-e).toNat
  den := Nat.pow 2 (2 - exponent).toNat * Nat.pow 10 e.toNat

namespace Scaled

/-- The grid point `n` reads back. -/
def contains (s : Scaled) (n : Nat) : Bool :=
  if s.closed then s.low * s.num ≤ n * s.den && n * s.den ≤ s.high * s.num
  else s.low * s.num < n * s.den && n * s.den < s.high * s.num

/-- The grid point that reads back, the nearer one of two, and the upper one of two that are as
near. -/
def onGrid? (s : Scaled) : Option Nat :=
  let n := s.value * s.num / s.den
  let below := 0 < n && s.contains n
  let above := s.contains (n + 1)
  if above && (!below || (2 * n + 1) * s.den ≤ 2 * (s.value * s.num)) then some (n + 1)
  else if below then some n
  else none

end Scaled

namespace Double

/-- The first of `count` grids, from `10 ^ e` to finer ones, that has a decimal, with it. -/
def search (mantissa : Nat) (exponent : Int) (narrow : Bool) : (count : Nat) → (e : Int) →
    Option (Nat × Int)
  | 0, _ => none
  | count + 1, e =>
    match (Scaled.ofGrid mantissa exponent narrow e).onGrid? with
    | some n => some (n, e)
    | none => search mantissa exponent narrow count (e - 1)

/-- The shortest decimal as its digits and the power of ten of the last of them.  No double is
above `10 ^ 309`, and all read back from a grid of `10 ^ -342`. -/
def shortest (mantissa : Nat) (exponent : Int) (narrow : Bool) : Nat × Int :=
  (search mantissa exponent narrow 652 309).getD (0, 0)

/-- `digits · 10 ^ e` without an exponent, with a digit at least on both sides of the point -/
def positional (digits : Nat) (e : Int) : List Char :=
  let ds := Nat.toDigits 10 digits
  if 0 ≤ e then ds ++ List.replicate e.toNat '0' ++ ['.', '0']
  else
    let places := (-e).toNat
    let ds := List.replicate (places + 1 - ds.length) '0' ++ ds
    ds.take (ds.length - places) ++ '.' :: ds.drop (ds.length - places)

/-- The text of a double; the sign of what is no number is left out. -/
def render (x : Double) : String :=
  match x with
  | .notANumber => "nan"
  | .infinite negative => if negative then "-inf" else "inf"
  | .zero negative => if negative then "-0.0" else "0.0"
  | .finite negative mantissa exponent narrow =>
    let (digits, e) := shortest mantissa exponent narrow
    String.ofList ((if negative then ['-'] else []) ++ positional digits e)

end Double

end Splittable
