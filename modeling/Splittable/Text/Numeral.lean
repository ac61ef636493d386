/-!
# Decimal numerals of machine words

Reading a decimal numeral as an unsigned 64-bit word, with the reason when it is none.

* `Numeral.read?`   the number written by a list of characters;
* `Numeral.Flaw`    why a text is no numeral, with its message;
* `Numeral.render`  the numeral of a word, without sign or leading zero.
-/

namespace Splittable.Numeral

inductive Flaw
  | empty
  | badDigit
  | tooLarge
deriving DecidableEq, Repr

def Flaw.message : Flaw → String
  | .empty => "cannot parse integer from empty string"
  | .badDigit => "invalid digit found in string"
  | .tooLarge => "number too large to fit in target type"

/-- one more than the largest word -/
def bound : Nat := UInt64.size

/-- the value of an ASCII digit -/
def digit? (c : Char) : Option Nat :=
  if '0' ≤ c ∧ c ≤ '9' then some (c.toNat - '0'.toNat) else none

/-- Digits are taken from the left, so the leftmost fault is the one reported: a character that
is no digit, or the digit at which the value leaves the word. -/
def digits : (value : Nat) → List Char → Except Flaw Nat
  | value, [] => .ok value
  | value, c :: cs =>
    match digit? c with
    | none => .error .badDigit
    | some d => if value * 10 + d < bound then digits (value * 10 + d) cs else .error .tooLarge

/-- A numeral is a non-empty run of digits with at most one leading `+`. -/
def readChars : List Char → Except Flaw Nat
  | [] => .error .empty
  | '+' :: c :: cs => digits 0 (c :: cs)
  | cs => digits 0 cs

def read? (s : String) : Except Flaw UInt64 := (readChars s.toList).map Nat.toUInt64

def render (n : UInt64) : String := String.ofList (Nat.toDigits 10 n.toNat)

end Splittable.Numeral
