import Splittable.Text.Printable

/-!
# Quoted texts

The form in which a text is shown inside a message: between double quotes, with escapes for what
would not be seen.

* `quoted`     a text between quotes;
* `listed`     items between brackets, as byte lists and name lists are shown.
-/

namespace Splittable.Text

/-- the digits of a character's code point in base sixteen, without leading zeros -/
def hexCode (c : Char) : List Char := Nat.toDigits 16 c.toNat

/-- what stands for a character between the quotes -/
def escaped (c : Char) : List Char :=
  match c with
  | '\x00' => ['\\', '0']
  | '\t' => ['\\', 't']
  | '\r' => ['\\', 'r']
  | '\n' => ['\\', 'n']
  | '"' => ['\\', '"']
  | '\\' => ['\\', '\\']
  | c => if isPrintable c then [c] else ['\\', 'u', '{'] ++ hexCode c ++ ['}']

def quoted (s : String) : String :=
  String.ofList (['"'] ++ s.toList.flatMap escaped ++ ['"'])

/-- items between brackets, separated by a comma and a space -/
def listed (items : List String) : String := "[" ++ String.intercalate ", " items ++ "]"

end Splittable.Text
