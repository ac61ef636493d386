/-!
# Blank characters

The characters of the Unicode property White_Space, and the removal of blanks at the ends of a
text.

* `isBlank`        the property, as its ranges;
* `trimStart`, `trimEnd`, `trim`   a text without its blank ends;
* `toAsciiLower`   the text with `A` to `Z` in lower case and all else unchanged.
-/

namespace Splittable.Text

/-- the Unicode property White_Space -/
def isBlank (c : Char) : Bool :=
  let n := c.toNat
  (9 ≤ n && n ≤ 13) || n == 0x20 || n == 0x85 || n == 0xA0 || n == 0x1680 ||
    (0x2000 ≤ n && n ≤ 0x200A) || n == 0x2028 || n == 0x2029 || n == 0x202F || n == 0x205F ||
    n == 0x3000

def trimStart (cs : List Char) : List Char := cs.dropWhile isBlank

def trimEnd (cs : List Char) : List Char := (cs.reverse.dropWhile isBlank).reverse

/-- the text without the blanks at its two ends -/
def trim (s : String) : String := String.ofList (trimEnd (trimStart s.toList))

/-- only the letters `A` to `Z` change -/
def toAsciiLower (s : String) : String := s.map Char.toLower

end Splittable.Text
