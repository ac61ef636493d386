import Splittable.Json.Basic

/-!
# Reading JSON

A document is one value with blanks around it.

* `Json.parse`   the value of a document, where it is one;
* `Json.value`, `elements`, `fields`   a value, the rest of an array and the rest of an object,
  from the front of a text;
* `Json.stringBody`, `numeral?`   the lexical parts.
-/

namespace Splittable.Json

def isSpace (c : Char) : Bool := c == ' ' || c == '\n' || c == '\t' || c == '\r'

def skipSpace (cs : List Char) : List Char := cs.dropWhile isSpace

/-! ## strings -/

def hexDigit? (c : Char) : Option Nat :=
  if '0' ≤ c ∧ c ≤ '9' then some (c.toNat - '0'.toNat)
  else if 'a' ≤ c ∧ c ≤ 'f' then some (c.toNat - 'a'.toNat + 10)
  else if 'A' ≤ c ∧ c ≤ 'F' then some (c.toNat - 'A'.toNat + 10)
  else none

def hexCode? (a b c d : Char) : Option Nat := do
  let a ← hexDigit? a
  let b ← hexDigit? b
  let c ← hexDigit? c
  let d ← hexDigit? d
  return ((a * 16 + b) * 16 + c) * 16 + d

/-- the character of an escape of one letter -/
def escape? : Char → Option Char
  | '"' => some '"'
  | '\\' => some '\\'
  | '/' => some '/'
  | 'b' => some '\x08'
  | 'f' => some '\x0c'
  | 'n' => some '\n'
  | 'r' => some '\r'
  | 't' => some '\t'
  | _ => none

/-- The rest of a string after its opening quote, and what follows it.  `lead` is the first half
of a surrogate pair that waits for its second half, `acc` holds the characters so far from the
last to the first, and `sound` says that every half so far found its other half. -/
def stringBody : (lead : Option Nat) → (acc : List Char) → (sound : Bool) → List Char →
    Option (Option String × List Char)
  | _, _, _, [] => none
  | lead, acc, sound, '"' :: rest =>
    some (if sound && lead.isNone then some (String.ofList acc.reverse) else none, rest)
  | lead, acc, sound, '\\' :: 'u' :: a :: b :: c :: d :: rest =>
    match hexCode? a b c d with
    | none => none
    | some code =>
      if 0xD800 ≤ code && code ≤ 0xDBFF then stringBody (some code) acc (sound && lead.isNone) rest
      else if 0xDC00 ≤ code && code ≤ 0xDFFF then
        match lead with
        | some first =>
          let point := 0x10000 + (first - 0xD800) * 0x400 + (code - 0xDC00)
          stringBody none (Char.ofNat point :: acc) sound rest
        | none => stringBody none acc false rest
      else stringBody none (Char.ofNat code :: acc) (sound && lead.isNone) rest
  | lead, acc, sound, '\\' :: e :: rest =>
    match escape? e with
    | none => none
    | some c => stringBody none (c :: acc) (sound && lead.isNone) rest
  | lead, acc, sound, c :: rest =>
    if c.toNat < 0x20 || c == '\\' then none
    else stringBody none (c :: acc) (sound && lead.isNone) rest

/-! ## numbers -/

def isDigit (c : Char) : Bool := '0' ≤ c && c ≤ '9'

/-- a non-empty run of digits, and what follows it -/
def digits? (cs : List Char) : Option (List Char × List Char) :=
  match cs.takeWhile isDigit with
  | [] => none
  | run => some (run, cs.dropWhile isDigit)

def fraction? : List Char → Option (List Char × List Char)
  | '.' :: rest => (digits? rest).map fun (run, rest) => ('.' :: run, rest)
  | cs => some ([], cs)

def exponent? : List Char → Option (List Char × List Char)
  | e :: sign :: rest =>
    if e == 'e' || e == 'E' then
      if sign == '+' || sign == '-' then
        (digits? rest).map fun (run, rest) => (e :: sign :: run, rest)
      else (digits? (sign :: rest)).map fun (run, rest) => (e :: run, rest)
    else some ([], e :: sign :: rest)
  | [e] => if e == 'e' || e == 'E' then none else some ([], [e])
  | [] => some ([], [])

/-- an integer part: a zero alone, or digits that do not start with one -/
def integer? (cs : List Char) : Option (List Char × List Char) := do
  let (run, rest) ← digits? cs
  if run.head? == some '0' && run.length != 1 then none else some (run, rest)

def unsigned? (cs : List Char) : Option (List Char × List Char) := do
  let (whole, cs) ← integer? cs
  let (fraction, cs) ← fraction? cs
  let (exponent, cs) ← exponent? cs
  return (whole ++ fraction ++ exponent, cs)

/-- a number at the front of a text, and what follows it -/
def numeral? : List Char → Option (List Char × List Char)
  | '-' :: rest => (unsigned? rest).map fun (run, rest) => ('-' :: run, rest)
  | cs => unsigned? cs

/-! ## values -/

/-- what follows a word at the front of a text -/
def afterWord? : (word : List Char) → List Char → Option (List Char)
  | [], cs => some cs
  | w :: word, c :: cs => if w == c then afterWord? word cs else none
  | _ :: _, [] => none

mutual

/-- A value at the front of a text, blanks before it passed over, and what follows it.  Every step
spends fuel, at most two for each character. -/
def value : (fuel : Nat) → List Char → Option (Json × List Char)
  | 0, _ => none
  | fuel + 1, cs =>
    match skipSpace cs with
    | '"' :: rest => (stringBody none [] true rest).map fun (s, rest) => (.string s, rest)
    | '[' :: rest =>
      match skipSpace rest with
      | ']' :: rest => some (.array [], rest)
      | rest => elements fuel [] rest
    | '{' :: rest =>
      match skipSpace rest with
      | '}' :: rest => some (.object [], rest)
      | rest => fields fuel [] rest
    | 'n' :: rest => (afterWord? ['u', 'l', 'l'] rest).map fun rest => (.null, rest)
    | 't' :: rest => (afterWord? ['r', 'u', 'e'] rest).map fun rest => (.bool true, rest)
    | 'f' :: rest => (afterWord? ['a', 'l', 's', 'e'] rest).map fun rest => (.bool false, rest)
    | cs => (numeral? cs).map fun (run, rest) => (.number (String.ofList run), rest)

/-- The rest of an array, which has one more item at least; `acc` holds the items so far from the
last to the first. -/
def elements : (fuel : Nat) → (acc : List Json) → List Char → Option (Json × List Char)
  | 0, _, _ => none
  | fuel + 1, acc, cs =>
    match value fuel cs with
    | none => none
    | some (item, rest) =>
      match skipSpace rest with
      | ',' :: rest => elements fuel (item :: acc) rest
      | ']' :: rest => some (.array (item :: acc).reverse, rest)
      | _ => none

/-- The rest of an object, which has one more field at least. -/
def fields : (fuel : Nat) → (acc : List (Option String × Json)) → List Char →
    Option (Json × List Char)
  | 0, _, _ => none
  | fuel + 1, acc, cs =>
    match skipSpace cs with
    | '"' :: rest =>
      match stringBody none [] true rest with
      | none => none
      | some (key, rest) =>
        match skipSpace rest with
        | ':' :: rest =>
          match value fuel rest with
          | none => none
          | some (content, rest) =>
            match skipSpace rest with
            | ',' :: rest => fields fuel ((key, content) :: acc) rest
            | '}' :: rest => some (.object ((key, content) :: acc).reverse, rest)
            | _ => none
        | _ => none
    | _ => none

end

def parse (s : String) : Option Json :=
  let cs := s.toList
  match value (2 * cs.length + 2) cs with
  | some (j, rest) => if (skipSpace rest).isEmpty then some j else none
  | none => none

end Splittable.Json
