import Splittable.Toml.Value

/-!
# The lexical parts of TOML

* `filler?`    blanks, line ends and comments;
* `string?`    the four forms of strings;
* `key?`       keys, with dots between their parts;
* `scalar?`    booleans, numbers, dates and times.
-/

namespace Splittable.Toml

/-! ## blanks and comments -/

def isBlank (c : Char) : Bool := c == ' ' || c == '\t'

def skipBlanks (cs : List Char) : List Char := cs.dropWhile isBlank

/-- what follows the end of a line -/
def lineEnd? : List Char → Option (List Char)
  | '\n' :: rest => some rest
  | '\r' :: '\n' :: rest => some rest
  | _ => none

/-- What follows a comment; the line end is left.  A comment holds no control characters. -/
def comment? : List Char → Option (List Char)
  | [] => some []
  | '\n' :: rest => some ('\n' :: rest)
  | '\r' :: '\n' :: rest => some ('\r' :: '\n' :: rest)
  | c :: rest => if isControl c then none else comment? rest

/-- what follows blanks, line ends and comments -/
def filler? : (fuel : Nat) → List Char → Option (List Char)
  | 0, _ => none
  | fuel + 1, cs =>
    match skipBlanks cs with
    | '#' :: rest => do filler? fuel (← comment? rest)
    | cs =>
      match lineEnd? cs with
      | some rest => filler? fuel rest
      | none => some cs

/-! ## strings -/

def hexValue? (c : Char) : Option Nat :=
  if '0' ≤ c ∧ c ≤ '9' then some (c.toNat - '0'.toNat)
  else if 'a' ≤ c ∧ c ≤ 'f' then some (c.toNat - 'a'.toNat + 10)
  else if 'A' ≤ c ∧ c ≤ 'F' then some (c.toNat - 'A'.toNat + 10)
  else none

/-- a number of exactly `n` digits of base sixteen, and what follows it -/
def hexDigits? : (n value : Nat) → List Char → Option (Nat × List Char)
  | 0, value, cs => some (value, cs)
  | _ + 1, _, [] => none
  | n + 1, value, c :: cs => do hexDigits? n (value * 16 + (← hexValue? c)) cs

/-- the character with a code point, where there is one -/
def charOf? (code : Nat) : Option Char := if code.isValidChar then some (Char.ofNat code) else none

/-- the character of an escape after its backslash, and what follows it -/
def escape? : List Char → Option (Char × List Char)
  | 'b' :: rest => some ('\x08', rest)
  | 't' :: rest => some ('\t', rest)
  | 'n' :: rest => some ('\n', rest)
  | 'f' :: rest => some ('\x0c', rest)
  | 'r' :: rest => some ('\r', rest)
  | 'e' :: rest => some ('\x1b', rest)
  | '"' :: rest => some ('"', rest)
  | '\\' :: rest => some ('\\', rest)
  | 'x' :: rest => code 2 rest
  | 'u' :: rest => code 4 rest
  | 'U' :: rest => code 8 rest
  | _ => none
where
  code (n : Nat) (rest : List Char) : Option (Char × List Char) := do
    let (value, rest) ← hexDigits? n 0 rest
    return (← charOf? value, rest)

/-- The rest of a basic string.  Here and below `acc` holds the characters so far from the last to
the first. -/
def basic? : (fuel : Nat) → (acc : List Char) → List Char → Option (String × List Char)
  | 0, _, _ => none
  | _ + 1, _, [] => none
  | _ + 1, acc, '"' :: rest => some (String.ofList acc.reverse, rest)
  | fuel + 1, acc, '\\' :: rest => do
    let (c, rest) ← escape? rest
    basic? fuel (c :: acc) rest
  | fuel + 1, acc, c :: rest => if isControl c then none else basic? fuel (c :: acc) rest

def literal? : (acc : List Char) → List Char → Option (String × List Char)
  | _, [] => none
  | acc, '\'' :: rest => some (String.ofList acc.reverse, rest)
  | acc, c :: rest => if isControl c then none else literal? (c :: acc) rest

/-- The closing quotes of a string of several lines: up to two quotes before them belong to the
string. -/
def closing? (quote : Char) (acc cs : List Char) : Option (String × List Char) :=
  let run := (cs.takeWhile (· == quote)).length
  if 3 ≤ run then
    let inner := min (run - 3) 2
    some (String.ofList (List.replicate inner quote ++ acc).reverse, cs.drop (inner + 3))
  else none

/-- What follows a backslash at the end of a line: blanks and line ends up to the next
character. -/
def continuation? (rest : List Char) : Option (List Char) :=
  (lineEnd? (skipBlanks rest)).map skip
where
  skip : List Char → List Char
    | '\r' :: '\n' :: rest => skip rest
    | c :: rest => if isBlank c || c == '\n' then skip rest else c :: rest
    | [] => []

def basicLines? : (fuel : Nat) → (acc : List Char) → List Char → Option (String × List Char)
  | 0, _, _ => none
  | fuel + 1, acc, cs =>
    match closing? '"' acc cs with
    | some found => some found
    | none =>
      match cs with
      | [] => none
      | '\\' :: rest =>
        match continuation? rest with
        | some rest => basicLines? fuel acc rest
        | none => do
          let (c, rest) ← escape? rest
          basicLines? fuel (c :: acc) rest
      | '\r' :: '\n' :: rest => basicLines? fuel ('\n' :: '\r' :: acc) rest
      | c :: rest =>
        if isControl c && c != '\n' then none else basicLines? fuel (c :: acc) rest

def literalLines? : (fuel : Nat) → (acc : List Char) → List Char → Option (String × List Char)
  | 0, _, _ => none
  | fuel + 1, acc, cs =>
    match closing? '\'' acc cs with
    | some found => some found
    | none =>
      match cs with
      | [] => none
      | '\r' :: '\n' :: rest => literalLines? fuel ('\n' :: '\r' :: acc) rest
      | c :: rest =>
        if isControl c && c != '\n' then none else literalLines? fuel (c :: acc) rest

/-- A line end right after the opening quotes does not belong to the string. -/
def afterOpening (cs : List Char) : List Char := (lineEnd? cs).getD cs

def string? (cs : List Char) : Option (String × List Char) :=
  let fuel := cs.length + 1
  match cs with
  | '"' :: '"' :: '"' :: rest => basicLines? fuel [] (afterOpening rest)
  | '"' :: rest => basic? fuel [] rest
  | '\'' :: '\'' :: '\'' :: rest => literalLines? fuel [] (afterOpening rest)
  | '\'' :: rest => literal? [] rest
  | _ => none

/-! ## keys -/

def keyPart? (cs : List Char) : Option (String × List Char) :=
  match cs with
  | '"' :: rest => basic? (rest.length + 1) [] rest
  | '\'' :: rest => literal? [] rest
  | _ =>
    match cs.takeWhile isBareKeyChar with
    | [] => none
    | part => some (String.ofList part, cs.drop part.length)

/-- the parts of a key, and what follows it with the blanks after it passed over -/
def key? : (fuel : Nat) → List Char → Option (List String × List Char)
  | 0, _ => none
  | fuel + 1, cs => do
    let (part, rest) ← keyPart? (skipBlanks cs)
    match skipBlanks rest with
    | '.' :: rest => do
      let (parts, rest) ← key? fuel rest
      return (part :: parts, rest)
    | rest => return ([part], rest)

/-! ## numbers -/

/-- The number of a run of digits, with single underscores between them. -/
def runValue? (base : Nat) : (value : Nat) → (afterDigit : Bool) → List Char → Option Nat
  | value, afterDigit, [] => if afterDigit then some value else none
  | value, afterDigit, '_' :: rest => if afterDigit then runValue? base value false rest else none
  | value, _, c :: rest => do
    let d ← hexValue? c
    if d < base then runValue? base (value * base + d) true rest else none

def signed (cs : List Char) : Bool × List Char :=
  match cs with
  | '-' :: rest => (true, rest)
  | '+' :: rest => (false, rest)
  | _ => (false, cs)

/-- decimal digits that do not start with a zero, or a zero alone -/
def decimal? (cs : List Char) : Option Nat :=
  match cs with
  | '0' :: _ :: _ => none
  | _ => runValue? 10 0 false cs

/-- no wider number can be held -/
def integerOf? (negative : Bool) (n : Nat) : Option Value :=
  if negative then if n ≤ 1 <<< 127 then some (.integer (-n)) else none
  else if n < 1 <<< 128 then some (.integer n) else none

def integer? (cs : List Char) : Option Value :=
  match cs with
  | '0' :: 'x' :: rest => do integerOf? false (← runValue? 16 0 false rest)
  | '0' :: 'o' :: rest => do integerOf? false (← runValue? 8 0 false rest)
  | '0' :: 'b' :: rest => do integerOf? false (← runValue? 2 0 false rest)
  | _ =>
    let (negative, digits) := signed cs
    do integerOf? negative (← decimal? digits)

/-- The double nearest to `digits · 10 ^ e`.  What is out of range is not written out to its
last digit. -/
def nearest (negative : Bool) (digits : Nat) (e : Int) : Double :=
  let magnitude : Int := (Nat.toDigits 10 digits).length + e
  let size : Float :=
    if digits = 0 ∨ magnitude < -400 then 0
    else if 400 < magnitude then Float.ofScientific 1 false 400
    else Float.ofScientific digits (e < 0) e.natAbs
  Double.ofBits (if negative then -size else size).toBits

/-- the characters of a number before its exponent, and those after the mark of one -/
def splitExponent (cs : List Char) : List Char × Option (List Char) :=
  let before := cs.takeWhile fun c => c != 'e' && c != 'E'
  match cs.drop before.length with
  | _ :: exponent => (before, some exponent)
  | [] => (before, none)

/-- the characters of a number before its point, and those after it -/
def splitPoint (cs : List Char) : List Char × Option (List Char) :=
  let before := cs.takeWhile (· != '.')
  match cs.drop before.length with
  | _ :: fraction => (before, some fraction)
  | [] => (before, none)

/-- the value of an exponent, which may start with zeros -/
def exponent? (cs : List Char) : Option Int := do
  let (negative, digits) := signed cs
  let n ← runValue? 10 0 false digits
  return if negative then -(n : Int) else n

/-- a number with a fraction, an exponent or both; one that is too large is refused -/
def decimalFloat? (negative : Bool) (cs : List Char) : Option Double := do
  let (mantissa, exponent) := splitExponent cs
  let (whole, fraction) := splitPoint mantissa
  if exponent.isNone && fraction.isNone then none
  let _ ← decimal? whole
  if fraction.any fun digits => (runValue? 10 0 false digits).isNone then none
  let e ← exponent? (exponent.getD ['0'])
  let places := ((fraction.getD []).filter (· != '_')).length
  let digits ← runValue? 10 0 false ((whole ++ fraction.getD []).filter (· != '_'))
  match nearest negative digits (e - places) with
  | .infinite _ => none
  | x => return x

def float? (cs : List Char) : Option Double :=
  match signed cs with
  | (negative, ['i', 'n', 'f']) => some (.infinite negative)
  | (_, ['n', 'a', 'n']) => some .notANumber
  | (negative, cs) => decimalFloat? negative cs

/-- the characters of scalars -/
def isScalarChar (c : Char) : Bool :=
  c.isAlphanum || c == '+' || c == '-' || c == '_' || c == '.' || c == ':'

/-- The text of a scalar, and what follows it.  Between a date and a time stands a single
space. -/
def scalarText (cs : List Char) : List Char × List Char :=
  let run := cs.takeWhile isScalarChar
  let rest := cs.drop run.length
  match rest with
  | ' ' :: c :: after =>
    if c.isDigit && (Date.take? run).any (·.2.isEmpty) then
      let more := (c :: after).takeWhile isScalarChar
      (run ++ ' ' :: more, (c :: after).drop more.length)
    else (run, rest)
  | _ => (run, rest)

def scalarOf? (cs : List Char) : Option Value :=
  match cs with
  | ['t', 'r', 'u', 'e'] => some (.boolean true)
  | ['f', 'a', 'l', 's', 'e'] => some (.boolean false)
  | _ => integer? cs <|> (float? cs).map .float <|> (Moment.read? cs).map .moment

/-- a scalar at the front of a text, and what follows it -/
def scalar? (cs : List Char) : Option (Value × List Char) := do
  let (text, rest) := scalarText cs
  return (← scalarOf? text, rest)

end Splittable.Toml
