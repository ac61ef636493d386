import Splittable.Decimal.Shortest
import Splittable.Toml.Moment

/-!
# TOML values

* `Value`          the values of a document;
* `Value.inline`   the text of a value on one line.
-/

namespace Splittable.Toml

inductive Value
  | text (s : String)
  | integer (n : Int)
  | float (x : Double)
  | boolean (b : Bool)
  | moment (m : Moment)
  | array (items : List Value)
  | table (entries : List (String × Value))
deriving Inhabited

/-! ## strings -/

/-- control characters other than the tab -/
def isControl (c : Char) : Bool := (c.toNat < 0x20 && c != '\t') || c.toNat == 0x7F

/-- the characters of keys that need no quotes -/
def isBareKeyChar (c : Char) : Bool := c.isAlphanum || c == '_' || c == '-'

/-- the longest run of a character -/
def longestRun (c : Char) (cs : List Char) : Nat :=
  let (_, longest) := cs.foldl
    (fun (run, longest) d => if d = c then (run + 1, max longest (run + 1)) else (0, longest))
    (0, 0)
  longest

/-- four digits of base sixteen -/
def codePoint (c : Char) : List Char :=
  let ds := (Nat.toDigits 16 c.toNat).map Char.toUpper
  List.replicate (4 - ds.length) '0' ++ ds

/-- What stands for a character between double quotes.  Over several lines a line feed stands for
itself. -/
def escaped (multiline : Bool) (c : Char) : List Char :=
  match c with
  | '\x08' => ['\\', 'b']
  | '\t' => ['\\', 't']
  | '\n' => if multiline then ['\n'] else ['\\', 'n']
  | '\x0c' => ['\\', 'f']
  | '\r' => ['\\', 'r']
  | '\\' => ['\\', '\\']
  | c => if isControl c then ['\\', 'u'] ++ codePoint c else [c]

/-- The inside of a basic string.  A quote that follows `most` others in a row is escaped, and
starts a new row. -/
def basicBody (multiline : Bool) (most : Nat) : (run : Nat) → List Char → List Char
  | _, [] => []
  | run, '"' :: rest =>
    if run < most then '"' :: basicBody multiline most (run + 1) rest
    else '\\' :: '"' :: basicBody multiline most 0 rest
  | _, c :: rest => escaped multiline c ++ basicBody multiline most 0 rest

/-- a line feed after the opening quotes, where the text has one itself -/
def opening (cs : List Char) : List Char := if cs.contains '\n' then ['\n'] else []

def basic (cs : List Char) : List Char := '"' :: basicBody false 0 0 cs ++ ['"']

def literal (cs : List Char) : List Char := '\'' :: cs ++ ['\'']

def basicLines (cs : List Char) : List Char :=
  ['"', '"', '"'] ++ opening cs ++ basicBody true 2 0 cs ++ ['"', '"', '"']

def literalLines (cs : List Char) : List Char :=
  ['\'', '\'', '\''] ++ opening cs ++ cs ++ ['\'', '\'', '\'']

/-- A text in the first of the four forms that needs no escapes, or else with escapes. -/
def stringChars (s : String) : List Char :=
  let cs := s.toList
  let newline := cs.contains '\n'
  let control := cs.any fun c => isControl c && c != '\n'
  let backslash := cs.contains '\\'
  let double := longestRun '"' cs
  let single := longestRun '\'' cs
  if !control && !backslash && double == 0 && !newline then basic cs
  else if !control && single == 0 && !newline then literal cs
  else if !control && !backslash && double ≤ 2 then basicLines cs
  else if !control && single ≤ 2 then literalLines cs
  else if newline then basicLines cs
  else basic cs

/-- A key bare where it can be, else between quotes. -/
def keyChars (s : String) : List Char :=
  let cs := s.toList
  let control := cs.any isControl
  if !cs.isEmpty && cs.all isBareKeyChar then cs
  else if !control && !cs.contains '\\' && !cs.contains '"' then basic cs
  else if !control && !cs.contains '\'' then literal cs
  else basic cs

/-! ## values -/

/-- pieces with a comma and a space between them -/
def spaced : List (List Char) → List Char
  | [] => []
  | [piece] => piece
  | piece :: rest => piece ++ ',' :: ' ' :: spaced rest

mutual

/-- A value on one line; the entries of a table stand in the order of their keys. -/
def Value.chars : Value → List Char
  | .text s => stringChars s
  | .integer n => (toString n).toList
  | .float x => x.render.toList
  | .boolean true => "true".toList
  | .boolean false => "false".toList
  | .moment m => m.chars
  | .array items => '[' :: spaced (Value.itemChars items) ++ [']']
  | .table entries =>
    match Value.entryChars entries with
    | [] => ['{', '}']
    | pieces =>
      '{' :: ' ' :: spaced ((pieces.mergeSort fun a b => a.1 ≤ b.1).map (·.2)) ++ [' ', '}']

def Value.itemChars : List Value → List (List Char)
  | [] => []
  | item :: rest => item.chars :: Value.itemChars rest

/-- the entries of a table, each with its key -/
def Value.entryChars : List (String × Value) → List (String × List Char)
  | [] => []
  | (key, value) :: rest =>
    (key, keyChars key ++ [' ', '=', ' '] ++ value.chars) :: Value.entryChars rest

end

def Value.inline (v : Value) : String := String.ofList v.chars

end Splittable.Toml
