import Splittable.Json.Basic

/-!
# Writing JSON

The compact form: no blanks, fields in the order they have, and in strings only the quote, the
backslash and the control characters escaped.

* `Json.render`   the text of a value.
-/

namespace Splittable.Json

/-- the digits of a control character, of which the first two are zero -/
def controlCode (c : Char) : List Char :=
  let digits := Nat.toDigits 16 c.toNat
  List.replicate (4 - digits.length) '0' ++ digits

/-- what stands for a character inside a string -/
def escaped (c : Char) : List Char :=
  match c with
  | '"' => ['\\', '"']
  | '\\' => ['\\', '\\']
  | '\n' => ['\\', 'n']
  | '\r' => ['\\', 'r']
  | '\t' => ['\\', 't']
  | '\x08' => ['\\', 'b']
  | '\x0c' => ['\\', 'f']
  | c => if c.toNat < 0x20 then ['\\', 'u'] ++ controlCode c else [c]

def stringChars (s : String) : List Char := ['"'] ++ s.toList.flatMap escaped ++ ['"']

/-- An escaped half of a pair is all that is known of a string that is no text. -/
def literalChars : Option String → List Char
  | some s => stringChars s
  | none => "\"\\ud800\"".toList

def separated : List (List Char) → List Char
  | [] => []
  | [piece] => piece
  | piece :: rest => piece ++ ',' :: separated rest

mutual

def chars : Json → List Char
  | .null => "null".toList
  | .bool true => "true".toList
  | .bool false => "false".toList
  | .number numeral => numeral.toList
  | .string s => literalChars s
  | .array items => '[' :: separated (itemChars items) ++ [']']
  | .object fields => '{' :: separated (fieldChars fields) ++ ['}']

def itemChars : List Json → List (List Char)
  | [] => []
  | item :: rest => chars item :: itemChars rest

def fieldChars : List (Option String × Json) → List (List Char)
  | [] => []
  | (key, value) :: rest => (literalChars key ++ ':' :: chars value) :: fieldChars rest

end

def render (j : Json) : String := String.ofList j.chars

end Splittable.Json
