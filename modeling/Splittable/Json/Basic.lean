/-!
# JSON values

A JSON document as a value.  Numbers keep the text they were written with, so that a reader can
tell `1` from `1.0` and no digit is lost.  Strings and field names are texts, or `none` where the
document escapes half of a surrogate pair, which no text can hold; a document with such a string
is well formed, and only asking for the text fails.

* `Json`   the values;
* `text?`, `items?`   views of a value;
* `members?`   the fields of a structure, from an object or from an array;
* `variant?`   the name and the content of an alternative.
-/

namespace Splittable

inductive Json
  | null
  | bool (b : Bool)
  | number (numeral : String)
  | string (text : Option String)
  | array (items : List Json)
  | object (fields : List (Option String × Json))
deriving Inhabited

namespace Json

def ofText (s : String) : Json := .string (some s)

def ofFields (fields : List (String × Json)) : Json :=
  .object (fields.map fun f => (some f.1, f.2))

def text? : Json → Option String
  | .string s => s
  | _ => none

def items? : Json → Option (List Json)
  | .array items => some items
  | _ => none

def lookup (name : String) : List (Option String × Json) → Option Json
  | [] => none
  | (key, value) :: rest => if key = some name then some value else lookup name rest

/-- every field name is a text, and each of the known names stands at most once -/
def wellNamed (names : List String) (fields : List (Option String × Json)) : Bool :=
  fields.all (fun f => f.1.isSome) &&
    names.all (fun name => (fields.filter (fun f => f.1 == some name)).length ≤ 1)

/-- The fields of a structure in the order of `names`, absent ones as `none`.  An object may hold
further fields, which are passed over.  An array holds the fields by position: at least the first
`required` and no more than there are names. -/
def members? (names : List String) (required : Nat) : Json → Option (List (Option Json))
  | .object fields =>
    if wellNamed names fields then some (names.map fun name => lookup name fields) else none
  | .array items =>
    if required ≤ items.length ∧ items.length ≤ names.length then
      some (items.map some ++ List.replicate (names.length - items.length) none)
    else none
  | _ => none

/-- An alternative is its name alone, or an object whose only field is the name with the
content. -/
def variant? : Json → Option (String × Option Json)
  | .string (some name) => some (name, none)
  | .object [(some name, content)] => some (name, some content)
  | _ => none

/-- an alternative without content may be written with the content `null` -/
def isBare : Option Json → Bool
  | none => true
  | some .null => true
  | some _ => false

end Json

end Splittable
