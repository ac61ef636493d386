import Splittable.Table
import Splittable.Text.Alphanumeric
import Splittable.Text.Blank
import Splittable.Text.Utf8

/-!
# Environments

Variables by name, and the `.env` files that add to them.  A line of such a file is
`NAME=value`; quotes may carry a value over several lines, and `$NAME` in a value stands for
another variable.  A variable that is set keeps its value, and reading ends at the first line that
is none.

* `Environment`        the variables;
* `DotEnv.Quoting`     where a line stands with its quotes;
* `DotEnv.value?`      what is written after the sign `=`;
* `Environment.load`   the environment with the variables of a file.
-/

namespace Splittable

abbrev Environment := Table String

namespace DotEnv

/-! ## lines -/

/-- where a line stands with its quotes after some of its characters -/
inductive Quoting
  | complete
  /-- after a blank outside of quotes -/
  | blank
  | escape
  | strong
  | strongEscape
  | weak
  | weakEscape
deriving DecidableEq, Repr

def Quoting.openedBy : Char → Quoting
  | '\\' => .escape
  | '"' => .weak
  | '\'' => .strong
  | _ => .complete

def Quoting.step (q : Quoting) (c : Char) : Quoting :=
  match q with
  | .complete =>
    if Text.isBlank c && c != '\n' && c != '\r' then .blank else openedBy c
  | .blank => openedBy c
  | .escape => .complete
  | .strong => if c = '\\' then .strongEscape else if c = '\'' then .complete else .strong
  | .strongEscape => .strong
  | .weak => if c = '\\' then .weakEscape else if c = '"' then .complete else .weak
  | .weakEscape => .weak

/-- The characters of a line before its comment, and where the line stands; absent for a line that
ends in a comment. -/
def scan : Quoting → List Char → List Char × Option Quoting
  | q, [] => ([], some q)
  | q, c :: rest =>
    if q = .blank ∧ c = '#' then ([], none)
    else
      let (taken, q) := scan (q.step c) rest
      (c :: taken, q)

/-- a text without the end of its line -/
def chomp (cs : List Char) : List Char :=
  match cs.reverse with
  | '\n' :: '\r' :: rest => rest.reverse
  | '\n' :: rest => rest.reverse
  | _ => cs

/-- what reading a line finds, and the lines after it -/
inductive Found
  | finished
  | malformed
  | line (text : List Char) (rest : List Bytes)

/-- The next line, with those that its quotes carry on to.  `taken` is what was read of it. -/
def nextLine (q : Quoting) (taken : List Char) : List Bytes → Found
  | [] => if q = .complete then .finished else .malformed
  | raw :: rest =>
    match Utf8.decode raw with
    | .error _ => .malformed
    | .ok s =>
      let whole := taken ++ s.toList
      if (Text.trimStart whole).head? = some '#' then .line [] rest
      else
        match scan q s.toList with
        | (before, none) => .line (taken ++ before) rest
        | (_, some .complete) => .line (chomp whole) rest
        | (_, some q) => nextLine q whole rest

/-! ## values -/

/-- where a value stands after some of its characters -/
inductive Mode
  | plain (weak : Bool)
  | escape (weak : Bool)
  | strong
  /-- in a name after a dollar sign -/
  | name (weak : Bool) (acc : List Char)
  /-- in a name between braces -/
  | braced (weak : Bool) (acc : List Char)
  /-- after a blank: only a comment may follow -/
  | ending

/-- what a name stands for, nothing where it is not known; `acc` is the name from its end -/
def substitute (lookup : String → String) (acc : List Char) : List Char :=
  (lookup (String.ofList acc.reverse)).toList

/-- The value written by a text; `out` holds its characters so far from the last to the first. -/
def read? (lookup : String → String) : Mode → (out : List Char) → List Char → Option (List Char)
  | mode, out, [] =>
    match mode with
    | .plain false | .escape false | .ending => some out.reverse
    | .name false acc => some (out.reverse ++ substitute lookup acc)
    | _ => none
  | mode, out, c :: rest =>
    match mode with
    | .ending =>
      if c = ' ' ∨ c = '\t' then read? lookup .ending out rest
      else if c = '#' then some out.reverse
      else none
    | .escape weak =>
      if c = '\\' ∨ c = '\'' ∨ c = '"' ∨ c = '$' ∨ c = ' ' then
        read? lookup (.plain weak) (c :: out) rest
      else if c = 'n' then read? lookup (.plain weak) ('\n' :: out) rest
      else none
    | .strong =>
      if c = '\'' then read? lookup (.plain false) out rest
      else read? lookup .strong (c :: out) rest
    | .name weak acc =>
      if Text.isAlphanumeric c then read? lookup (.name weak (c :: acc)) out rest
      else if c = '{' ∧ acc = [] then read? lookup (.braced weak []) out rest
      else
        let out := (substitute lookup acc).reverse ++ out
        if c = '$' then read? lookup (.name weak []) out rest
        else read? lookup (.plain weak) (c :: out) rest
    | .braced weak acc =>
      if c = '}' then read? lookup (.plain weak) ((substitute lookup acc).reverse ++ out) rest
      else read? lookup (.braced weak (c :: acc)) out rest
    | .plain weak =>
      if c = '$' then read? lookup (.name weak []) out rest
      else if c = '\\' then read? lookup (.escape weak) out rest
      else if c = '"' then read? lookup (.plain !weak) out rest
      else if weak then read? lookup (.plain true) (c :: out) rest
      else if c = '\'' then read? lookup .strong out rest
      else if c = ' ' ∨ c = '\t' then read? lookup .ending out rest
      else read? lookup (.plain false) (c :: out) rest

def value? (lookup : String → String) (cs : List Char) : Option String :=
  (read? lookup (.plain false) [] cs).map String.ofList

/-! ## assignments -/

def isNameStart (c : Char) : Bool := c.isAlpha || c == '_'

def isNameChar (c : Char) : Bool := c.isAlphanum || c == '_' || c == '.'

/-- a name, and what follows it with the blanks between passed over -/
def name? (cs : List Char) : Option (String × List Char) :=
  match cs with
  | c :: _ =>
    if isNameStart c then
      let name := cs.takeWhile isNameChar
      some (String.ofList name, Text.trimStart (cs.drop name.length))
    else none
  | [] => none

/-- the name that is assigned to, and what follows the sign; the word `export` may stand before
the name -/
def target? (cs : List Char) : Option (String × List Char) := do
  let (name, rest) ← name? cs
  match rest with
  | '=' :: rest => return (name, rest)
  | rest =>
    if name = "export" then
      match ← name? rest with
      | (name, '=' :: rest) => return (name, rest)
      | _ => none
    else none

inductive Assignment
  | none
  | malformed
  | assign (name value : String)

/-- the assignment of a line; a blank line and a comment have none -/
def assignment (lookup : String → String) (line : List Char) : Assignment :=
  let cs := Text.trimStart (Text.trimEnd line)
  if cs.isEmpty || cs.head? == some '#' then .none
  else
    match target? cs with
    | Option.none => .malformed
    | some (name, rest) =>
      let rest := Text.trimStart rest
      if rest.isEmpty || rest.head? == some '#' then .assign name ""
      else
        match value? lookup rest with
        | Option.none => .malformed
        | some value => .assign name value

/-! ## files -/

/-- A variable that is set stands for its value, another one for what the file assigned last. -/
def lookup (env assigned : Environment) (name : String) : String :=
  match env.find? name with
  | some value => value
  | none => (assigned.find? name).getD ""

/-- the assignments of a file, one after another, up to the first line that is malformed -/
def assignAll : (fuel : Nat) → (env assigned : Environment) → List Bytes → Environment
  | 0, env, _, _ => env
  | fuel + 1, env, assigned, lines =>
    match nextLine .complete [] lines with
    | .finished => env
    | .malformed => env
    | .line text rest =>
      match assignment (lookup env assigned) text with
      | .none => assignAll fuel env assigned rest
      | .malformed => env
      | .assign name value =>
        assignAll fuel (if env.contains name then env else env.insert name value)
          (assigned.insert name value) rest

/-- lines of bytes, each with its line feed -/
def byteLines : Bytes → List Bytes
  | [] => []
  | b :: rest =>
    if b = 0x0A then [b] :: byteLines rest
    else
      match byteLines rest with
      | [] => [[b]]
      | line :: lines => (b :: line) :: lines

/-- the bytes after a mark that some editors put before a text -/
def skipMark (bs : Bytes) : Bytes :=
  match bs with
  | 0xEF :: 0xBB :: 0xBF :: rest => rest
  | _ => bs

end DotEnv

/-- The environment with the variables of a `.env` file that are not set yet. -/
def Environment.load (env : Environment) (contents : Bytes) : Environment :=
  let lines := DotEnv.byteLines (DotEnv.skipMark contents)
  DotEnv.assignAll (lines.length + 1) env ∅ lines

end Splittable
