import Splittable.Toml.Lexeme

/-!
# TOML documents

A document is a table that its lines fill.  A table may be filled from several places, but only as
its origin allows: one with a header of its own is not opened again, and dotted keys add only to
tables that dotted keys made.

* `Node`      a document that is being filled;
* `within`    a change somewhere in it;
* `value`     a value at the front of a text;
* `parse`     the table of a document.
-/

namespace Splittable.Toml

/-! ## tables that are being filled -/

/-- how a table came to be -/
inductive Origin
  /-- it has a header of its own -/
  | header
  /-- it stands on the way to a header -/
  | implied
  /-- it stands on the way of a dotted key -/
  | dotted
deriving DecidableEq, Repr

inductive Node
  | leaf (value : Value)
  | table (origin : Origin) (entries : List (String × Node))
  /-- tables that share a header, the last of which is open -/
  | tables (items : List (List (String × Node)))

/-- the entries of a table, in the order in which they were made -/
abbrev Entries := List (String × Node)

/-- Replace what stands for a name, or add it. -/
def alter (name : String) (f : Option Node → Option Node) : Entries → Option Entries
  | [] => (f none).map fun node => [(name, node)]
  | (key, node) :: rest =>
    if key = name then (f (some node)).map fun node => (name, node) :: rest
    else (alter name f rest).map ((key, node) :: ·)

def alterLast (f : Entries → Option Entries) : List Entries → Option (List Entries)
  | [] => none
  | [entries] => (f entries).map ([·])
  | entries :: rest => (alterLast f rest).map (entries :: ·)

/-- Change the table that a path leads to, and make the tables that are missing on the way.  `byDot`
tells the way of a dotted key from that of a header; the change is told whether the table comes
from a dotted key. -/
def within (byDot : Bool) : (path : List String) → (f : Bool → Entries → Option Entries) →
    (isDotted : Bool) → Entries → Option Entries
  | [], f, isDotted, entries => f isDotted entries
  | name :: path, f, _, entries =>
    alter name (fun
      | none => (within byDot path f byDot []).map (.table (if byDot then .dotted else .implied))
      | some (.table origin entries) =>
        if byDot && origin == .header then none
        else (within byDot path f (origin == .dotted) entries).map (.table origin)
      | some (.tables items) => (alterLast (within byDot path f false) items).map .tables
      | some (.leaf _) => none) entries

/-- Add a value under a key.  The way of a dotted key ends in a table that such keys made. -/
def addKey (path : List String) (value : Value) (entries : Entries) : Option Entries :=
  match path.reverse with
  | [] => none
  | name :: way =>
    let way := way.reverse
    within true way (fun isDotted entries =>
      if isDotted == way.isEmpty then none
      else
        alter name (fun
          | none => some (.leaf value)
          | some _ => none) entries) false entries

/-- Open the table of a header, which has none so far. -/
def openTable (path : List String) (root : Entries) : Option Entries :=
  match path.reverse with
  | [] => none
  | name :: way =>
    within false way.reverse (fun _ =>
      alter name fun
        | none => some (.table .header [])
        | some (.table .implied entries) => some (.table .header entries)
        | some _ => none) false root

/-- Open one more of the tables of a header. -/
def openNext (path : List String) (root : Entries) : Option Entries :=
  match path.reverse with
  | [] => none
  | name :: way =>
    within false way.reverse (fun _ =>
      alter name fun
        | none => some (.tables [[]])
        | some (.tables items) => some (.tables (items ++ [[]]))
        | some _ => none) false root

mutual

def Node.value : Node → Value
  | .leaf value => value
  | .table _ entries => .table (entryValues entries)
  | .tables items => .array (tableValues items)

def entryValues : List (String × Node) → List (String × Value)
  | [] => []
  | (key, node) :: rest => (key, node.value) :: entryValues rest

def tableValues : List (List (String × Node)) → List Value
  | [] => []
  | entries :: rest => .table (entryValues entries) :: tableValues rest

end

/-! ## values -/

/-- how deep arrays and tables may lie in each other on one line -/
def nestingLimit : Nat := 80

mutual

/-- A value at the front of a text, and what follows it.  Every step spends fuel, at most two for
each character. -/
def value : (fuel depth : Nat) → List Char → Option (Value × List Char)
  | 0, _, _ => none
  | fuel + 1, depth, cs =>
    match cs with
    | '"' :: _ => (string? cs).map fun (s, rest) => (.text s, rest)
    | '\'' :: _ => (string? cs).map fun (s, rest) => (.text s, rest)
    | '[' :: rest => if depth = 0 then none else items fuel (depth - 1) [] rest
    | '{' :: rest => if depth = 0 then none else pairs fuel (depth - 1) [] rest
    | _ => scalar? cs

/-- The rest of an array, after its bracket or after a comma. -/
def items : (fuel depth : Nat) → (acc : List Value) → List Char → Option (Value × List Char)
  | 0, _, _, _ => none
  | fuel + 1, depth, acc, cs =>
    match filler? (cs.length + 1) cs with
    | none => none
    | some (']' :: rest) => some (.array acc.reverse, rest)
    | some cs =>
      match value fuel depth cs with
      | none => none
      | some (item, rest) =>
        match filler? (rest.length + 1) rest with
        | some (',' :: rest) => items fuel depth (item :: acc) rest
        | some (']' :: rest) => some (.array (item :: acc).reverse, rest)
        | _ => none

/-- The rest of a table on one line, after its brace or after a comma. -/
def pairs : (fuel depth : Nat) → (acc : Entries) → List Char → Option (Value × List Char)
  | 0, _, _, _ => none
  | fuel + 1, depth, acc, cs =>
    match filler? (cs.length + 1) cs with
    | none => none
    | some ('}' :: rest) => some (.table (entryValues acc), rest)
    | some cs =>
      match key? (cs.length + 1) cs with
      | some (path, '=' :: rest) =>
        match value fuel depth (skipBlanks rest) with
        | none => none
        | some (item, rest) =>
          match addKey path item acc, filler? (rest.length + 1) rest with
          | some acc, some (',' :: rest) => pairs fuel depth acc rest
          | some acc, some ('}' :: rest) => some (.table (entryValues acc), rest)
          | _, _ => none
      | _ => none

end

/-! ## lines -/

/-- A document up to some line: all of it, and the header under which the next line stands. -/
structure Draft where
  root : Entries
  header : List String

/-- the parts of a header between its brackets, and what follows them -/
def header? (closing : List Char) (cs : List Char) : Option (List String × List Char) := do
  let (path, rest) ← key? (cs.length + 1) cs
  if closing.isPrefixOf rest then some (path, rest.drop closing.length) else none

/-- a line that holds more than a comment, and what follows it -/
def statement? (draft : Draft) (cs : List Char) : Option (Draft × List Char) :=
  match cs with
  | '[' :: '[' :: rest => do
    let (path, rest) ← header? [']', ']'] rest
    return (⟨← openNext path draft.root, path⟩, rest)
  | '[' :: rest => do
    let (path, rest) ← header? [']'] rest
    return (⟨← openTable path draft.root, path⟩, rest)
  | _ => do
    let (path, rest) ← key? (cs.length + 1) cs
    let rest ← expect? '=' rest
    let (v, rest) ← value (2 * rest.length + 2) nestingLimit (skipBlanks rest)
    let root ← within false draft.header (fun _ => addKey path v) false draft.root
    return ({ draft with root }, rest)

/-- what follows the comment and the end of a line -/
def endLine? (cs : List Char) : Option (List Char) := do
  let rest ←
    match skipBlanks cs with
    | '#' :: rest => comment? rest
    | rest => some rest
  if rest.isEmpty then some [] else lineEnd? rest

def lines : (fuel : Nat) → Draft → List Char → Option Draft
  | 0, _, _ => none
  | fuel + 1, draft, cs =>
    match filler? (cs.length + 1) cs with
    | none => none
    | some [] => some draft
    | some cs =>
      match statement? draft cs with
      | none => none
      | some (draft, rest) =>
        match endLine? rest with
        | none => none
        | some rest => lines fuel draft rest

/-- a mark that some editors put before a text -/
def skipMark (cs : List Char) : List Char :=
  match cs with
  | '\uFEFF' :: rest => rest
  | _ => cs

def parse (s : String) : Option (List (String × Value)) :=
  let cs := skipMark s.toList
  (lines (cs.length + 1) ⟨[], []⟩ cs).map fun draft => entryValues draft.root

end Splittable.Toml
