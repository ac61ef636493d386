import Splittable.FileSystem.Basic

/-!
# Walks through a directory

A walk visits what lies below a directory in the order of names, a directory before what it holds,
symbolic links followed.  It ends at the first entry that cannot be followed or entered.

* `Walk`          which entries are wanted, by depth and by name;
* `Entry`         an entry found;
* `Walk.run`      the entries of a walk up to its first fault.
-/

namespace Splittable

/-- What a walk looks for.  The directory it starts from has depth 0.  Entries less deep than
`least` are passed through and not asked for their names. -/
structure Walk where
  least : Nat
  most : Option Nat
  visible : String → Bool

namespace Walk

structure Entry where
  path : String
  /-- the names that lead to the entry from where the walk starts -/
  names : List String
  node : NodeId

/-- entries in the order they were found, and the fault that ended the search -/
abbrev Found := List Entry × Option Fault

/-- a search for each item, up to the first fault -/
def searchAll {α : Type} (search : α → Found) : List α → Found
  | [] => ([], none)
  | item :: rest =>
    match search item with
    | (entries, some fault) => (entries, some fault)
    | (entries, none) =>
      let (more, fault) := searchAll search rest
      (entries ++ more, fault)

/-- an entry that the system refuses to look at -/
def refused (path : String) (e : OsError) : Fault :=
  ⟨e.kind, s!"IO error for operation on {path}: {e.message}", some e.message⟩

/-- a link that leads back to a directory the walk is inside of -/
def loop (path ancestor : String) : Fault :=
  .of .other s!"File system loop found: {path} points to an ancestor {ancestor}"

/-- the node behind an entry, links followed; `inside` holds the directories the walk is inside
of, the innermost first -/
def follow (fs : FileSystem) (inside : List (NodeId × String)) (path : String) (id : NodeId) :
    Except Fault NodeId :=
  match fs.node? id with
  | some (.link _) =>
    match fs.resolve path with
    | .error e => .error (refused path e)
    | .ok target =>
      match inside.find? (·.1 == target) with
      | some (_, ancestor) => .error (loop path ancestor)
      | none => .ok target
  | _ => .ok id

def enters (walk : Walk) (depth : Nat) : Bool :=
  match walk.most with
  | none => true
  | some most => depth + 1 ≤ most

/-- One entry of a directory, and what lies below it.  A link that leads astray ends the walk
before its name is looked at, and a directory whose path is too long where it would be entered. -/
def visit (walk : Walk) (fs : FileSystem) (inside : List (NodeId × String)) (directory : String)
    (names : List String) (depth : Nat)
    (below : List (NodeId × String) → String → List String → NodeId → Found)
    (item : String × NodeId) : Found :=
  let path := Path.join directory item.1
  let names := names ++ [item.1]
  match follow fs inside path item.2 with
  | .error fault => ([], some fault)
  | .ok id =>
    let wanted := walk.least ≤ depth
    if wanted && !walk.visible item.1 then ([], none)
    else
      let here : List Entry := if wanted then [⟨path, names, id⟩] else []
      if fs.isDirectory id && walk.enters depth then
        if FileSystem.pathLimit ≤ path.utf8ByteSize then (here, some (refused path .nameTooLong))
        else
          let (entries, fault) := below ((id, path) :: inside) path names id
          (here ++ entries, fault)
      else (here, none)

/-- What lies below a directory whose entries have the given depth.  Fuel bounds the depth. -/
def descend (walk : Walk) (fs : FileSystem) : (fuel depth : Nat) → List (NodeId × String) →
    String → List String → NodeId → Found
  | 0, _, _, _, _, _ => ([], none)
  | fuel + 1, depth, inside, path, names, id =>
    searchAll
      (visit walk fs inside path names depth (descend walk fs fuel (depth + 1))) (fs.entries id)

/-- No walk gets this deep: each link leads to another directory than those around it, and between
two links there is a chain of directories proper. -/
def depthLimit (fs : FileSystem) : Nat := (fs.nodes.size + 1) * (fs.nodes.size + 1)

def run (walk : Walk) (fs : FileSystem) (path : String) : Found :=
  match fs.resolve path with
  | .error e => ([], some (refused path e))
  | .ok id => walk.descend fs (depthLimit fs) 1 [(id, path)] path [] id

end Walk

end Splittable
