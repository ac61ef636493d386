import Splittable.Fault
import Splittable.FileSystem.Path
import Splittable.Table

/-!
# File systems

A file system is a numbered collection of nodes: files, directories and symbolic links.  A node
keeps its number for ever, so a file that is open stays readable after its name is removed, and
sees what is written to it.  Names are texts: a file system with names that are no UTF-8 is not
meant.

* `Node`, `FileSystem`   the nodes and the collection, with a working directory;
* `resolve`, `lookup`    the node a path names, links followed, or the place where it is missing;
* `contents`, `size`     what a file holds;
* `write`, `remove`, `makeDirectories`, `link`   changes.
-/

namespace Splittable

abbrev NodeId := Nat

inductive Node
  | file (bytes : ByteArray)
  | directory (parent : NodeId) (entries : Table NodeId)
  | link (target : String)

/-- Node 0 is the root directory, which is its own parent. -/
structure FileSystem where
  nodes : Array Node
  workingDirectory : NodeId
  /-- the last offset that a file can be sought to: offsets are signed words, and a file system may
  have a lower limit -/
  seekLimit : Fin 0x8000000000000000

namespace FileSystem

/-- the last offset there is -/
def lastOffset : Fin 0x8000000000000000 := ⟨0x7FFFFFFFFFFFFFFF, by decide⟩

theorem val_lastOffset : lastOffset.val = 0x7FFFFFFFFFFFFFFF := rfl

/-- the root directory alone -/
def empty : FileSystem := ⟨#[.directory 0 {}], 0, lastOffset⟩

def node? (fs : FileSystem) (id : NodeId) : Option Node := fs.nodes[id]?

def isDirectory (fs : FileSystem) (id : NodeId) : Bool :=
  match fs.node? id with
  | some (.directory _ _) => true
  | _ => false

def entries (fs : FileSystem) (id : NodeId) : List (String × NodeId) :=
  match fs.node? id with
  | some (.directory _ entries) => entries.entries
  | _ => []

def contents (fs : FileSystem) (id : NodeId) : Except OsError ByteArray :=
  match fs.node? id with
  | some (.file bytes) => .ok bytes
  | some (.directory _ _) => .error .isADirectory
  | _ => .error .noEntry

def size (fs : FileSystem) (id : NodeId) : UInt64 :=
  match fs.node? id with
  | some (.file bytes) => bytes.size.toUInt64
  | _ => 0

/-! ## names -/

/-- a name longer than this many bytes, or a path at least as long, is refused -/
def nameLimit : Nat := 255

def pathLimit : Nat := 4096

/-- how many symbolic links one path may lead through -/
def linkLimit : Nat := 40

/-- The steps of a path.  Doubled separators say nothing; one at the end asks for a directory, as
a step to the directory itself does. -/
def steps (path : String) : List String :=
  let names := (Path.pieces path).filter (· ≠ "")
  if path.toList.getLast? = some '/' then names ++ ["."] else names

/-- where a path leads: to a node, or to a directory that has no entry of the last name -/
inductive Place
  | node (id : NodeId)
  | vacant (directory : NodeId) (name : String)

/-- Follow steps from a node.  A link in the middle of the steps is always followed, one at their
end only where `follow` says so. -/
def walkFrom (fs : FileSystem) (follow : Bool) (links : Nat) (current : NodeId)
    (names : List String) : Except OsError Place :=
  match names with
  | [] => .ok (.node current)
  | name :: rest =>
    match fs.node? current with
    | some (.directory parent entries) =>
      if name = "." then walkFrom fs follow links current rest
      else if name = ".." then walkFrom fs follow links parent rest
      else if nameLimit < name.utf8ByteSize then .error .nameTooLong
      else
        match entries.find? name with
        | none => if rest.isEmpty then .ok (.vacant current name) else .error .noEntry
        | some id =>
          match fs.node? id with
          | some (.link target) =>
            if rest.isEmpty && !follow then .ok (.node id)
            else
              match links with
              | 0 => .error .linkLoop
              | links + 1 =>
                if target.isEmpty then .error .noEntry
                else
                  walkFrom fs follow links (if Path.isAbsolute target then 0 else current)
                    (steps target ++ rest)
          | _ => walkFrom fs follow links id rest
    | _ => .error .notADirectory
termination_by (links, names.length)

/-- where a path leads from the working directory, or from the root -/
def locate (fs : FileSystem) (follow : Bool) (path : String) : Except OsError Place :=
  if path.toList.contains '\x00' then .error .nulInName
  else if path.isEmpty then .error .noEntry
  else if pathLimit ≤ path.utf8ByteSize then .error .nameTooLong
  else
    walkFrom fs follow linkLimit (if Path.isAbsolute path then 0 else fs.workingDirectory)
      (steps path)

/-- the node a path names, every link followed -/
def resolve (fs : FileSystem) (path : String) : Except OsError NodeId :=
  match fs.locate true path with
  | .ok (.node id) => .ok id
  | .ok (.vacant _ _) => .error .noEntry
  | .error e => .error e

def isDirectoryAt (fs : FileSystem) (path : String) : Bool :=
  match fs.resolve path with
  | .ok id => fs.isDirectory id
  | .error _ => false

def read (fs : FileSystem) (path : String) : Except OsError ByteArray := do
  fs.contents (← fs.resolve path)

/-! ## changes -/

def addEntry (fs : FileSystem) (directory : NodeId) (name : String) (node : Node) : FileSystem :=
  let id := fs.nodes.size
  match fs.node? directory with
  | some (.directory parent entries) =>
    { fs with
      nodes := (fs.nodes.push node).setIfInBounds directory
        (.directory parent (entries.insert name id)) }
  | _ => fs

/-- Replace the contents of a file, or make it where it is missing. -/
def write (fs : FileSystem) (path : String) (bytes : ByteArray) : Except OsError FileSystem :=
  if path.toList.getLast? = some '/' then .error .isADirectory
  else
    match fs.locate true path with
    | .error e => .error e
    | .ok (.vacant directory name) => .ok (fs.addEntry directory name (.file bytes))
    | .ok (.node id) =>
      if fs.isDirectory id then .error .isADirectory
      else .ok { fs with nodes := fs.nodes.setIfInBounds id (.file bytes) }

/-- Take a name out of its directory.  The node stays for those who have it open. -/
def remove (fs : FileSystem) (path : String) : FileSystem :=
  match fs.locate false path with
  | .ok (.node id) =>
    { fs with
      nodes := fs.nodes.map fun node =>
        match node with
        | .directory parent entries =>
          .directory parent (.ofList (entries.entries.filter fun e => e.2 ≠ id))
        | node => node }
  | _ => fs

/-- Make the directories named by the steps that are not there yet. -/
def makeSteps (fs : FileSystem) (current : NodeId) : List String → FileSystem
  | [] => fs
  | name :: rest =>
    match fs.walkFrom true linkLimit current [name] with
    | .ok (.node id) => makeSteps fs id rest
    | .ok (.vacant directory name) =>
      makeSteps (fs.addEntry directory name (.directory directory {})) fs.nodes.size rest
    | .error _ => fs

def makeDirectories (fs : FileSystem) (path : String) : FileSystem :=
  fs.makeSteps (if Path.isAbsolute path then 0 else fs.workingDirectory) (steps path)

/-- Make a symbolic link where the name is free. -/
def link (fs : FileSystem) (path target : String) : FileSystem :=
  match fs.locate false path with
  | .ok (.vacant directory name) => fs.addEntry directory name (.link target)
  | _ => fs

end FileSystem

end Splittable
