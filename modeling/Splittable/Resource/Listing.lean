import Splittable.FileSystem.Walk
import Splittable.Resource.Glob
import Splittable.Resource.Scheme

/-!
# Listings

The files that a resource stands for: the file itself, the visible files of a directory, or what a
pattern matches.

* `FileStatus`            a file of a listing;
* `Listing.ofDirectory`   the visible files of a directory;
* `Listing.ofGlob`        the files and directories that match a pattern;
* `Listing.resolve`       the files of a resource, sorted by path, each once.
-/

namespace Splittable

/-- A path is a text, as all names of a file system are here. -/
structure FileStatus where
  path : String
  length : UInt64
deriving DecidableEq, Repr

namespace Listing

/-- a file with its size, which is asked for by its path -/
def status (fs : FileSystem) (entry : Walk.Entry) : Except Fault FileStatus :=
  if FileSystem.pathLimit ≤ entry.path.utf8ByteSize then
    .error (Walk.refused entry.path .nameTooLong)
  else .ok ⟨entry.path, fs.size entry.node⟩

/-- The files of a directory that are not hidden, with those of the directories below it where
`recursive` says so. -/
def ofDirectory (fs : FileSystem) (path : String) (recursive : Bool) :
    Except Fault (List FileStatus) := do
  let walk : Walk :=
    { least := 1, most := if recursive then none else some 1,
      visible := fun n => !Resource.isHidden n }
  let (entries, fault) := walk.run fs path
  let files ← (entries.filter fun e => !fs.isDirectory e.node).mapM (status fs)
  match fault with
  | some fault => throw fault
  | none => return files

/-- Each name matches the pattern at its place, and none is hidden. -/
def namesMatch : List String → List String → Bool
  | [], _ => true
  | _, [] => true
  | name :: names, pattern :: patterns =>
    !Resource.isHidden name && Glob.matches pattern name && namesMatch names patterns

/-- the literal directory before the first pattern, and the patterns below it -/
def splitGlob (pattern : String) : String × List String :=
  let pieces := Path.pieces pattern
  let literal := pieces.takeWhile fun piece => !Glob.hasMeta piece
  let patterns := (pieces.dropWhile fun piece => !Glob.hasMeta piece).filter (· ≠ "")
  let base := String.intercalate "/" literal
  let base := if !base.isEmpty then base else if Path.isAbsolute pattern then "/" else "."
  (base, patterns)

/-- The files of the entries that match, up to the first fault; a directory stands for its
files. -/
def filesOf (fs : FileSystem) (recursive : Bool) :
    List Walk.Entry → Except Fault (List FileStatus)
  | [] => .ok []
  | entry :: rest => do
    let here ←
      if fs.isDirectory entry.node then ofDirectory fs entry.path recursive
      else (status fs entry).map fun file => [file]
    let more ← filesOf fs recursive rest
    return here ++ more

/-- A pattern whose literal directory is missing matches nothing. -/
def ofGlob (fs : FileSystem) (pattern : String) (recursive : Bool) :
    Except Fault (List FileStatus) := do
  let (base, patterns) := splitGlob pattern
  if fs.isDirectoryAt base then
    let walk : Walk :=
      { least := patterns.length, most := some patterns.length,
        visible := fun n => !Resource.isHidden n }
    let (entries, fault) := walk.run fs base
    let files ← filesOf fs recursive (entries.filter fun e => namesMatch e.names patterns)
    match fault with
    | some fault => throw fault
    | none => return files
  else return []

/-- drop each file whose path says the same as the one before it -/
def distinct : List FileStatus → List FileStatus
  | a :: b :: rest =>
    if Path.same a.path b.path then distinct (a :: rest) else a :: distinct (b :: rest)
  | files => files
termination_by files => files.length

/-- The files of a resource in the order of their paths.  A literal path that is missing is a
fault, a pattern that matches nothing is not. -/
def resolve (fs : FileSystem) (resource : String) (recursive : Bool) :
    Except Fault (List FileStatus) := do
  if Resource.isRemote resource then
    throw (.of .unsupported s!"remote resource cannot be listed locally: {resource}")
  let path := Resource.localPart resource
  if path.isEmpty then throw (.of .invalidInput "empty resource identifier")
  let files ←
    if Glob.hasMeta path then ofGlob fs path recursive
    else
      match fs.resolve path with
      | .error e =>
        throw (e.fault.withMessage s!"input path does not exist: {path}: {e.message}")
      | .ok id =>
        if fs.isDirectory id then ofDirectory fs path recursive
        else pure [⟨path, fs.size id⟩]
  return distinct (files.mergeSort fun a b => Path.le a.path b.path)

end Listing

end Splittable
