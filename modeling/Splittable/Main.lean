import Splittable.Command.Run

/-!
# The program

The command line, run on the files of the machine.  What a command may look at is taken over into
a file system first, the command runs on that, and what it wrote is written back.

* `Sight`       a path a command looks at, and how deep below it;
* `takeOver`    the file system with what lies at a path of the machine;
* `main`        runs the command of the command line.
-/

namespace Splittable.Program

/-- a path, and how many levels of directories below it are looked at -/
structure Sight where
  path : String
  levels : Nat

/-- no path of the machine has more levels -/
def allLevels : Nat := FileSystem.pathLimit

/-- what the listing of a source looks at -/
def listingSight (source : Source) : Sight :=
  let path := Resource.localPart source.resourceText
  let below :=
    match LineText.isRecursive source.overrides with
    | .ok true => allLevels
    | _ => 1
  if Glob.hasMeta path then
    let (base, patterns) := Listing.splitGlob path
    ⟨base, patterns.length + below⟩
  else ⟨path, below⟩

/-- what the read of a bundle looks at -/
def bundleSight (bundle : Source) : Sight :=
  match bundle.split with
  | none => listingSight bundle
  | some handle =>
    match FileSplit.ofPayload handle.payload with
    | .ok split => ⟨split.path, 0⟩
    | .error _ => listingSight bundle

/-- the directory that a path is looked for in -/
def parentOf (path : String) : String :=
  let parent := String.intercalate "/" (Path.pieces path).dropLast
  if !parent.isEmpty then parent else if Path.isAbsolute path then "/" else "."

/-- The file system with what lies at a path of the machine.  A symbolic link becomes one to the
path it leads to in the end, and what cannot be looked at is left out; `inside` holds where the
links lead to that are followed already. -/
partial def takeOver (inside : List String) (files : FileSystem) (sight : Sight) :
    IO FileSystem := do
  let place := System.mkFilePath [sight.path]
  let .ok found ← place.symlinkMetadata.toBaseIO | return files
  let files := files.makeDirectories (parentOf sight.path)
  match found.type with
  | .symlink =>
    match ← (IO.FS.realPath place).toBaseIO with
    | .error _ => return files.link sight.path ""
    | .ok target =>
      let target := target.toString
      let files := files.link sight.path target
      if inside.contains target then return files
      takeOver (target :: inside) files { sight with path := target }
  | .dir =>
    let mut files := files.makeDirectories sight.path
    if 0 < sight.levels then
      let .ok entries ← place.readDir.toBaseIO | return files
      for entry in entries do
        files ← takeOver inside files ⟨Path.join sight.path entry.fileName, sight.levels - 1⟩
    return files
  | _ =>
    let .ok bytes ← (IO.FS.readBinFile place).toBaseIO | return files
    return (files.write sight.path bytes).toOption.getD files

def takeOverAll (files : FileSystem) (sights : List Sight) : IO FileSystem :=
  sights.foldlM (takeOver []) files

/-- the variables that the process was started with -/
def environment : IO Environment := do
  let .ok bytes ← (IO.FS.readBinFile "/proc/self/environ").toBaseIO | return ∅
  let entries := (Utf8.lossy bytes.data.toList).splitOn "\x00"
  return .ofList (entries.filterMap fun entry =>
    match entry.splitOn "=" with
    | name :: value :: rest => some (name, String.intercalate "=" (value :: rest))
    | _ => none)

def threads : IO Threads := do
  let .ok text ← (IO.FS.readFile "/proc/cpuinfo").toBaseIO | return .ofMachine 1
  return .ofMachine (max 1 ((text.splitOn "\n").filter (·.startsWith "processor")).length)

/-- the words of a key that is new in every run -/
def entropy : IO (Nat → UInt32) := do
  let bytes ← IO.getRandomBytes 32
  let key := (List.range 8).map fun i =>
    (List.range 4).foldl (fun word j => word * 256 + (bytes.data.getD (4 * i + j) 0).toUInt32) 0
  return ChaCha.wordAt key

/-- the machine's files as far as an invocation may look at them -/
def filesFor (environment : Environment) (invocation : Invocation) : IO FileSystem := do
  let directory := (← IO.currentDir).toString
  let files := FileSystem.empty.makeDirectories directory
  let files := { files with workingDirectory := (files.resolve directory).toOption.getD 0 }
  let files ← takeOverAll files [⟨SettingsFile.name, 0⟩, ⟨Environment.fileName, 0⟩]
  let (file, _) := SettingsFile.load files
  let layer := ((environment.withFile files).layer).1
  let settings := Settings.ofLayers file layer invocation.layer
  match invocation.bundles with
  | some path =>
    let files ← takeOver [] files ⟨path, 0⟩
    match Plan.load files path with
    | .ok bundles => takeOverAll files (bundles.map bundleSight)
    | .error _ => return files
  | none =>
    let listed := invocation.resource.toList.map fun r => listingSight (settings.source r)
    let written := invocation.output.toList.flatMap fun path => [⟨parentOf path, 0⟩, ⟨path, 0⟩]
    takeOverAll files (listed ++ written)

/-- Write back the file that a plan was written to. -/
def writeBack (invocation : Invocation) (files : FileSystem) : IO Unit := do
  match invocation.output with
  | none => return
  | some path =>
    match files.read path with
    | .ok bytes => IO.FS.writeBinFile path bytes
    | .error _ => return

def usage : String :=
  "Usage: splitsrc <size|plan|read> [OPTIONS] [RESOURCE]"

def refusalText : Refusal → String
  | .help => usage
  | .noCommand => "a command is missing"
  | .unknownCommand => "unknown command"
  | .unknownArgument => "unexpected argument"
  | .surplusValue => "an option that takes no value has one"
  | .repeated => "an option is given twice"
  | .badValue => "an option's value is missing or not one of those allowed"
  | .unreadableValue => "an option's value cannot be read"

def run (words : List String) : IO UInt32 := do
  let environment ← environment
  let files ←
    match Invocation.parse words with
    | .ok invocation => filesFor environment invocation
    | .error _ => pure .empty
  let world : World Unit := ⟨files, .empty, [], ← entropy, 0, ()⟩
  let answer := Command.execute ⟨environment, ← threads⟩ words world
  match answer with
  | .error .help => IO.println usage
  | .error refusal => IO.eprintln s!"error: {refusalText refusal}\n\n{usage}"
  | .ok outcome =>
    for entry in outcome.world.log do
      IO.eprintln s!"[splitsrc {entry.level.name}] {entry.text}"
    IO.print outcome.printed
    match outcome.result with
    | .error problem => IO.eprintln s!"Error: {problem.report}"
    | .ok () =>
      if let .ok invocation := Invocation.parse words then
        writeBack invocation outcome.world.files
  return (Command.status answer).toUInt32

end Splittable.Program

def main (words : List String) : IO UInt32 := Splittable.Program.run words
