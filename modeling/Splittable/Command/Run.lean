import Splittable.Command.Arguments
import Splittable.Command.Plan
import Splittable.Pool.Read
import Splittable.Settings.Resolve

/-!
# Commands

* `Command.size`, `plan`, `read`   the commands, as what they print;
* `Command.run`                    the command of an invocation;
* `Command.execute`                the command of a command line.
-/

namespace Splittable

variable {ε : Type}

/-- where a command runs, apart from its world -/
structure Machine where
  environment : Environment
  threads : Threads

structure Outcome (ε : Type) where
  printed : String
  result : Except Problem Unit
  world : World ε

namespace Command

abbrev Number := Float

def missingResource : Problem := ⟨"RESOURCE is required", []⟩

def failed (problem : Problem) (w : World ε) : Outcome ε := ⟨"", .error problem, w⟩

/-- the context of a command, under a flag of its own -/
def context (settings : Settings) (w : World ε) : Context Number ε × World ε :=
  let (interrupt, flags) := w.flags.create
  (settings.context Number ε interrupt, { w with flags })

/-- the settings of an invocation; a read has its number of threads from the command line first -/
def settings (machine : Machine) (invocation : Invocation) : Act ε Settings := do
  let settings ← Settings.resolve machine.environment invocation.layer
  return { settings with threads := invocation.threads.or settings.threads }

def size (machine : Machine) (invocation : Invocation) (w : World ε) : Outcome ε :=
  let (settings, w) := settings machine invocation w
  match invocation.resource with
  | none => failed missingResource w
  | some resource =>
    let (context, w) := context settings w
    let (size, w) := (settings.source resource).estimatedSize context w
    ⟨Numeral.render size ++ "\n", .ok (), w⟩

/-- the bundles of a resource, or why there is no plan -/
def bundlesOf (settings : Settings) (context : Context Number ε) (resource : String) :
    Act ε (Except Problem (List Source)) := do
  match ← (settings.source resource).bundles settings.bundleSize context with
  | .ok bundles => return .ok bundles
  | .error e => return .error ⟨s!"plan {resource}", e.chain⟩

def plan (machine : Machine) (invocation : Invocation) (w : World ε) : Outcome ε :=
  let (settings, w) := settings machine invocation w
  match invocation.resource with
  | none => failed missingResource w
  | some resource =>
    let (context, w) := context settings w
    match bundlesOf settings context resource w with
    | (.error problem, w) => failed problem w
    | (.ok bundles, w) =>
      match invocation.output with
      | none => ⟨Plan.render bundles, .ok (), w⟩
      | some path =>
        match w.files.write path (Plan.render bundles).toByteArray with
        | .error e => failed ⟨s!"create {path}", [e.message]⟩ w
        | .ok files =>
          ⟨"", .ok (),
            { w with files }.note .info s!"Wrote {bundles.length} bundles to {path}"⟩

/-- the bundles to read: those of a file, or those of the resource -/
def bundlesToRead (settings : Settings) (context : Context Number ε) (invocation : Invocation) :
    Act ε (Except Problem (List Source)) := do
  match invocation.bundles with
  | some path =>
    if invocation.resource.isSome then
      note .warn "RESOURCE is ignored when --bundles is given"
    return Plan.load (← get).files path
  | none =>
    match invocation.resource with
    | none => return .error missingResource
    | some resource => bundlesOf settings context resource

/-- the key and the value of a record, with a tab between them -/
def recordLine (pair : Pair) : String := s!"{pair.key.display}\t{pair.value.display}\n"

/-- Add the line of a record to those before it, the newest first. -/
def printRecord (count : Bool) : OnRecord (List String) Empty := fun pair printed =>
  (.ok (), if count then printed else recordLine pair :: printed)

/-- Print the records of the bundles, or only their number.  What was read before a failure is
printed. -/
def read (machine : Machine) (invocation : Invocation) (w : World ε) : Outcome ε :=
  let (settings, w) := settings machine invocation w
  let (context, w) := context settings w
  match bundlesToRead settings context invocation w with
  | (.error problem, w) => failed problem w
  | (.ok bundles, w) =>
    let w := w.note .info s!"Reading {bundles.length} bundles"
    let count := invocation.count.getD false
    let reading :=
      readBundles bundles context machine.threads settings.threads (printRecord count) [] w
    let printed := String.join reading.total.reverse
    match reading.outcome with
    | none => ⟨printed, .error ⟨ReadError.endless.message, []⟩, reading.world⟩
    | some (.error (.refused reason)) => reason.elim
    | some (.error (.bundle failure)) =>
      ⟨printed, .error ⟨failure.message, []⟩, reading.world⟩
    | some (.ok summary) =>
      if count then
        ⟨s!"{summary.records} records in {summary.bundles} bundles\n", .ok (), reading.world⟩
      else
        ⟨printed, .ok (),
          reading.world.note .info
            s!"Read {summary.records} records from {summary.bundles} bundles"⟩

def run (machine : Machine) (invocation : Invocation) (w : World ε) : Outcome ε :=
  match invocation.verb with
  | .size => size machine invocation w
  | .plan => plan machine invocation w
  | .read => read machine invocation w

end Command

/-- what a command line leaves behind: a refusal, or what its command does -/
def Command.execute (machine : Machine) (words : List String) (w : World ε) :
    Except Refusal (Outcome ε) :=
  (Invocation.parse words).map fun invocation => run machine invocation w

def Command.status : Except Refusal (Outcome ε) → Nat
  | .error .help => 0
  | .error _ => 2
  | .ok outcome => if outcome.result.isOk then 0 else 1

end Splittable
