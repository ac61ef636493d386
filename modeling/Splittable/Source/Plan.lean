import Splittable.Context
import Splittable.Source.Basic

/-!
# Planning

From a source to its bundles, and to its size.

* `Source.library`         the library of a source's format;
* `Source.bundles`         one source per split that the library discovers;
* `Source.estimatedSize`   the size of the files that the resource stands for, or 0.
-/

namespace Splittable

namespace Source

variable {ρ ε : Type}

/-- the format library that a context knows by the name of the source's format -/
def library (source : Source) (context : Context ρ ε) : Except PlanningError (Library ρ ε) :=
  let name := source.format.getD ""
  match context.formats.find? name with
  | some library => .ok library
  | none => .error (.unknownFormat name context.formats.names)

/-- The handles of splits, up to the first split that cannot be shipped. -/
def handles (decoders : Decoders ε) : List Descriptor → Except HandleError (List Handle)
  | [] => .ok []
  | split :: rest =>
    match Handle.ofDescriptor split decoders with
    | .error e => .error e
    | .ok handle => (handles decoders rest).map (handle :: ·)

/-- the splits of a resource as handles, in the order of the context -/
def plan (library : Library ρ ε) (resource : String) (overrides : Overrides) (desired : UInt64)
    (context : Context ρ ε) : Act ε (Except PlanningError (List Handle)) := do
  match ← library.discover resource overrides (some (.exact (context.bundleSize desired))) with
  | .error fault => return .error (.undiscovered resource library.name fault)
  | .ok splits =>
    note .info s!"Got {splits.length} splits."
    match handles context.decoders splits with
    | .error e => return .error (.unshippable e)
    | .ok handles => return .ok (← context.order.apply handles)

/-- One source per split, none smaller than the context allows.  A source that has a split is its
own only bundle. -/
def bundles (source : Source) (desired : UInt64) (context : Context ρ ε) :
    Act ε (Except SourceError (List Source)) := do
  if source.split.isSome then return .ok [source]
  match source.validate with
  | .error e => return .error e
  | .ok () =>
    match source.library context with
    | .error e => return .error (.planning e)
    | .ok library =>
      match ← plan library source.resourceText source.overrides desired context with
      | .error e => return .error (.planning e)
      | .ok handles => return .ok (handles.map source.withSplit)

/-- the sum of the sizes of the files listed, modulo `2 ^ 64`; a program that is built with checks
would stop where that is not the sum -/
def listedSize (source : Source) (context : Context ρ ε) : Act ε (Except SourceError UInt64) := do
  match source.library context with
  | .error e =>
    return .error (.estimation source.resourceText
      (.of .notFound (SourceError.planning e).message))
  | .ok library =>
    match ← library.listing source.resourceText source.overrides with
    | .error fault => return .error (.estimation source.resourceText fault)
    | .ok files => return .ok (files.foldl (fun sum file => sum + file.length) 0)

/-- The size of the resource, or 0 where it cannot be told or is not to be looked at. -/
def estimatedSize (source : Source) (context : Context ρ ε) : Act ε UInt64 := do
  if context.suppressListing then return 0
  match ← source.listedSize context with
  | .ok size => return size
  | .error e =>
    note .error e.message
    return 0

end Source

end Splittable
