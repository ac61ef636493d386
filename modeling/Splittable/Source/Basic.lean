import Splittable.Json.Printer
import Splittable.Json.Reader
import Splittable.Library
import Splittable.SourceError

/-!
# Sources

A source says what to read: a resource in some format, possibly narrowed to one split.  It is
never changed; a bundle is the source with a split.

* `Source`, `Source.text`       sources, and the source of the lines of a resource;
* `Source.validate`             whether the required fields are set;
* `Source.defaultEncoding`      how its records are encoded where nothing else is said;
* `Source.Same`                 equality of sources;
* `Source.toJson`, `ofJson?`, `render`, `parse`   the shipped form.
-/

namespace Splittable

structure Source where
  resource : Option String
  format : Option String
  keyType : Option TypeTag
  valueType : Option TypeTag
  split : Option Handle
  outputEncoding : Option PairEncoding
  overrides : Overrides

namespace Source

def unset : Source := ⟨none, none, none, none, none, none, {}⟩

def make (resource format : String) (keyType valueType : TypeTag) : Source :=
  { unset with resource, format, keyType, valueType }

/-- offsets and lines, in the text format -/
def text (resource : String) : Source := make resource "text" (.record .long) (.record .text)

def withSplit (source : Source) (handle : Handle) : Source := { source with split := some handle }

def resourceText (source : Source) : String := source.resource.getD ""

/-- The first required field that is not set is the one reported.  An empty resource or format
counts as not set. -/
def validate (source : Source) : Except SourceError Unit :=
  if (source.resource.getD "").isEmpty then .error (.configuration .resource)
  else if (source.format.getD "").isEmpty then .error (.configuration .format)
  else if source.keyType.isNone then .error (.configuration .keyType)
  else if source.valueType.isNone then .error (.configuration .valueType)
  else .ok ()

/-- The encoding that is set, or the one of the declared types. -/
def defaultEncoding (source : Source) : Except SourceError PairEncoding :=
  match source.outputEncoding with
  | some encoding => .ok encoding
  | none =>
    match source.keyType with
    | none => .error (.configuration .keyType)
    | some key =>
      match source.valueType with
      | none => .error (.configuration .valueType)
      | some value =>
        match PairEncoding.ofTypes key value with
        | .ok encoding => .ok encoding
        | .error name => .error (.unsupportedType name)

/-- Records come in no order of their keys. -/
def producesSortedOutput (_ : Source) : Bool := false

/-- the source without what is known about its split beyond the shipped form -/
def shipped (source : Source) : Source :=
  { source with split := source.split.map fun handle => { handle with decoded := none } }

/-- Sources are the same when they ship the same. -/
def Same (a b : Source) : Prop :=
  a.resource = b.resource ∧ a.format = b.format ∧ a.keyType = b.keyType ∧
    a.valueType = b.valueType ∧ a.outputEncoding = b.outputEncoding ∧ a.overrides = b.overrides ∧
    match a.split, b.split with
    | none, none => True
    | some x, some y => x.Same y
    | _, _ => False

instance (a b : Source) : Decidable (Same a b) := by
  unfold Same
  cases a.split <;> cases b.split <;> infer_instance

/-! ## JSON -/

def optional (f : α → Json) : Option α → Json
  | none => .null
  | some a => f a

/-- the first four fields always, the others where they are set -/
def toJson (source : Source) : Json :=
  .ofFields (
    [("resource", optional Json.ofText source.resource),
      ("format", optional Json.ofText source.format),
      ("key_type", optional TypeTag.toJson source.keyType),
      ("value_type", optional TypeTag.toJson source.valueType)] ++
    (source.split.toList.map fun handle => ("split", handle.toJson)) ++
    (source.outputEncoding.toList.map fun encoding => ("output_encoding", encoding.toJson)) ++
    (if source.overrides.isEmpty then []
      else [("overrides", .ofFields (source.overrides.entries.map fun e => (e.1, .ofText e.2)))]))

/-- a field that may be absent or `null` -/
def optional? (f : Json → Option α) : Option Json → Option (Option α)
  | none => some none
  | some .null => some none
  | some j => (f j).map some

/-- An object of texts, the last one of a name counting; absent, it is empty. -/
def overrides? : Option Json → Option Overrides
  | none => some {}
  | some (.object fields) => do
    let entries ← fields.mapM fun (name, value) => return (← name, ← value.text?)
    return .ofList entries
  | some _ => none

def fieldNames : List String :=
  ["resource", "format", "key_type", "value_type", "split", "output_encoding", "overrides"]

/-- A source from its shipped form.  Written as an array it may leave out the fields that need not
be set. -/
def ofJson? (j : Json) : Option Source := do
  match ← j.members? fieldNames 4 with
  | [resource, format, keyType, valueType, split, encoding, overrides] =>
    return {
      resource := ← optional? Json.text? resource
      format := ← optional? Json.text? format
      keyType := ← optional? TypeTag.ofJson? keyType
      valueType := ← optional? TypeTag.ofJson? valueType
      split := ← optional? Handle.ofJson? split
      outputEncoding := ← optional? PairEncoding.ofJson? encoding
      overrides := ← overrides? overrides }
  | _ => none

def render (source : Source) : String := source.toJson.render

def parse (s : String) : Option Source := do ofJson? (← Json.parse s)

end Source

end Splittable
