import Splittable.Record
import Splittable.Split.Descriptor
import Splittable.World

/-!
# Split handles

A split in the form in which it is shipped, and the descriptor behind it once that is known.  A
handle made from a descriptor keeps it; one that was read from JSON decodes its payload when the
descriptor is first asked for, and from then on keeps the answer.

* `Decoder`, `Decoders`   what makes a descriptor from a payload, by tag;
* `Handle`, `Handle.ofDescriptor`, `Handle.split`   handles, and the descriptor of one;
* `Handle.Same`           equality of handles: what is shipped is equal;
* `HandleError`           what goes wrong, with its message.
-/

namespace Splittable

/-- what makes a descriptor from the payload it was shipped as -/
abbrev Decoder (ε : Type) := Bytes → Act ε (Except Fault Descriptor)

/-- decoders by the tag of their splits -/
abbrev Decoders (ε : Type) := Table (Decoder ε)

inductive HandleError
  /-- no decoder is registered for the tag of a payload -/
  | unknownTag (tag : String)
  | undecodable (tag : String) (fault : Fault)
  /-- no decoder is registered for the tag of a descriptor -/
  | unregistered (tag shown : String)
  | unserializable (shown : String) (fault : Fault)

def HandleError.message : HandleError → String
  | .unknownTag tag => s!"no decoder registered for split type {tag}"
  | .undecodable tag fault => s!"cannot decode {tag} split: {fault.message}"
  | .unregistered tag shown =>
    s!"split type {tag} has no registered decoder and cannot be shipped: {shown}"
  | .unserializable shown fault => s!"split is not serializable: {shown}: {fault.message}"

namespace Decoders

variable {ε : Type}

def decodeFile : Decoder ε := fun payload =>
  match FileSplit.ofPayload payload with
  | .ok split => pure (.ok (.file split))
  | .error flaw => pure (.error flaw.fault)

/-- the decoder of file splits alone -/
def builtin : Decoders ε := .ofList [(FileSplit.tag, decodeFile)]

def decode (decoders : Decoders ε) (tag : String) (payload : Bytes) :
    Act ε (Except HandleError Descriptor) :=
  match decoders.find? tag with
  | none => pure (.error (.unknownTag tag))
  | some decoder => do
    match ← decoder payload with
    | .ok split => return .ok split
    | .error fault => return .error (.undecodable tag fault)

def shown (decoders : Decoders ε) : String :=
  "SplitRegistry \x7b tags: " ++ Text.listed (decoders.names.map Text.quoted) ++ " \x7d"

end Decoders

structure Handle where
  tag : String
  length : UInt64
  payload : Bytes
  /-- the descriptor, once it is known -/
  decoded : Option Descriptor

namespace Handle

variable {ε : Type}

/-- A descriptor can be shipped where its tag has a decoder and it has a payload. -/
def ofDescriptor (split : Descriptor) (decoders : Decoders ε) : Except HandleError Handle :=
  if decoders.contains split.tag then
    match split.payload with
    | .ok payload => .ok ⟨split.tag, split.length, payload, some split⟩
    | .error fault => .error (.unserializable split.shown fault)
  else .error (.unregistered split.tag split.shown)

def isDecoded (handle : Handle) : Bool := handle.decoded.isSome

/-- The descriptor of a handle, and the handle that keeps it.  Only a handle whose descriptor is
not known yet asks a decoder, and only a success is kept. -/
def split (handle : Handle) (decoders : Decoders ε) :
    Act ε (Except HandleError Descriptor × Handle) :=
  match handle.decoded with
  | some split => pure (.ok split, handle)
  | none => do
    match ← decoders.decode handle.tag handle.payload with
    | .ok split => return (.ok split, { handle with decoded := some split })
    | .error e => return (.error e, handle)

/-- Two handles are the same when they ship the same. -/
def Same (a b : Handle) : Prop := a.tag = b.tag ∧ a.length = b.length ∧ a.payload = b.payload

instance (a b : Handle) : Decidable (Same a b) := by unfold Same; infer_instance

def toJson (handle : Handle) : Json :=
  .ofFields [("type_tag", .ofText handle.tag), ("length", .ofWord64 handle.length),
    ("payload", .ofBytes handle.payload)]

def ofJson? (j : Json) : Option Handle := do
  match ← j.members? ["type_tag", "length", "payload"] 3 with
  | [some tag, some length, some payload] =>
    return ⟨← tag.text?, ← length.word64?, ← payload.bytes?, none⟩
  | _ => none

end Handle

end Splittable
