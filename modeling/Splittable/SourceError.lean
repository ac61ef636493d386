import Splittable.Encoding
import Splittable.Split.Handle

/-!
# Errors of sources and readers

* `SourceError`           what can go wrong, by cause;
* `SourceError.message`   the text of an error;
* `SourceError.source?`, `chain`   the fault behind an error, and the texts of both;
* `SourceError.isInterrupted`   whether reading ended because the interrupt flag was seen.
-/

namespace Splittable

/-- the fields that a source needs before it can be read -/
inductive RequiredField
  | resource
  | format
  | keyType
  | valueType
deriving DecidableEq, Repr

def RequiredField.name : RequiredField → String
  | .resource => "resource"
  | .format => "format"
  | .keyType => "key type"
  | .valueType => "value type"

inductive PlanningError
  | unknownFormat (name : String) (known : List String)
  | undiscovered (resource format : String) (fault : Fault)
  | unshippable (error : HandleError)

/-- the splits of a reader by their place in it, the first being 1 -/
structure SplitLabel where
  position : Nat
  total : Nat
  shown : Option String
deriving DecidableEq, Repr

/-- where a reader stands -/
inductive Phase
  | notStarted
  | active
  | exhausted
  /-- reading failed, and only closing is left -/
  | failed
  | closed
deriving DecidableEq, Repr

def Phase.name : Phase → String
  | .notStarted => "not started"
  | .active => "active"
  | .exhausted => "exhausted"
  | .failed => "failed"
  | .closed => "closed"

inductive SourceError
  | configuration (field : RequiredField)
  | planning (cause : PlanningError)
  | estimation (resource : String) (fault : Fault)
  | read (split : SplitLabel) (fault : Fault)
  | unsupportedType (name : String)
  | noCurrentElement
  /-- an operation that the phase of the reader does not allow -/
  | illegalState (operation : String) (phase : Phase)
  | handle (error : HandleError)
  | encoding (error : EncodingError)

def HandleError.asSourceText (e : HandleError) : String := s!"split handle error: {e.message}"

def PlanningError.message : PlanningError → String
  | .unknownFormat name known =>
    s!"format {name} is not registered (known: " ++ String.intercalate ", " known ++ ")"
  | .undiscovered resource format _ =>
    s!"cannot compute splits of {resource} with the {format} format"
  | .unshippable error => error.asSourceText

def SplitLabel.message (label : SplitLabel) : String :=
  match label.shown with
  | some shown => s!"split {label.position}/{label.total} {shown}"
  | none => s!"split {label.position}/{label.total}"

namespace SourceError

def message : SourceError → String
  | .configuration field => s!"need to set the {field.name} of a BoundedSource"
  | .planning cause => s!"split planning failed: {cause.message}"
  | .estimation resource fault => s!"size estimation failed for {resource}: {fault.message}"
  | .read split fault => s!"read failed on {split.message}: {fault.message}"
  | .unsupportedType name => s!"cannot find an encoding for type {name}"
  | .noCurrentElement => "no current element"
  | .illegalState operation phase =>
    s!"{operation}() is not valid while the reader is {phase.name}"
  | .handle error => error.asSourceText
  | .encoding error => s!"encoding error: {error.message}"

def source? : SourceError → Option Fault
  | .planning (.undiscovered _ _ fault) => some fault
  | .estimation _ fault => some fault
  | .read _ fault => some fault
  | _ => none

/-- the texts of an error and of what led to it -/
def chain (e : SourceError) : List String :=
  e.message :: (e.source?.map Fault.chain).getD []

def isInterrupted : SourceError → Bool
  | .read _ fault => fault.kind == .interrupted
  | _ => false

end SourceError

end Splittable
