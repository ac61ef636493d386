/-!
# Faults of input and output

A fault is what the outside answers in place of a value: its kind, which callers may act on, and
a text for people.

* `Fault`, `Fault.Kind`   the two parts;
* `Fault.overflow`   the end of a program whose sum does not fit in a word;
* `OsError`   the answers of a file system, with their numbers and texts;
* `bind_ok`, `bind_error`   the steps of a computation that succeeds, and of one that does not.
-/

namespace Splittable

inductive Fault.Kind
  | notFound
  | invalidInput
  | invalidData
  | unexpectedEof
  | unsupported
  | interrupted
  | notADirectory
  | isADirectory
  | filesystemLoop
  | invalidFilename
  | alreadyExists
  | other
  | overflow
deriving DecidableEq, Repr

structure Fault where
  kind : Fault.Kind
  message : String
  /-- the text of another fault that led to this one -/
  cause : Option String
deriving DecidableEq, Repr

/-- a fault that stands for itself -/
def Fault.of (kind : Fault.Kind) (message : String) : Fault := ⟨kind, message, none⟩

/-- what is answered where a sum does not fit in a word: the program is built with checks, as for
its tests, and stops there, so what its callers would make of this fault says nothing -/
def Fault.overflow : Fault := .of .overflow "attempt to add with overflow"

def Fault.Kind.name : Fault.Kind → String
  | .notFound => "NotFound"
  | .invalidInput => "InvalidInput"
  | .invalidData => "InvalidData"
  | .unexpectedEof => "UnexpectedEof"
  | .unsupported => "Unsupported"
  | .interrupted => "Interrupted"
  | .notADirectory => "NotADirectory"
  | .isADirectory => "IsADirectory"
  | .filesystemLoop => "FilesystemLoop"
  | .invalidFilename => "InvalidFilename"
  | .alreadyExists => "AlreadyExists"
  | .other => "Other"
  | .overflow => "Overflow"

/-- the answers of a file system that refuses a request -/
inductive OsError
  | noEntry
  | alreadyExists
  | notADirectory
  | isADirectory
  | invalidArgument
  | nameTooLong
  | linkLoop
  | nulInName
deriving DecidableEq, Repr

def OsError.kind : OsError → Fault.Kind
  | .noEntry => .notFound
  | .alreadyExists => .alreadyExists
  | .notADirectory => .notADirectory
  | .isADirectory => .isADirectory
  | .invalidArgument => .invalidInput
  | .nameTooLong => .invalidFilename
  | .linkLoop => .filesystemLoop
  | .nulInName => .invalidInput

def OsError.message : OsError → String
  | .noEntry => "No such file or directory (os error 2)"
  | .alreadyExists => "File exists (os error 17)"
  | .notADirectory => "Not a directory (os error 20)"
  | .isADirectory => "Is a directory (os error 21)"
  | .invalidArgument => "Invalid argument (os error 22)"
  | .nameTooLong => "File name too long (os error 36)"
  | .linkLoop => "Too many levels of symbolic links (os error 40)"
  | .nulInName => "file name contained an unexpected NUL byte"

def OsError.fault (e : OsError) : Fault := .of e.kind e.message

def Fault.withMessage (f : Fault) (message : String) : Fault := { f with message }

/-- the texts of a fault and of what led to it -/
def Fault.chain (f : Fault) : List String := f.message :: f.cause.toList

/-- No step of a computation that succeeds has failed. -/
theorem bind_ok {ε α β : Type} {x : Except ε α} {f : α → Except ε β} {b : β}
    (h : (x >>= f) = .ok b) : ∃ a, x = .ok a ∧ f a = .ok b := by
  cases x with
  | error e => cases h
  | ok a => exact ⟨a, rfl, h⟩

/-- A computation that fails has a step that fails. -/
theorem bind_error {ε α β : Type} {x : Except ε α} {f : α → Except ε β} {e : ε}
    (h : (x >>= f) = .error e) : x = .error e ∨ ∃ a, x = .ok a ∧ f a = .error e := by
  cases x with
  | error e' =>
    cases h
    exact .inl rfl
  | ok a => exact .inr ⟨a, rfl, h⟩

theorem OsError.of_mapError {α : Type} {x : Except OsError α} {fault : Fault}
    (h : x.mapError OsError.fault = .error fault) : ∃ e : OsError, fault = e.fault := by
  cases x with
  | error e =>
    cases h
    exact ⟨e, rfl⟩
  | ok a => cases h

end Splittable
