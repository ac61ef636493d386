import Splittable.Source.Plan

/-!
# Readers

A reader goes through all records of a source, split by split.  One cursor is open at a time, and
it is closed before the next split is opened.

* `Reader`, `Source.createReader`   a reader, and the reader of a source;
* `Reader.start`, `advance`, `current?`, `close`, `drop`   going through the records;
* `Reader.fraction`, `splitPointsRemaining`   how far the reader is.
-/

namespace Splittable

variable {ρ ε : Type}

/-- A reader over the cursors of one library. -/
structure Reader (library : Library ρ ε) where
  source : Source
  decoders : Decoders ε
  interrupt : Flag
  splits : List Descriptor
  /-- how many splits were opened so far; an open cursor belongs to the last of them -/
  opened : Nat
  cursor : Option library.Cursor
  current : Option Pair
  /-- all splits are read -/
  done : Bool
  phase : Phase
  /-- the fraction that is reported once the reader has failed or is closed -/
  frozen : ρ

namespace Reader

variable {library : Library ρ ε}

/-- what an operation of a reader answers, and what becomes of the reader and the world -/
abbrev Outcome (library : Library ρ ε) (α : Type) :=
  Except SourceError α × Reader library × World ε

/-- the name of a split by its place, the first being 1 -/
def label (reader : Reader library) (position : Nat) : SplitLabel where
  position := position
  total := reader.splits.length
  shown :=
    match position with
    | 0 => none
    | i + 1 => reader.splits[i]?.map Descriptor.shown

/-- a fault met while reading the split at a place -/
def readError (reader : Reader library) (position : Nat) (fault : Fault) : SourceError :=
  .read (reader.label position) fault

/-! ## progress -/

/-- The share of the splits before the open one, and of what is read of that.  One is kept for the
reader that has read everything. -/
def fraction [Ratio ρ] (reader : Reader library) : ρ :=
  if reader.phase = .failed ∨ reader.phase = .closed then reader.frozen
  else if reader.done then Ratio.one
  else
    match reader.opened with
    | 0 =>
      if reader.phase = .active ∧ reader.splits.isEmpty then Ratio.one else Ratio.zero
    | before + 1 =>
      let inside := ((reader.cursor.bind library.progress).getD Ratio.zero)
      Ratio.clamp Ratio.zero Ratio.belowOne
        ((Ratio.ofNat before + Ratio.clamp Ratio.zero Ratio.one inside) /
          Ratio.ofNat reader.splits.length)

/-- 1 until the reader has read everything or has failed -/
def splitPointsRemaining (reader : Reader library) : Nat :=
  if reader.done ∨ reader.phase = .failed then 0 else 1

/-- A reader never gives away a part of what it has to read. -/
def splitAtFraction (_ : Reader library) (_ : ρ) : Option Source := none

/-! ## going through the splits -/

/-- Close the open cursor, if there is one. -/
def release (reader : Reader library) (w : World ε) : Outcome library Unit :=
  match reader.cursor with
  | none => (.ok (), reader, w)
  | some cursor =>
    match library.close cursor w with
    | ((.ok (), _), w) => (.ok (), { reader with cursor := none }, w)
    | ((.error fault, _), w) =>
      (.error (reader.readError reader.opened fault), { reader with cursor := none }, w)

/-- Move the open cursor to its next record.  Where it has none, or none is open, the answer is
`false`, and no cursor is open afterwards. -/
def pull (reader : Reader library) (w : World ε) : Outcome library Bool :=
  match reader.cursor with
  | none => (.ok false, reader, w)
  | some cursor =>
    match library.next cursor w with
    | ((.ok (some pair), cursor), w) =>
      (.ok true, { reader with cursor := some cursor, current := some pair }, w)
    | ((.error fault, cursor), w) =>
      (.error (reader.readError reader.opened fault), { reader with cursor := some cursor }, w)
    | ((.ok none, cursor), w) =>
      match release { reader with cursor := some cursor } w with
      | (.ok (), reader, w) => (.ok false, reader, w)
      | (.error e, reader, w) => (.error e, reader, w)

/-- the fault of a reader that finds its flag raised between two splits -/
def interruptedBetween : Fault := .of .interrupted "interrupted before opening split"

/-- Open the next split, unless the flag is raised. -/
def openNext (reader : Reader library) (split : Descriptor) (w : World ε) : Outcome library Unit :=
  if w.isRaised reader.interrupt then
    (.error (reader.readError (reader.opened + 1) interruptedBetween), reader, w)
  else
    let reader := { reader with opened := reader.opened + 1 }
    match library.openCursor split reader.source.overrides reader.interrupt w with
    | (.ok cursor, w) => (.ok (), { reader with cursor := some cursor }, w)
    | (.error fault, w) => (.error (reader.readError reader.opened fault), reader, w)

/-- Go to the next record, through the splits that are not opened yet.  The answer is `false` when
all of them are read. -/
def search : List Descriptor → Reader library → World ε → Outcome library Bool
  | [], reader, w => reader.pull w
  | split :: unopened, reader, w =>
    match reader.pull w with
    | (.ok true, reader, w) => (.ok true, reader, w)
    | (.error e, reader, w) => (.error e, reader, w)
    | (.ok false, reader, w) =>
      match reader.openNext split w with
      | (.error e, reader, w) => (.error e, reader, w)
      | (.ok (), reader, w) => search unopened reader w

/-- The reader has read everything. -/
def exhausted (reader : Reader library) : Reader library :=
  { reader with current := none, done := true, phase := .exhausted }

/-- The reader has failed: its cursor is closed, and a fault of that is only logged. -/
def fail [Ratio ρ] (reader : Reader library) (w : World ε) : Reader library × World ε :=
  let reader := { reader with frozen := reader.fraction, current := none, phase := .failed }
  match reader.cursor with
  | none => (reader, w)
  | some cursor =>
    match library.close cursor w with
    | ((.ok (), _), w) => ({ reader with cursor := none }, w)
    | ((.error fault, _), w) =>
      ({ reader with cursor := none },
        w.note .warn s!"Closing cursor after read failure: {fault.message}")

/-- Go to the next record.  The answer is `false` once all splits are read, and stays so. -/
def advance [Ratio ρ] (reader : Reader library) (w : World ε) : Outcome library Bool :=
  match reader.phase with
  | .active =>
    match search (reader.splits.drop reader.opened) reader w with
    | (.ok true, reader, w) => (.ok true, reader, w)
    | (.ok false, reader, w) => (.ok false, reader.exhausted, w)
    | (.error e, reader, w) =>
      let (reader, w) := reader.fail w
      (.error e, reader, w)
  | .exhausted => (.ok false, reader, w)
  | phase => (.error (.illegalState "advance" phase), reader, w)

/-- The splits to go through: the one that the source holds, or those that the library finds. -/
def resolveSplits (reader : Reader library) (w : World ε) : Outcome library (List Descriptor) :=
  match reader.source.split with
  | some handle =>
    let ((answer, handle), w) := handle.split reader.decoders w
    let reader := { reader with source := reader.source.withSplit handle }
    match answer with
    | .ok split => (.ok [split], reader, w)
    | .error e => (.error (.handle e), reader, w)
  | none =>
    let resource := reader.source.resourceText
    match library.discover resource reader.source.overrides none w with
    | (.ok splits, w) => (.ok splits, reader, w)
    | (.error fault, w) =>
      (.error (.planning (.undiscovered resource library.name fault)), reader, w)

/-- Resolve the splits and go to the first record. -/
def start [Ratio ρ] (reader : Reader library) (w : World ε) : Outcome library Bool :=
  match reader.phase with
  | .notStarted =>
    match reader.resolveSplits w with
    | (.error e, reader, w) => (.error e, { reader with phase := .failed }, w)
    | (.ok splits, reader, w) => advance { reader with splits := splits, phase := .active } w
  | phase => (.error (.illegalState "start" phase), reader, w)

/-- the record that the reader is at -/
def current? (reader : Reader library) : Except SourceError Pair :=
  match reader.phase, reader.current with
  | .active, some pair => .ok pair
  | _, _ => .error .noCurrentElement

/-- End reading.  Closing a second time does nothing. -/
def close [Ratio ρ] (reader : Reader library) (w : World ε) : Outcome library Unit :=
  if reader.phase = .closed then (.ok (), reader, w)
  else
    release { reader with frozen := reader.fraction, current := none, phase := .closed } w

/-- A reader that goes out of use closes its cursor, and a fault of that is only logged. -/
def drop (reader : Reader library) (w : World ε) : World ε :=
  match reader.cursor with
  | none => w
  | some cursor =>
    match library.close cursor w with
    | ((.ok (), _), w) => w
    | ((.error fault, _), w) => w.note .warn s!"Closing cursor on drop: {fault.message}"

/-- a reader before its start -/
def make [Ratio ρ] (library : Library ρ ε) (source : Source) (context : Context ρ ε) :
    Reader library where
  source := source
  decoders := context.decoders
  interrupt := context.interrupt
  splits := []
  opened := 0
  cursor := none
  current := none
  done := false
  phase := .notStarted
  frozen := Ratio.zero

end Reader

/-- a reader together with its library -/
structure AnyReader (ρ ε : Type) where
  library : Library ρ ε
  reader : Reader library

/-- The reader of a source whose fields are set and whose format is known. -/
def Source.createReader [Ratio ρ] (source : Source) (context : Context ρ ε) :
    Except SourceError (AnyReader ρ ε) :=
  match source.validate with
  | .error e => .error e
  | .ok () =>
    match source.library context with
    | .error e => .error (.planning e)
    | .ok library => .ok ⟨library, .make library source context⟩

end Splittable
