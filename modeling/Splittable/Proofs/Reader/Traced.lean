import Splittable.Proofs.Reader.Likeness

/-!
# Keeping track of cursors

A traced library does what the library does, and notes which splits it was asked to open and which
cursors it was asked to close.  A reader cannot tell the two apart.

* `CursorEvent`, `Traced`      what is noted, and what a world keeps of it;
* `Library.traced`, `Context.traced`   a library and a context that are traced;
* `Reader.trace`               the replies of a traced reader, and the events up to then;
* `Library.tracing`, `Reader.trace_replies`   a traced reader answers like the reader itself.
-/

namespace Splittable

universe u v

variable {ρ ε α : Type}

/-- what a traced library notes; cursors are numbered by the openings before their own -/
inductive CursorEvent
  | opened (split : Descriptor) (number : Nat)
  /-- the split could not be opened -/
  | refused (split : Descriptor)
  /-- a cursor was closed, whether or not that went well -/
  | closed (number : Nat)

namespace CursorEvent

/-- the split that was to be opened -/
def split? : CursorEvent → Option Descriptor
  | .opened split _ => some split
  | .refused split => some split
  | .closed _ => none

/-- the splits that were to be opened, in the order of the events -/
def openings (events : List CursorEvent) : List Descriptor := events.filterMap split?

theorem openings_append (events more : List CursorEvent) :
    openings (events ++ more) = openings events ++ openings more := List.filterMap_append

end CursorEvent

/-- what a library keeps, and the events so far -/
structure Traced (ε : Type) where
  kept : ε
  events : List CursorEvent

def World.traced (w : World ε) (events : List CursorEvent) : World (Traced ε) :=
  ⟨w.files, w.flags, w.log, w.entropy, w.drawn, ⟨w.extra, events⟩⟩

def World.bare (w : World (Traced ε)) : World ε :=
  ⟨w.files, w.flags, w.log, w.entropy, w.drawn, w.extra.kept⟩

def World.events (w : World (Traced ε)) : List CursorEvent := w.extra.events

@[simp] theorem World.bare_traced (w : World ε) (events : List CursorEvent) :
    (w.traced events).bare = w := rfl

@[simp] theorem World.events_traced (w : World ε) (events : List CursorEvent) :
    (w.traced events).events = events := rfl

/-- an operation that notes nothing -/
def Act.untraced (act : Act ε α) : Act (Traced ε) α := fun w =>
  ((act w.bare).1, (act w.bare).2.traced w.events)

structure Numbered (α : Type) where
  number : Nat
  cursor : α

def Library.traced (library : Library ρ ε) : Library ρ (Traced ε) where
  name := library.name
  Cursor := Numbered library.Cursor
  listing resource overrides := Act.untraced (library.listing resource overrides)
  discover resource overrides size := Act.untraced (library.discover resource overrides size)
  openCursor split overrides flag w :=
    match library.openCursor split overrides flag w.bare with
    | (.ok cursor, w₁) =>
      let number := (CursorEvent.openings w.events).length
      (.ok ⟨number, cursor⟩, w₁.traced (w.events ++ [.opened split number]))
    | (.error fault, w₁) => (.error fault, w₁.traced (w.events ++ [.refused split]))
  next c w :=
    let (moved, w₁) := library.next c.cursor w.bare
    ((moved.1, ⟨c.number, moved.2⟩), w₁.traced w.events)
  progress c := library.progress c.cursor
  close c w :=
    let (closed, w₁) := library.close c.cursor w.bare
    ((closed.1, ⟨c.number, closed.2⟩), w₁.traced (w.events ++ [.closed c.number]))

/-- the openings before that of a cursor -/
def Library.number {library : Library ρ ε} (c : library.traced.Cursor) : Nat := Numbered.number c

/-- the same names with other values -/
def Table.map {α : Type u} {β : Type v} (f : α → β) (t : Table α) : Table β where
  entries := t.entries.map fun e => (e.1, f e.2)
  ordered := List.pairwise_map.2 t.ordered

theorem Table.find?_map {α : Type u} {β : Type v} (f : α → β) (t : Table α) (name : String) :
    (t.map f).find? name = (t.find? name).map f := by
  unfold Table.find? Table.map
  rw [List.find?_map, Option.map_map, Option.map_map]
  rfl

def Decoders.traced (decoders : Decoders ε) : Decoders (Traced ε) :=
  decoders.map fun decoder payload => Act.untraced (decoder payload)

/-- a context in which everything is traced -/
def Context.traced (context : Context ρ ε) : Context ρ (Traced ε) where
  formats := context.formats.map Library.traced
  decoders := context.decoders.traced
  suppressListing := context.suppressListing
  minBundleSize := context.minBundleSize
  order := context.order
  interrupt := context.interrupt

/-! ## the same answers -/

theorem Decoders.decode_traced (decoders : Decoders ε) (tag : String) (payload : Bytes)
    (w : World (Traced ε)) : decoders.traced.decode tag payload w =
      ((decoders.decode tag payload w.bare).1,
        (decoders.decode tag payload w.bare).2.traced w.events) := by
  unfold Decoders.decode Decoders.traced
  rw [Table.find?_map]
  cases decoders.find? tag with
  | none => rfl
  | some decoder =>
    simp only [Option.map_some, bind, StateT.bind, Act.untraced]
    rcases decoder payload w.bare with ⟨fault | split, w₁⟩
    · rfl
    · rfl

theorem Handle.split_traced (handle : Handle) (decoders : Decoders ε) (w : World (Traced ε)) :
    handle.split decoders.traced w =
      ((handle.split decoders w.bare).1, (handle.split decoders w.bare).2.traced w.events) := by
  unfold Handle.split
  cases handle.decoded with
  | some split => rfl
  | none =>
    simp only [bind, StateT.bind, Decoders.decode_traced]
    rcases decoders.decode handle.tag handle.payload w.bare with ⟨error | split, w₁⟩
    · rfl
    · rfl

/-- A traced library and the library itself have the same answers. -/
def Library.tracing (library : Library ρ ε) (overrides : Overrides) (flag : Flag) :
    library.traced.Likeness library where
  overrides := overrides
  flag₁ := flag
  flag₂ := flag
  cursors c₁ c₂ := c₁.cursor = c₂
  worlds w₁ w₂ := w₁.bare = w₂
  raised h := by
    subst h
    rfl
  noted _ _ h := by
    subst h
    rfl
  opened split h := by
    subst h
    dsimp only [Library.traced]
    rcases library.openCursor split overrides flag _ with ⟨fault | cursor, w₁⟩
    · exact ⟨.refused fault, rfl⟩
    · exact ⟨.opened rfl, rfl⟩
  moved hc hw := by
    subst hc hw
    exact ⟨rfl, rfl, rfl⟩
  progress hc := by
    subst hc
    rfl
  closed hc hw := by
    subst hc hw
    exact ⟨rfl, rfl⟩

namespace Reader

variable {library : Library ρ ε} [Ratio ρ]

/-- the replies of a traced reader to some turns, what it is then, and the events up to then -/
def trace (reader : Reader library.traced) (events : List CursorEvent) :
    List (Turn ρ ε) → List (Reply ρ) × Reader library.traced × List CursorEvent
  | [] => ([], reader, events)
  | turn :: turns =>
    let (reply, reader, w) := reader.serve turn.request (turn.world.traced events)
    let (replies, reader, events) := trace reader w.events turns
    (reply :: replies, reader, events)

theorem trace_cons (reader : Reader library.traced) (events : List CursorEvent) (turn : Turn ρ ε)
    (turns : List (Turn ρ ε)) :
    (reader.trace events (turn :: turns)).2 =
      (trace (reader.serve turn.request (turn.world.traced events)).2.1
        (reader.serve turn.request (turn.world.traced events)).2.2.events turns).2 := rfl

theorem trace_append (reader : Reader library.traced) (events : List CursorEvent)
    (turns later : List (Turn ρ ε)) :
    (reader.trace events (turns ++ later)).2 =
      (trace (reader.trace events turns).2.1 (reader.trace events turns).2.2 later).2 := by
  induction turns generalizing reader events with
  | nil => rfl
  | cons turn turns ih =>
    rw [List.cons_append, trace_cons, ih]
    rfl

/-- A reader and the traced one from the same source resolve their splits to the same ones. -/
theorem likeSplits_traced (library : Library ρ ε) (source : Source) (context : Context ρ ε) :
    LikeSplits (library.tracing source.overrides context.interrupt)
      (make library.traced source context.traced) (make library source context) := by
  rintro w₁ w₂ rfl
  unfold resolveSplits
  dsimp only [make]
  cases source.split with
  | some handle =>
    dsimp only [Context.traced]
    rw [Handle.split_traced]
    rcases handle.split context.decoders w₁.bare with ⟨⟨error | split, handle'⟩, w₁'⟩
    · exact ⟨rfl, rfl⟩
    · exact ⟨rfl, rfl⟩
  | none =>
    dsimp only [Library.traced, Act.untraced]
    rcases library.discover source.resourceText source.overrides none w₁.bare with
      ⟨fault | splits, w₁'⟩
    · exact ⟨rfl, rfl⟩
    · exact ⟨rfl, rfl⟩

theorem like_traced (library : Library ρ ε) (source : Source) (context : Context ρ ε) :
    Like (library.tracing source.overrides context.interrupt)
      (make library.traced source context.traced) (make library source context) where
  overrides₁ := rfl
  overrides₂ := rfl
  interrupt₁ := rfl
  interrupt₂ := rfl
  splits := rfl
  opened := rfl
  cursor := .none
  current := rfl
  done := rfl
  phase := rfl
  frozen := rfl

theorem trace_like {overrides : Overrides} {flag : Flag} {r₁ : Reader library.traced}
    {r₂ : Reader library} (h : Like (library.tracing overrides flag) r₁ r₂)
    (hsplits : r₁.phase = .notStarted → LikeSplits (library.tracing overrides flag) r₁ r₂)
    (events : List CursorEvent) (turns : List (Turn ρ ε)) :
    (r₁.trace events turns).1 = r₂.replies turns ∧
      Like (library.tracing overrides flag) (r₁.trace events turns).2.1 (r₂.after turns) ∧
      ((r₁.trace events turns).2.1.phase = .notStarted →
        LikeSplits (library.tracing overrides flag) (r₁.trace events turns).2.1
          (r₂.after turns)) := by
  induction turns generalizing r₁ r₂ events with
  | nil => exact ⟨rfl, h, hsplits⟩
  | cons turn turns ih =>
    have hw : (library.tracing overrides flag).worlds (turn.world.traced events) turn.world := rfl
    obtain ⟨hanswer, hreader, -⟩ := serve_like h hsplits hw turn.request
    obtain ⟨hreplies, hlike⟩ :=
      ih hreader (LikeSplits.serve hsplits h hw turn.request)
        (r₁.serve turn.request (turn.world.traced events)).2.2.events
    refine ⟨?_, hlike⟩
    show (r₁.serve turn.request _).1 :: _ = _
    rw [replies, hanswer]
    exact congrArg _ hreplies

/-- **A traced reader answers like the reader itself.** -/
theorem trace_replies (library : Library ρ ε) (source : Source) (context : Context ρ ε)
    (turns : List (Turn ρ ε)) :
    ((make library.traced source context.traced).trace [] turns).1 =
      (make library source context).replies turns :=
  (trace_like (like_traced library source context)
    (fun _ => likeSplits_traced library source context) [] turns).1

end Reader

end Splittable
