import Splittable.Proofs.Reader.Searched

/-!
# Calls on a reader

A caller may ask a reader for anything in any order.  Between two calls everything may happen to the
world, so each call is made in a world of its own.

* `Request`, `Reply`, `Reader.serve`   what may be asked for, and what is answered;
* `Turn`                               a request and the world in which it is made;
* `Reader.after`, `Reader.replies`     a reader after some turns, and what it answered;
* `Reader.advance_of_record`, `advance_of_finished`, `advance_of_error`   an advance by its search.
-/

namespace Splittable

variable {ρ ε : Type}

/-- what a caller may ask a reader for -/
inductive Request (ρ : Type)
  | start
  | advance
  | current
  | fraction
  | splitPoints
  | splitAt (fraction : ρ)
  | close

inductive Reply (ρ : Type)
  | moved (answer : Except SourceError Bool)
  | record (answer : Except SourceError Pair)
  | share (fraction : ρ)
  | points (count : Nat)
  | part (source : Option Source)
  | closed (answer : Except SourceError Unit)

/-- a request, and the world in which it is made -/
structure Turn (ρ ε : Type) where
  request : Request ρ
  world : World ε

namespace Reader

variable {library : Library ρ ε} [Ratio ρ]

def serve (reader : Reader library) (request : Request ρ) (w : World ε) :
    Reply ρ × Reader library × World ε :=
  match request with
  | .start => (.moved (reader.start w).1, (reader.start w).2)
  | .advance => (.moved (reader.advance w).1, (reader.advance w).2)
  | .current => (.record reader.current?, reader, w)
  | .fraction => (.share reader.fraction, reader, w)
  | .splitPoints => (.points reader.splitPointsRemaining, reader, w)
  | .splitAt fraction => (.part (reader.splitAtFraction fraction), reader, w)
  | .close => (.closed (reader.close w).1, (reader.close w).2)

/-- the reader after some turns -/
def after (reader : Reader library) : List (Turn ρ ε) → Reader library
  | [] => reader
  | turn :: turns => after (reader.serve turn.request turn.world).2.1 turns

/-- the replies of a reader in some turns -/
def replies (reader : Reader library) : List (Turn ρ ε) → List (Reply ρ)
  | [] => []
  | turn :: turns =>
    (reader.serve turn.request turn.world).1 ::
      replies (reader.serve turn.request turn.world).2.1 turns

/-! ## the operations by their phases -/

variable {reader found : Reader library} {w w₁ : World ε}

section
variable (hactive : reader.phase = .active)
include hactive

theorem advance_of_record
    (h : search (reader.splits.drop reader.opened) reader w = (.ok true, found, w₁)) :
    reader.advance w = (.ok true, found, w₁) := by
  simp only [advance, hactive, h]

theorem advance_of_finished
    (h : search (reader.splits.drop reader.opened) reader w = (.ok false, found, w₁)) :
    reader.advance w = (.ok false, found.exhausted, w₁) := by
  simp only [advance, hactive, h]

theorem advance_of_error {e : SourceError}
    (h : search (reader.splits.drop reader.opened) reader w = (.error e, found, w₁)) :
    reader.advance w = (.error e, found.fail w₁) := by
  simp only [advance, hactive, h]

end

theorem advance_of_exhausted (h : reader.phase = .exhausted) :
    reader.advance w = (.ok false, reader, w) := by
  simp only [advance, h]

theorem advance_of_refused (hactive : reader.phase ≠ .active)
    (hexhausted : reader.phase ≠ .exhausted) :
    reader.advance w = (.error (.illegalState "advance" reader.phase), reader, w) := by
  unfold advance
  cases hphase : reader.phase with
  | active => exact absurd hphase hactive
  | exhausted => exact absurd hphase hexhausted
  | _ => rfl

theorem start_of_refused (h : reader.phase ≠ .notStarted) :
    reader.start w = (.error (.illegalState "start" reader.phase), reader, w) := by
  unfold start
  cases hphase : reader.phase with
  | notStarted => exact absurd hphase h
  | _ => rfl

theorem start_of_unresolved {e : SourceError} (h : reader.phase = .notStarted)
    (hresolve : reader.resolveSplits w = (.error e, found, w₁)) :
    reader.start w = (.error e, { found with phase := .failed }, w₁) := by
  simp only [start, h, hresolve]

theorem start_of_resolved {splits : List Descriptor} (h : reader.phase = .notStarted)
    (hresolve : reader.resolveSplits w = (.ok splits, found, w₁)) :
    reader.start w = advance { found with splits, phase := .active } w₁ := by
  simp only [start, h, hresolve]

theorem close_of_closed (h : reader.phase = .closed) : reader.close w = (.ok (), reader, w) := by
  rw [close, if_pos h]

theorem close_of_open (h : reader.phase ≠ .closed) : reader.close w =
    release { reader with frozen := reader.fraction, current := none, phase := .closed } w := by
  rw [close, if_neg h]

omit [Ratio ρ] in
/-- Resolving its splits changes no more of a reader than what its source knows of them. -/
theorem resolveSplits_reader (reader : Reader library) (w : World ε) :
    ∃ handle, (reader.resolveSplits w).2.1 =
      { reader with source := { reader.source with split := handle } } := by
  unfold resolveSplits
  cases hsplit : reader.source.split with
  | some handle =>
    dsimp only
    rcases handle.split reader.decoders w with ⟨⟨error | split, handle'⟩, w₁⟩
    · exact ⟨some handle', rfl⟩
    · exact ⟨some handle', rfl⟩
  | none =>
    refine ⟨none, ?_⟩
    have hsame : { reader.source with split := none } = reader.source := by rw [← hsplit]
    rw [hsame]
    dsimp only
    rcases library.discover reader.source.resourceText reader.source.overrides none w with
      ⟨fault | splits, w₁⟩
    · rfl
    · rfl

end Reader

end Splittable
