import Splittable.Proofs.Flags
import Splittable.Proofs.Reader.Likeness
import Splittable.Proofs.Reader.Script

/-!
# Split points

A reader counts one split point until it has read everything or has failed.  A reader that has read
everything keeps a mark of that, but having failed is told from the phase alone, and closing the
reader changes the phase.

* `Reader.Marked`           the mark goes with the phases of a reader that has read everything;
* `Reader.serve_marked`, `serve_done`   a call keeps that, and the mark itself;
* `Reader.serve_of_closed`, `serve_of_failed`   calls that leave a reader as it is;
* `Reader.points_rise_iff`   split points come back where a reader that has failed is closed, and
  nowhere else.
-/

namespace Splittable.Reader

variable {ρ ε : Type} {library : Library ρ ε} {reader : Reader library}

/-- The mark is set once the reader is exhausted, and such a reader can only be closed. -/
structure Marked (reader : Reader library) : Prop where
  ended : reader.done = true → reader.phase = .exhausted ∨ reader.phase = .closed
  noted : reader.phase = .exhausted → reader.done = true

theorem marked_of_undone (hdone : reader.done = false) (hphase : reader.phase ≠ .exhausted) :
    reader.Marked where
  ended h := by
    rw [hdone] at h
    cases h
  noted h := absurd h hphase

theorem Marked.undone (h : reader.Marked) (hexhausted : reader.phase ≠ .exhausted)
    (hclosed : reader.phase ≠ .closed) : reader.done = false := by
  cases hdone : reader.done with
  | false => rfl
  | true =>
    obtain hphase | hphase := h.ended hdone
    · exact absurd hphase hexhausted
    · exact absurd hphase hclosed

/-- A search sets no mark and freezes no fraction. -/
theorem Searched.marks {unopened : List Descriptor} {w : World ε} {outcome : Outcome library Bool}
    (h : Searched unopened reader w outcome) :
    outcome.2.1.done = reader.done ∧ outcome.2.1.frozen = reader.frozen := by
  induction h with
  | onward _ _ _ _ ih => exact ih
  | _ => exact ⟨rfl, rfl⟩

variable [Ratio ρ] {request : Request ρ} {w : World ε}

/-! ## one call -/

theorem advance_marked (hactive : reader.phase = .active) (hdone : reader.done = false)
    (w : World ε) : (reader.advance w).2.1.Marked := by
  have hsearched := searched (reader.splits.drop reader.opened) reader w
  rcases hsearch : search (reader.splits.drop reader.opened) reader w with ⟨e | _ | _, found, w₁⟩
  all_goals
    rw [hsearch] at hsearched
    have hfound : found.done = false := hsearched.marks.1.trans hdone
  · rw [advance_of_error hactive hsearch, fail_reader]
    exact marked_of_undone hfound (fun h => by cases h)
  · rw [advance_of_finished hactive hsearch]
    exact ⟨fun _ => .inl rfl, fun _ => rfl⟩
  · rw [advance_of_record hactive hsearch]
    have hphase : found.phase = .active := hsearched.frame.2.2.trans hactive
    exact marked_of_undone hfound (by simp [hphase])

theorem start_marked (hphase : reader.phase = .notStarted) (hdone : reader.done = false)
    (w : World ε) : (reader.start w).2.1.Marked := by
  have hresolved : (reader.resolveSplits w).2.1.done = false := by
    obtain ⟨handle, hreader⟩ := resolveSplits_reader reader w
    rw [hreader]
    exact hdone
  rcases hresolve : reader.resolveSplits w with ⟨e | splits, found, w₁⟩
  all_goals rw [hresolve] at hresolved
  · rw [start_of_unresolved hphase hresolve]
    exact marked_of_undone hresolved (fun h => by cases h)
  · rw [start_of_resolved hphase hresolve]
    have hbegun : ({ found with splits, phase := .active } : Reader library).phase = .active := rfl
    exact advance_marked hbegun hresolved w₁

/-- A call keeps the mark in step with the phase. -/
theorem serve_marked (h : reader.Marked) (request : Request ρ) (w : World ε) :
    (reader.serve request w).2.1.Marked := by
  cases request with
  | start =>
    dsimp only [serve]
    by_cases hphase : reader.phase = .notStarted
    · exact start_marked hphase (h.undone (by simp [hphase]) (by simp [hphase])) w
    · rw [start_of_refused hphase]
      exact h
  | advance =>
    dsimp only [serve]
    by_cases hactive : reader.phase = .active
    · exact advance_marked hactive (h.undone (by simp [hactive]) (by simp [hactive])) w
    · by_cases hexhausted : reader.phase = .exhausted
      · rw [advance_of_exhausted hexhausted]
        exact h
      · rw [advance_of_refused hactive hexhausted]
        exact h
  | close =>
    dsimp only [serve]
    by_cases hclosed : reader.phase = .closed
    · rw [close_of_closed hclosed]
      exact h
    · rw [close_of_open hclosed, release_reader]
      exact ⟨fun _ => .inr rfl, fun h => by cases h⟩
  | current | fraction | splitPoints | splitAt => exact h

/-- A call leaves a closed reader as it is. -/
theorem serve_of_closed (h : reader.phase = .closed) (request : Request ρ) (w : World ε) :
    (reader.serve request w).2.1 = reader := by
  cases request with
  | start =>
    dsimp only [serve]
    rw [start_of_refused (by simp [h])]
  | advance =>
    dsimp only [serve]
    rw [advance_of_refused (by simp [h]) (by simp [h])]
  | close =>
    dsimp only [serve]
    rw [close_of_closed h]
  | current | fraction | splitPoints | splitAt => rfl

/-- A call that does not close it leaves a reader that has failed as it is. -/
theorem serve_of_failed (h : reader.phase = .failed) (hrequest : request ≠ .close) (w : World ε) :
    (reader.serve request w).2.1 = reader := by
  cases request with
  | start =>
    dsimp only [serve]
    rw [start_of_refused (by simp [h])]
  | advance =>
    dsimp only [serve]
    rw [advance_of_refused (by simp [h]) (by simp [h])]
  | close => exact absurd rfl hrequest
  | current | fraction | splitPoints | splitAt => rfl

/-- Closing changes the phase, and not the mark. -/
theorem close_done (reader : Reader library) (w : World ε) :
    (reader.close w).2.1.phase = .closed ∧ (reader.close w).2.1.done = reader.done := by
  by_cases hclosed : reader.phase = .closed
  · rw [close_of_closed hclosed]
    exact ⟨hclosed, rfl⟩
  · rw [close_of_open hclosed, release_reader]
    exact ⟨rfl, rfl⟩

theorem serve_of_close (h : request = .close) (w : World ε) :
    (reader.serve request w).2.1 = (reader.close w).2.1 := by
  rw [h]
  rfl

/-- The mark stays. -/
theorem serve_done (h : reader.Marked) (hdone : reader.done = true) (request : Request ρ)
    (w : World ε) : (reader.serve request w).2.1.done = true := by
  obtain hexhausted | hclosed := h.ended hdone
  · cases request with
    | start =>
      dsimp only [serve]
      rw [start_of_refused (by simp [hexhausted])]
      exact hdone
    | advance =>
      dsimp only [serve]
      rw [advance_of_exhausted hexhausted]
      exact hdone
    | close => exact (close_done reader w).2.trans hdone
    | current | fraction | splitPoints | splitAt => exact hdone
  · rw [serve_of_closed hclosed]
    exact hdone

/-! ## all calls -/

theorem make_marked (library : Library ρ ε) (source : Source) (context : Context ρ ε) :
    (make library source context).Marked :=
  marked_of_undone rfl (fun h => by cases h)

theorem after_marked (h : reader.Marked) (turns : List (Turn ρ ε)) :
    (reader.after turns).Marked := by
  induction turns generalizing reader with
  | nil => exact h
  | cons turn turns ih => exact ih (serve_marked h turn.request turn.world)

theorem after_done (h : reader.Marked) (hdone : reader.done = true) (turns : List (Turn ρ ε)) :
    (reader.after turns).done = true := by
  induction turns generalizing reader with
  | nil => exact hdone
  | cons turn turns ih =>
    exact ih (serve_marked h turn.request turn.world)
      (serve_done h hdone turn.request turn.world)

theorem after_of_closed (h : reader.phase = .closed) (turns : List (Turn ρ ε)) :
    reader.after turns = reader := by
  induction turns with
  | nil => rfl
  | cons turn turns ih =>
    rw [after, serve_of_closed h]
    exact ih

/-- A reader that has failed stays as it is until it is closed. -/
theorem after_of_failed (h : reader.phase = .failed) {turns : List (Turn ρ ε)}
    (hturns : ∀ turn ∈ turns, turn.request ≠ .close) : reader.after turns = reader := by
  induction turns with
  | nil => rfl
  | cons turn turns ih =>
    rw [after, serve_of_failed h (hturns turn List.mem_cons_self)]
    exact ih fun turn hturn => hturns turn (List.mem_cons_of_mem _ hturn)

/-- A reader that has failed and is closed is closed for good, with the mark it had. -/
theorem after_of_failed_close (h : reader.phase = .failed) {turns : List (Turn ρ ε)}
    (hturns : ∃ turn ∈ turns, turn.request = .close) :
    (reader.after turns).phase = .closed ∧ (reader.after turns).done = reader.done := by
  induction turns with
  | nil => simp at hturns
  | cons turn turns ih =>
    rw [after]
    by_cases hrequest : turn.request = .close
    · have hclose := close_done reader turn.world
      rw [serve_of_close hrequest, after_of_closed hclose.1]
      exact hclose
    · rw [serve_of_failed h hrequest]
      obtain ⟨closing, hmem, hclosing⟩ := hturns
      obtain rfl | hmem := List.mem_cons.1 hmem
      · exact absurd hclosing hrequest
      · exact ih ⟨closing, hmem, hclosing⟩

omit [Ratio ρ] in
theorem splitPoints_le_one (reader : Reader library) : reader.splitPointsRemaining ≤ 1 := by
  unfold splitPointsRemaining
  split
  · exact Nat.zero_le 1
  · exact Nat.le_refl 1

omit [Ratio ρ] in
theorem splitPoints_eq_zero_iff :
    reader.splitPointsRemaining = 0 ↔ reader.done = true ∨ reader.phase = .failed := by
  unfold splitPointsRemaining
  split
  · rename_i h
    exact iff_of_true rfl h
  · rename_i h
    exact iff_of_false Nat.one_ne_zero h

/-- A reader that has failed has a split point again once it is closed. -/
theorem splitPoints_of_failed_close (h : reader.phase = .failed) (hdone : reader.done = false)
    {turns : List (Turn ρ ε)} (hturns : ∃ turn ∈ turns, turn.request = .close) :
    (reader.after turns).splitPointsRemaining = 1 := by
  obtain ⟨hphase, hafter⟩ := after_of_failed_close h hturns
  have hsome : (reader.after turns).splitPointsRemaining ≠ 0 := by
    rw [Ne, splitPoints_eq_zero_iff, hafter, hdone, hphase]
    simp
  have hle := splitPoints_le_one (reader.after turns)
  omega

/-- **Split points come back exactly where a reader that has failed is closed.**  In every other run
there never are more of them than before, and a reader that has read everything has none for
good. -/
theorem points_rise_iff (library : Library ρ ε) (source : Source) (context : Context ρ ε)
    (turns later : List (Turn ρ ε)) :
    let reader := (make library source context).after turns
    reader.splitPointsRemaining < (reader.after later).splitPointsRemaining ↔
      reader.phase = .failed ∧ ∃ turn ∈ later, turn.request = .close := by
  intro reader
  have hmarked : reader.Marked := after_marked (make_marked library source context) turns
  constructor
  · intro hrise
    have hle := splitPoints_le_one (reader.after later)
    have hnone : reader.splitPointsRemaining = 0 := by omega
    have hsome : (reader.after later).splitPointsRemaining ≠ 0 := by omega
    have hfailed : reader.phase = .failed := by
      obtain hdone | hfailed := splitPoints_eq_zero_iff.1 hnone
      · exact absurd (splitPoints_eq_zero_iff.2 (.inl (after_done hmarked hdone later))) hsome
      · exact hfailed
    refine ⟨hfailed, ?_⟩
    by_contra hclose
    rw [after_of_failed hfailed fun turn hturn hrequest => hclose ⟨turn, hturn, hrequest⟩] at hsome
    exact hsome hnone
  · rintro ⟨hfailed, hclose⟩
    have hdone : reader.done = false := hmarked.undone (by simp [hfailed]) (by simp [hfailed])
    rw [splitPoints_eq_zero_iff.2 (.inr hfailed), splitPoints_of_failed_close hfailed hdone hclose]
    exact Nat.one_pos

/-- a split that cannot be opened, and the reader closed after that -/
theorem points_rise_unopened :
    let split : Descriptor := .custom ⟨"part", 0, 1, "part 0", .ok []⟩
    let fault : Fault := .of .other "gone"
    let play : Play Unit := ⟨fun _ _ => ⟨.error fault, [], .ok (), .ok ()⟩, id, id⟩
    let library := Library.scripted ℚ play [split]
    let w : World Unit := ⟨.empty, .empty, [], fun _ => 0, 0, ()⟩
    let reader := (make library (Source.text "f") (.standard ℚ Unit ⟨0⟩)).after [⟨.start, w⟩]
    reader.splitPointsRemaining = 0 ∧ (reader.after [⟨.close, w⟩]).splitPointsRemaining = 1 := by
  intro split fault play library w reader
  have hquiet : w.isRaised ⟨0⟩ = false := Flags.isRaised_empty _
  let begun : Reader library :=
    { make library (Source.text "f") (.standard ℚ Unit ⟨0⟩) with
      splits := [split], phase := .active }
  have hsearched : Searched [split] begun w
      (.error (begun.readError 1 fault), { begun with cursor := none, opened := 1 }, w) :=
    .unopened (.idle rfl) hquiet rfl
  have hresolve : (make library (Source.text "f") (.standard ℚ Unit ⟨0⟩)).resolveSplits w =
      (.ok [split], make library (Source.text "f") (.standard ℚ Unit ⟨0⟩), w) := rfl
  have hadvance : begun.advance w =
      (.error (begun.readError 1 fault), fail { begun with cursor := none, opened := 1 } w) :=
    advance_of_error rfl hsearched.eq
  have hfailed : reader.phase = .failed := by
    show ((make library (Source.text "f") (.standard ℚ Unit ⟨0⟩)).start w).2.1.phase = _
    rw [start_of_resolved rfl hresolve]
    show (begun.advance w).2.1.phase = _
    rw [hadvance, fail_reader]
  have hmarked : reader.Marked := after_marked (make_marked library _ _) _
  have hdone : reader.done = false := hmarked.undone (by simp [hfailed]) (by simp [hfailed])
  exact ⟨splitPoints_eq_zero_iff.2 (.inr hfailed),
    splitPoints_of_failed_close hfailed hdone ⟨_, List.mem_cons_self, rfl⟩⟩

end Splittable.Reader
