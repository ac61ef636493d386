import Splittable.Reader

/-!
# How a search for the next record goes

A search asks the open cursor first.  Where that has nothing left it is closed and the next split is
opened, until some split has a record, all splits are read or something goes wrong.

* `Reader.Drained`       no cursor is open any more, and nothing went wrong;
* `Reader.Searched`      all ways in which a search can go, with what the library answers;
* `Reader.searched_iff`  these are the ways that it does go;
* `Reader.fail_reader`, `release_reader`, `close_of_open`   what is left of a reader that gives up
  its cursor.
-/

namespace Splittable.Reader

variable {ρ ε : Type} {library : Library ρ ε}

/-- No cursor is open any more: none was, or the open one had nothing left and was closed. -/
inductive Drained (reader : Reader library) : World ε → World ε → Prop
  | idle {w : World ε} : reader.cursor = none → Drained reader w w
  | closed {w w₁ w₂ : World ε} {cursor after closed : library.Cursor} :
      reader.cursor = some cursor → library.next cursor w = ((.ok none, after), w₁) →
      library.close after w₁ = ((.ok (), closed), w₂) → Drained reader w w₂

/-- The ways in which a search can go through the splits that are not opened yet. -/
inductive Searched : List Descriptor → Reader library → World ε → Outcome library Bool → Prop
  | record {unopened : List Descriptor} {reader : Reader library} {w w₁ : World ε}
      {cursor after : library.Cursor} {pair : Pair} :
      reader.cursor = some cursor → library.next cursor w = ((.ok (some pair), after), w₁) →
      Searched unopened reader w
        (.ok true, { reader with cursor := some after, current := some pair }, w₁)
  | broken {unopened : List Descriptor} {reader : Reader library} {w w₁ : World ε}
      {cursor after : library.Cursor} {fault : Fault} :
      reader.cursor = some cursor → library.next cursor w = ((.error fault, after), w₁) →
      Searched unopened reader w
        (.error (reader.readError reader.opened fault), { reader with cursor := some after }, w₁)
  | unclosed {unopened : List Descriptor} {reader : Reader library} {w w₁ w₂ : World ε}
      {cursor after closed : library.Cursor} {fault : Fault} :
      reader.cursor = some cursor → library.next cursor w = ((.ok none, after), w₁) →
      library.close after w₁ = ((.error fault, closed), w₂) →
      Searched unopened reader w
        (.error (reader.readError reader.opened fault), { reader with cursor := none }, w₂)
  | finished {reader : Reader library} {w w₁ : World ε} :
      reader.Drained w w₁ → Searched [] reader w (.ok false, { reader with cursor := none }, w₁)
  | interrupted {split : Descriptor} {unopened : List Descriptor} {reader : Reader library}
      {w w₁ : World ε} :
      reader.Drained w w₁ → w₁.isRaised reader.interrupt = true →
      Searched (split :: unopened) reader w
        (.error (reader.readError (reader.opened + 1) interruptedBetween),
          { reader with cursor := none }, w₁)
  | unopened {split : Descriptor} {unopened : List Descriptor} {reader : Reader library}
      {w w₁ w₂ : World ε} {fault : Fault} :
      reader.Drained w w₁ → w₁.isRaised reader.interrupt = false →
      library.openCursor split reader.source.overrides reader.interrupt w₁ =
        (.error fault, w₂) →
      Searched (split :: unopened) reader w
        (.error (reader.readError (reader.opened + 1) fault),
          { reader with cursor := none, opened := reader.opened + 1 }, w₂)
  | onward {split : Descriptor} {unopened : List Descriptor} {reader : Reader library}
      {w w₁ w₂ : World ε} {cursor : library.Cursor} {outcome : Outcome library Bool} :
      reader.Drained w w₁ → w₁.isRaised reader.interrupt = false →
      library.openCursor split reader.source.overrides reader.interrupt w₁ =
        (.ok cursor, w₂) →
      Searched unopened { reader with cursor := some cursor, opened := reader.opened + 1 } w₂
        outcome →
      Searched (split :: unopened) reader w outcome

/-! ## pulling -/

theorem eq_of_cursor_none {reader : Reader library} (h : reader.cursor = none) :
    { reader with cursor := none } = reader := by
  rw [← h]

section
variable {reader : Reader library} {w w₁ w₂ : World ε} {cursor after closed : library.Cursor}
  {pair : Pair} {fault : Fault}

theorem pull_of_record (hcursor : reader.cursor = some cursor)
    (hnext : library.next cursor w = ((.ok (some pair), after), w₁)) :
    reader.pull w = (.ok true, { reader with cursor := some after, current := some pair }, w₁) := by
  simp only [pull, hcursor, hnext]

theorem pull_of_broken (hcursor : reader.cursor = some cursor)
    (hnext : library.next cursor w = ((.error fault, after), w₁)) :
    reader.pull w = (.error (reader.readError reader.opened fault),
      { reader with cursor := some after }, w₁) := by
  simp only [pull, hcursor, hnext]

theorem pull_of_unclosed (hcursor : reader.cursor = some cursor)
    (hnext : library.next cursor w = ((.ok none, after), w₁))
    (hclose : library.close after w₁ = ((.error fault, closed), w₂)) :
    reader.pull w =
      (.error (reader.readError reader.opened fault), { reader with cursor := none }, w₂) := by
  simp only [pull, hcursor, hnext, release, hclose]
  rfl

theorem pull_of_drained (h : reader.Drained w w₁) :
    reader.pull w = (.ok false, { reader with cursor := none }, w₁) := by
  cases h with
  | idle hcursor => rw [eq_of_cursor_none hcursor, pull, hcursor]
  | closed hcursor hnext hclose => simp only [pull, hcursor, hnext, release, hclose]

end

/-- A pull finds a record, or the cursor is drained, or an error is met on the way. -/
theorem pull_cases (reader : Reader library) (w : World ε) :
    (∃ cursor after pair w₁, reader.cursor = some cursor ∧
      library.next cursor w = ((.ok (some pair), after), w₁)) ∨
    (∃ cursor after fault w₁, reader.cursor = some cursor ∧
      library.next cursor w = ((.error fault, after), w₁)) ∨
    (∃ cursor after closed fault w₁ w₂, reader.cursor = some cursor ∧
      library.next cursor w = ((.ok none, after), w₁) ∧
      library.close after w₁ = ((.error fault, closed), w₂)) ∨
    ∃ w₁, reader.Drained w w₁ := by
  cases hcursor : reader.cursor with
  | none => exact .inr (.inr (.inr ⟨w, .idle hcursor⟩))
  | some cursor =>
    rcases hnext : library.next cursor w with ⟨⟨fault | _ | pair, after⟩, w₁⟩
    · exact .inr (.inl ⟨cursor, after, fault, w₁, rfl, hnext⟩)
    · rcases hclose : library.close after w₁ with ⟨⟨fault | _, closed⟩, w₂⟩
      · exact .inr (.inr (.inl ⟨cursor, after, closed, fault, w₁, w₂, rfl, hnext, hclose⟩))
      · exact .inr (.inr (.inr ⟨w₂, .closed hcursor hnext hclose⟩))
    · exact .inl ⟨cursor, after, pair, w₁, rfl, hnext⟩

/-! ## searching -/

/-- the first of the splits that are not opened yet, and the rest of them -/
theorem of_drop_eq_cons {splits unopened : List Descriptor} {split : Descriptor} {opened : Nat}
    (h : splits.drop opened = split :: unopened) :
    splits[opened]? = some split ∧ splits.drop (opened + 1) = unopened := by
  constructor
  · have hhead := congrArg (·[0]?) h
    simpa [List.getElem?_drop] using hhead
  · rw [← List.drop_drop, h]
    rfl

theorem searched (unopened : List Descriptor) (reader : Reader library) (w : World ε) :
    Searched unopened reader w (search unopened reader w) := by
  induction unopened generalizing reader w with
  | nil =>
    unfold search
    obtain ⟨_, _, _, _, hcursor, hnext⟩ | ⟨_, _, _, _, hcursor, hnext⟩ |
      ⟨_, _, _, _, _, _, hcursor, hnext, hclose⟩ | ⟨_, hdrained⟩ := pull_cases reader w
    · rw [pull_of_record hcursor hnext]
      exact .record hcursor hnext
    · rw [pull_of_broken hcursor hnext]
      exact .broken hcursor hnext
    · rw [pull_of_unclosed hcursor hnext hclose]
      exact .unclosed hcursor hnext hclose
    · rw [pull_of_drained hdrained]
      exact .finished hdrained
  | cons split unopened ih =>
    unfold search
    obtain ⟨_, _, _, _, hcursor, hnext⟩ | ⟨_, _, _, _, hcursor, hnext⟩ |
      ⟨_, _, _, _, _, _, hcursor, hnext, hclose⟩ | ⟨w₁, hdrained⟩ := pull_cases reader w
    · rw [pull_of_record hcursor hnext]
      exact .record hcursor hnext
    · rw [pull_of_broken hcursor hnext]
      exact .broken hcursor hnext
    · rw [pull_of_unclosed hcursor hnext hclose]
      exact .unclosed hcursor hnext hclose
    · rw [pull_of_drained hdrained]
      dsimp only [openNext]
      cases hraised : w₁.isRaised reader.interrupt with
      | true => exact .interrupted hdrained hraised
      | false =>
        rw [if_neg Bool.false_ne_true]
        rcases hopen : library.openCursor split reader.source.overrides reader.interrupt w₁ with
          ⟨fault | cursor, w₂⟩
        · exact .unopened hdrained hraised hopen
        · exact .onward hdrained hraised hopen (ih _ w₂)

theorem Searched.eq {unopened : List Descriptor} {reader : Reader library} {w : World ε}
    {outcome : Outcome library Bool} (h : Searched unopened reader w outcome) :
    search unopened reader w = outcome := by
  induction h with
  | @record unopened _ _ _ _ _ _ hcursor hnext =>
    cases unopened <;> simp only [search, pull_of_record hcursor hnext]
  | @broken unopened _ _ _ _ _ _ hcursor hnext =>
    cases unopened <;> simp only [search, pull_of_broken hcursor hnext]
  | @unclosed unopened _ _ _ _ _ _ _ _ hcursor hnext hclose =>
    cases unopened <;> simp only [search, pull_of_unclosed hcursor hnext hclose]
  | finished hdrained => simp only [search, pull_of_drained hdrained]
  | interrupted hdrained hraised =>
    simp only [search, pull_of_drained hdrained, openNext, hraised, if_true]
    rfl
  | unopened hdrained hraised hopen =>
    simp only [search, pull_of_drained hdrained, openNext, hraised, Bool.false_eq_true, if_false,
      hopen]
    rfl
  | onward hdrained hraised hopen _ ih =>
    simp only [search, pull_of_drained hdrained, openNext, hraised, Bool.false_eq_true, if_false,
      hopen]
    exact ih

/-- **A search goes in one of these ways**, and each of them is how some search goes. -/
theorem searched_iff {unopened : List Descriptor} {reader : Reader library} {w : World ε}
    {outcome : Outcome library Bool} :
    Searched unopened reader w outcome ↔ search unopened reader w = outcome :=
  ⟨Searched.eq, fun h => h ▸ searched unopened reader w⟩

/-! ## giving up the cursor -/

theorem release_reader (reader : Reader library) (w : World ε) :
    (reader.release w).2.1 = { reader with cursor := none } := by
  unfold release
  cases hcursor : reader.cursor with
  | none => exact (eq_of_cursor_none hcursor).symm
  | some cursor =>
    dsimp only
    rcases library.close cursor w with ⟨⟨fault | _, closed⟩, w₁⟩
    · rfl
    · rfl

theorem fail_reader [Ratio ρ] (reader : Reader library) (w : World ε) :
    (reader.fail w).1 =
      { reader with
        frozen := reader.fraction, current := none, phase := .failed, cursor := none } := by
  unfold fail
  cases hcursor : reader.cursor with
  | none => dsimp only
  | some cursor =>
    dsimp only
    rcases library.close cursor w with ⟨⟨fault | _, closed⟩, w₁⟩
    · rfl
    · rfl

end Splittable.Reader
