import Splittable.Proofs.LineText.Lines
import Splittable.Proofs.Reader.Ahead
import Splittable.Proofs.Reader.Candid
import Splittable.Proofs.Split.Tiles

/-!
# Reading splits of text

The splits of files of text, each opened with a cursor of its own, have the lines of the files.

* `FileSystem.HoldsText`     the text of a file, and its size as it is listed;
* `LineText.Reads`           the records of a split wherever the files are the same and nothing
  interrupts;
* `LineText.reads_of_files`  the splits of files have their lines.
-/

namespace Splittable

/-- the text of a file, and its size as it is listed -/
structure FileSystem.HoldsText (files : FileSystem) (file : FileStatus) (text : String) : Prop where
  holds : files.Holds file.path (Utf8.encode text)
  length : file.length.toNat = (Utf8.encode text).length

namespace LineCursor

open Pieces

theorem Drains.gives {ρ ε : Type} [Ratio ρ] {w : World ε} {cursor : LineCursor}
    {pairs : List Pair} (h : cursor.Drains w.files (pairs.map .ok))
    (hcalm : w.isRaised cursor.interrupt = false) :
    (Library.text ρ ε).Gives w cursor pairs := by
  have hnext : ∀ cursor : LineCursor, w.isRaised cursor.interrupt = false →
      (Library.text ρ ε).next cursor w = (cursor.next w.files false, w) := by
    intro cursor hcalm
    show (cursor.next w.files (w.isRaised cursor.interrupt), w) = _
    rw [hcalm]
  induction pairs generalizing cursor with
  | nil =>
    cases h with
    | done hdone => exact .done ((hnext cursor hcalm).trans (congrArg (·, w) hdone)) rfl
  | cons pair pairs ih =>
    cases h with
    | @pair _ after _ _ hpair hrest =>
      have hafter : after.interrupt = cursor.interrupt := by
        have := next_interrupt w.files false cursor
        rwa [hpair] at this
      refine .pair ((hnext cursor hcalm).trans (congrArg (·, w) hpair)) (ih hrest ?_)
      rw [hafter]
      exact hcalm

end LineCursor

namespace LineText

open Pieces

/-- the records of a split, wherever the files are the same and nothing interrupts -/
def Reads (ρ ε : Type) [Ratio ρ] (files : FileSystem) (overrides : Overrides) (interrupt : Flag)
    (split : FileSplit) (pairs : List Pair) : Prop :=
  ∀ w : World ε, w.files = files → w.isRaised interrupt = false →
    (Library.text ρ ε).Opens overrides interrupt w (.file split) pairs

section
variable {ρ ε : Type} [Ratio ρ] {files : FileSystem} {overrides : Overrides} {interrupt : Flag}

theorem reads_of_answers {split : FileSplit} {pairs : List Pair}
    (h : Answers files overrides interrupt split (pairs.map .ok)) :
    Reads ρ ε files overrides interrupt split pairs := by
  rintro w rfl hcalm
  obtain ⟨cursor, hopen, hdrains⟩ := h
  have hinterrupt := interrupt_of_openCursor hopen
  refine ⟨cursor, ?_, hdrains.gives (by rw [hinterrupt]; exact hcalm)⟩
  exact congrArg (·, w) hopen

theorem map_answer_of_sublist {text : String} {records : List (Nat × Bytes)}
    (h : records.Sublist (onward [0x0A] (Utf8.encode text) 0)) :
    records.map Delimiter.newline.answer =
      (records.filterMap fun r => (Delimiter.newline.answer r).toOption).map .ok := by
  have hok : ∀ r ∈ records, ∃ pair, Delimiter.newline.answer r = .ok pair := by
    intro r hr
    have hmem := List.mem_map_of_mem (f := Delimiter.newline.answer) (h.subset hr)
    rw [onward_encode] at hmem
    obtain ⟨pair, -, hpair⟩ := List.mem_map.1 hmem
    exact ⟨pair, hpair.symm⟩
  clear h
  induction records with
  | nil => rfl
  | cons r records ih =>
    obtain ⟨pair, hpair⟩ := hok r List.mem_cons_self
    have hfound : (Delimiter.newline.answer r).toOption = some pair := by
      rw [hpair]
      rfl
    rw [List.map_cons, ih fun r hr => hok r (List.mem_cons_of_mem _ hr), List.filterMap_cons,
      hfound, hpair, List.map_cons]

/-- **The splits of a file of text have its lines.** -/
theorem reads_of_carve (hdelimiter : overrides.find? Delimiter.overrideKey = none)
    {file : FileStatus} {text : String} (h : files.HoldsText file text) (size : UInt64) :
    ∃ parts, List.Forall₂ (Reads ρ ε files overrides interrupt) (carve ρ file size) parts ∧
      parts.flatten = Text.pairs text := by
  obtain ⟨hholds, hlength⟩ := h
  have hnewline : Delimiter.ofOverrides overrides = .ok .newline := by
    unfold Delimiter.ofOverrides
    rw [hdelimiter]
  have hapart : Apart Delimiter.newline.bytes (Utf8.encode text) :=
    Delimiter.unbordered_newline.apart _
  let records := onward [0x0A] (Utf8.encode text) 0
  let found := fun r : Nat × Bytes => (Delimiter.newline.answer r).toOption
  refine ⟨(carve ρ file size).map fun split =>
    (window split.start.toNat split.stop.toNat records).filterMap found, ?_, ?_⟩
  · rw [List.forall₂_map_right_iff, List.forall₂_same]
    intro split hsplit
    refine reads_of_answers ?_
    rw [← map_answer_of_sublist (window_sublist _ _ records)]
    exact answers_of_mem_carve hnewline hapart hholds hlength interrupt hsplit
  · have hall : (carve ρ file size).flatMap
        (fun split => window split.start.toNat split.stop.toNat records) = records := by
      refine flatMap_window_carve fun r hr => ?_
      rw [hlength]
      exact (fst_of_mem_onward (List.cons_ne_nil _ _) hr).2
    rw [← List.flatMap_def, ← List.filterMap_flatMap, hall]
    have hok := map_answer_of_sublist (List.Sublist.refl records)
    rw [onward_encode] at hok
    exact (List.map_injective_iff.2 (fun _ _ => Except.ok.inj) hok).symm

/-- **The splits of files of text have their lines**, file by file. -/
theorem reads_of_files (hdelimiter : overrides.find? Delimiter.overrideKey = none)
    {found : List FileStatus} {texts : List String} (h : List.Forall₂ files.HoldsText found texts)
    (size : UInt64) :
    ∃ parts, List.Forall₂ (Reads ρ ε files overrides interrupt)
        (found.flatMap fun file => carve ρ file size) parts ∧
      parts.flatten = texts.flatMap Text.pairs := by
  induction h with
  | nil => exact ⟨[], .nil, rfl⟩
  | cons hfile _ ih =>
    obtain ⟨parts, hparts, hflatten⟩ := reads_of_carve (ρ := ρ) hdelimiter hfile size
    obtain ⟨more, hmore, hmoreflatten⟩ := ih
    refine ⟨parts ++ more, ?_, ?_⟩
    · rw [List.flatMap_cons]
      exact List.rel_append hparts hmore
    · rw [List.flatten_append, hflatten, hmoreflatten, List.flatMap_cons]

end

end LineText

end Splittable
