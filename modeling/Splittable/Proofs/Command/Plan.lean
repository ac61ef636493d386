import Splittable.Command.Plan
import Splittable.Proofs.Json.OneLine
import Splittable.Proofs.LineText.Lines
import Splittable.Proofs.Source.Shipped
import Mathlib.Data.List.TakeWhile

/-!
# A plan is loaded as it was written

Every bundle is written on one line, which is not blank.  So the lines of a plan are those of its
bundles, also where blank lines are put between them, and from each its bundle is read.

* `Text.trim_isEmpty_iff`        the lines that are passed over have only blanks;
* `Source.render_eq_cons`, `uncontrolled_render`   a source is written on one line;
* `Plan.lines_cons`              the lines of a plan are those of a text;
* `Plan.Padded`                  the lines of some bundles, with blank lines between them;
* `Plan.parseFrom_padded`        the bundles that are read from such lines;
* `Plan.loaded_as_written`       the bundles that are loaded from a file of such lines.
-/

namespace Splittable

namespace Text

/-- only blanks -/
def Blank (cs : List Char) : Prop := ∀ c ∈ cs, isBlank c = true

instance (cs : List Char) : Decidable (Blank cs) :=
  decidable_of_iff (cs.all isBlank = true) List.all_eq_true

theorem blank_dropWhile (cs : List Char) : Blank (cs.dropWhile isBlank) ↔ Blank cs := by
  induction cs with
  | nil => rfl
  | cons c cs ih =>
    rw [List.dropWhile_cons]
    split
    · rename_i hc
      rw [ih, Blank, Blank, List.forall_mem_cons, and_iff_right hc]
    · rfl

theorem trimEnd_eq_nil_iff (cs : List Char) : trimEnd cs = [] ↔ Blank cs := by
  rw [trimEnd, List.reverse_eq_nil_iff, List.dropWhile_eq_nil_iff]
  simp only [List.mem_reverse, Blank]

/-- **A text is empty without its blank ends exactly if it has only blanks.** -/
theorem trim_isEmpty_iff (s : String) : (trim s).isEmpty = true ↔ Blank s.toList := by
  rw [String.isEmpty_iff, ← String.toList_eq_nil_iff, trim, String.toList_ofList,
    trimEnd_eq_nil_iff, trimStart, blank_dropWhile]

/-- Without what ends it, a line has no character that it did not have before. -/
theorem mem_of_mem_body {c : Char} {line : List Char} (h : c ∈ body line) : c ∈ line := by
  unfold body at h
  split at h
  · rename_i before hline
    rw [← List.mem_reverse, hline]
    exact List.mem_cons_of_mem _ (List.mem_cons_of_mem _ (List.mem_reverse.1 h))
  · rename_i before _ hline
    rw [← List.mem_reverse, hline]
    exact List.mem_cons_of_mem _ (List.mem_reverse.1 h)
  · exact h

end Text

/-! ## the line of a source -/

namespace Source

/-- A source is written between braces. -/
theorem render_eq_cons (source : Source) :
    ∃ cs, source.render.toList = '{' :: cs ++ ['}'] := by
  rw [render, Json.render, String.toList_ofList]
  exact ⟨_, rfl⟩

/-- **A source is written on one line.** -/
theorem uncontrolled_render (source : Source) : Json.Uncontrolled source.render.toList := by
  rw [render, Json.render, String.toList_ofList]
  exact source.plain_toJson.uncontrolled

theorem not_blank_render (source : Source) : ¬Text.Blank source.render.toList := by
  obtain ⟨cs, hrender⟩ := source.render_eq_cons
  intro hblank
  have hbrace := hblank '{' (by simp [hrender])
  exact absurd hbrace (by decide)

/-- No carriage return is taken from its end. -/
theorem body_render (source : Source) :
    Text.body (source.render.toList ++ ['\n']) = source.render.toList := by
  obtain ⟨cs, hrender⟩ := source.render_eq_cons
  rw [hrender]
  exact Text.body_lineFeed (by decide) ('{' :: cs)

end Source

namespace Plan

open Text

/-! ## lines -/

/-- some texts, each on a line of its own -/
def ofLines (found : List String) : String := String.join (found.map (· ++ "\n"))

theorem linesFrom_of_ne {b : UInt8} (h : b ≠ 0x0A) (acc rest : Bytes) :
    lines.linesFrom acc (b :: rest) = lines.linesFrom (b :: acc) rest := by
  rw [lines.linesFrom]
  exact h

theorem linesFrom_lineFeed (acc rest : Bytes) : lines.linesFrom acc (0x0A :: rest) =
    (Delimiter.newline.strip (0x0A :: acc)).reverse :: lines.linesFrom [] rest := by
  cases acc with
  | nil => rfl
  | cons b before =>
    by_cases hb : b = 0x0D
    · subst hb
      rfl
    · rw [LineText.strip_of_ne hb, lines.linesFrom]
      exact fun _ hline => hb (List.cons.inj hline).1

theorem linesFrom_append {xs : Bytes} (h : (0x0A : UInt8) ∉ xs) (acc rest : Bytes) :
    lines.linesFrom acc (xs ++ rest) = lines.linesFrom (xs.reverse ++ acc) rest := by
  induction xs generalizing acc with
  | nil => rfl
  | cons x xs ih =>
    obtain ⟨hx, hxs⟩ := List.ne_and_not_mem_of_not_mem_cons h
    rw [List.cons_append, linesFrom_of_ne hx.symm, ih hxs, List.reverse_cons, List.append_assoc]
    rfl

/-- **The first line of a plan is that of a text.** -/
theorem lines_cons {line : List Char} (h : '\n' ∉ line) (rest : Bytes) :
    lines (bytesOf line ++ 0x0A :: rest) = bytesOf (body (line ++ ['\n'])) :: lines rest := by
  have hbytes : (0x0A : UInt8) ∉ bytesOf line := by
    intro hmem
    obtain ⟨c, hc, hbyte⟩ := List.mem_flatMap.1 hmem
    exact lineFeed_not_mem (fun hline => h (hline ▸ hc)) hbyte
  have hfirst : bytesOf (body (line ++ ['\n'])) =
      (Delimiter.newline.strip (0x0A :: (bytesOf line).reverse)).reverse := by
    rw [← LineText.record_bytesOf, bytesOf_append, ← LineText.record_lineFeed]
    rfl
  rw [lines, linesFrom_append hbytes, List.append_nil, hfirst, linesFrom_lineFeed]
  rfl

/-! ## bundles -/

/-- The lines of bundles, one for each, with blank lines put between them. -/
inductive Padded : List Source → List String → Prop
  | nil : Padded [] []
  | blank {bundles : List Source} {line : String} {later : List String} : Blank line.toList →
      '\n' ∉ line.toList → Padded bundles later → Padded bundles (line :: later)
  | bundle {bundle : Source} {bundles : List Source} {later : List String} :
      Padded bundles later → Padded (bundle :: bundles) (bundle.render :: later)

theorem padded_render (bundles : List Source) : Padded bundles (bundles.map Source.render) := by
  induction bundles with
  | nil => exact .nil
  | cons bundle bundles ih => exact .bundle ih

theorem encode_ofLines (line : String) (later : List String) :
    Utf8.encode (ofLines (line :: later)) =
      bytesOf line.toList ++ 0x0A :: Utf8.encode (ofLines later) := by
  have hchars : (ofLines (line :: later)).toList =
      line.toList ++ '\n' :: (ofLines later).toList := by
    simp [ofLines, String.toList_join]
  rw [Utf8.encode_eq_flatMap, Utf8.encode_eq_flatMap, hchars]
  show bytesOf (line.toList ++ '\n' :: (ofLines later).toList) = _
  rw [bytesOf_append, bytesOf_cons]
  rfl

theorem parseFrom_blank {text : String} (h : Blank text.toList) (number : Nat)
    (later : List Bytes) :
    parseFrom number (Utf8.encode text :: later) = parseFrom (number + 1) later := by
  rw [parseFrom, Utf8.decode_encode]
  dsimp only
  rw [if_pos ((trim_isEmpty_iff text).2 h)]

theorem parseFrom_bundle (bundle : Source) (number : Nat) (later : List Bytes) :
    parseFrom number (Utf8.encode bundle.render :: later) =
      (parseFrom (number + 1) later).map (bundle.shipped :: ·) := by
  have hfull : ¬(trim bundle.render).isEmpty = true :=
    fun hempty => bundle.not_blank_render ((trim_isEmpty_iff _).1 hempty)
  rw [parseFrom, Utf8.decode_encode]
  dsimp only
  rw [if_neg hfull, bundle.parse_render]

/-- **From the lines of bundles the bundles are read**, as they are shipped. -/
theorem parseFrom_padded {bundles : List Source} {found : List String} (h : Padded bundles found)
    (number : Nat) : parseFrom number (lines (Utf8.encode (ofLines found))) =
      .ok (bundles.map Source.shipped) := by
  induction h generalizing number with
  | nil => rfl
  | @blank bundles line later hblank hline _ ih =>
    have hended : Blank (line.toList ++ ['\n']) :=
      List.forall_mem_append.2 ⟨hblank, List.forall_mem_singleton.2 (by decide)⟩
    have hbody : Blank (String.ofList (body (line.toList ++ ['\n']))).toList := by
      rw [String.toList_ofList]
      exact fun c hc => hended c (mem_of_mem_body hc)
    rw [encode_ofLines, lines_cons hline, ← encode_ofList, parseFrom_blank hbody, ih]
  | @bundle bundle bundles later _ ih =>
    have hline : '\n' ∉ bundle.render.toList := bundle.uncontrolled_render.not_mem (by decide)
    rw [encode_ofLines, lines_cons hline, bundle.body_render, ← encode_ofList,
      String.ofList_toList, parseFrom_bundle, ih]
    rfl

theorem load_of_read {files : FileSystem} {path : String} {bytes : ByteArray}
    {bundles : List Source} (hread : files.read path = .ok bytes)
    (hparse : parse bytes.data.toList = .ok bundles) : load files path = .ok bundles := by
  unfold FileSystem.read at hread
  unfold load
  cases hresolve : files.resolve path with
  | error e =>
    rw [hresolve] at hread
    cases hread
  | ok id =>
    rw [hresolve] at hread
    have hcontents : files.contents id = .ok bytes := hread
    dsimp only
    rw [hcontents]
    dsimp only
    rw [hparse]

/-- **A plan is loaded as it was written.**  From a file that holds the lines written for bundles,
with any blank lines between them, the same bundles are loaded in their order.  Each is written on
one line, which is not blank and from which it is read again. -/
theorem loaded_as_written (bundles : List Source) :
    (∀ found, Padded bundles found → ∀ (files : FileSystem) (path : String),
      files.read path = .ok (ofLines found).toByteArray →
      ∃ loaded, load files path = .ok loaded ∧ List.Forall₂ Source.Same loaded bundles) ∧
    (render bundles = ofLines (bundles.map Source.render) ∧
      Padded bundles (bundles.map Source.render)) ∧
    ∀ source : Source,
      (∃ received, Source.parse source.render = some received ∧ received.Same source) ∧
      (∀ c ∈ source.render.toList, c ≠ '\n' ∧ c ≠ '\r') ∧ ¬Blank source.render.toList := by
  refine ⟨?_, ⟨?_, padded_render bundles⟩, ?_⟩
  · intro found hpadded files path hread
    refine ⟨bundles.map Source.shipped, load_of_read hread (parseFrom_padded hpadded 1), ?_⟩
    rw [List.forall₂_map_left_iff, List.forall₂_same]
    exact fun bundle _ => bundle.same_shipped
  · rw [render, ofLines, List.map_map]
    rfl
  · intro source
    have hshown := source.uncontrolled_render
    refine ⟨⟨_, source.parse_render, source.same_shipped⟩, ?_, source.not_blank_render⟩
    intro c hc
    constructor
    · rintro rfl
      exact hshown.not_mem (by decide) hc
    · rintro rfl
      exact hshown.not_mem (by decide) hc

/-- two bundles, one of which is all escapes, with three blank lines -/
theorem loaded_as_written_escaped :
    let handle : Handle := ⟨"part\n", 3, [0, 255], none⟩
    let odd : Source := { Source.text "\"\\\n\x00é\u2028" with
      format := none, split := some handle, keyType := some (.custom "\r"),
      overrides := .ofList [("\t", "\x7f"), ("", "\n\n")] }
    let found := ["", odd.render, " \t\r", (Source.text "f").render, "\u3000"]
    let files := FileSystem.single (Utf8.encode (ofLines found))
    Padded [odd, Source.text "f"] found ∧ files.read "f" = .ok (ofLines found).toByteArray ∧
      ∃ loaded, load files "f" = .ok loaded ∧
        List.Forall₂ Source.Same loaded [odd, Source.text "f"] := by
  intro handle odd found files
  have hpadded : Padded [odd, Source.text "f"] found :=
    .blank (by decide) (by decide) <| .bundle <|
      .blank (by decide) (by decide) <| .bundle <|
        .blank (by decide) (by decide) .nil
  have hread : files.read "f" = .ok (ofLines found).toByteArray := by
    unfold FileSystem.read
    rw [FileSystem.resolve_single]
    rfl
  exact ⟨hpadded, hread, (loaded_as_written _).1 found hpadded files "f" hread⟩

end Plan

end Splittable
