import Splittable.Proofs.Settings.Layers

/-!
# What the settings file says

A document says nothing unless its two tables are tables and every entry of them is of its kind.
Where that holds, it says of a setting what stands under its name.

* `Setting.key`, `ofToml?`          the name of a setting and the values it may have;
* `SettingsFile.Tables`             the two tables of a document;
* `SettingsFile.Tables.ofDocument?` those of a document that is well-formed;
* `Setting.inEntries`, `SettingsFile.texts`   what they say;
* `SettingsFile.load_fst`           the layer of the file in a working directory.
-/

namespace Splittable

open Toml (Value)
open SettingsFile

namespace Setting

/-- the name of a setting in the file -/
def key : Setting → String
  | .format => "format"
  | .keyType => "key_type"
  | .valueType => "value_type"
  | .bundleSize => "bundle_size"
  | .minBundleSize => "min_bundle_size"
  | .order => "order"
  | .seed => "seed"
  | .suppressRemote => "suppress_remote"
  | .threads => "threads"
  | .verbose => "verbose"

/-- the value of a setting that is written in the file, if it is of its kind -/
def ofToml? : (s : Setting) → Toml.Value → Option s.Value
  | .format => text?
  | .keyType | .valueType => typeTag?
  | .bundleSize | .minBundleSize | .seed => word?
  | .order => order?
  | .suppressRemote | .verbose => boolean?
  | .threads => count?

/-- what a table of settings says of a setting -/
def inEntries (entries : List (String × Toml.Value)) (s : Setting) : Option s.Value :=
  (entries.lookup s.key).bind s.ofToml?

/-- What stands under the name of a setting is of its kind. -/
def fits (entries : List (String × Toml.Value)) (s : Setting) : Bool :=
  (entries.lookup s.key).all fun v => (s.ofToml? v).isSome

end Setting

namespace SettingsFile

/-- the two tables of a document -/
structure Tables where
  settings : List (String × Toml.Value)
  overrides : List (String × Toml.Value)

/-- Every override can be held. -/
def overridesFit (entries : List (String × Toml.Value)) : Bool :=
  entries.all fun e => (overrideText? e.2).isSome

/-- the overrides as the texts that are passed on -/
def texts (entries : List (String × Toml.Value)) : List (String × String) :=
  entries.filterMap fun e => (overrideText? e.2).map (e.1, ·)

namespace Tables

/-- Every entry is of its kind. -/
def wellTyped (tables : Tables) : Bool :=
  Setting.all.all (Setting.fits tables.settings) && overridesFit tables.overrides

/-- The tables of a well-formed document; one that is absent is empty. -/
def ofDocument? (document : List (String × Toml.Value)) : Option Tables := do
  let settings ← (document.lookup "settings").elim (some []) settingEntries?
  let overrides ← (document.lookup "overrides").elim (some []) entries?
  if wellTyped ⟨settings, overrides⟩ then some ⟨settings, overrides⟩ else none

def layer (tables : Tables) : Layer :=
  .ofMentions (Setting.inEntries tables.settings) (.ofList (texts tables.overrides))

end Tables

/-! ## one table -/

theorem find?_eq_lookup (name : String) (entries : List (String × Toml.Value)) :
    (entries.find? (·.1 == name)).map (·.2) = entries.lookup name := by
  induction entries with
  | nil => rfl
  | cons entry rest ih =>
    rw [List.find?_cons, List.lookup_cons, BEq.comm]
    cases name == entry.1 with
    | true => rfl
    | false => exact ih

theorem entry?_eq {α : Type} (f : Toml.Value → Option α) (name : String)
    (entries : List (String × Toml.Value)) :
    entry? f name entries = (entries.lookup name).elim (some none) fun v => (f v).map some := by
  rw [← find?_eq_lookup]
  unfold entry?
  cases entries.find? (·.1 == name) <;> rfl

theorem entry?_setting (entries : List (String × Toml.Value)) (s : Setting) :
    entry? s.ofToml? s.key entries =
      if s.fits entries then some (s.inEntries entries) else none := by
  rw [entry?_eq]
  unfold Setting.fits Setting.inEntries
  cases entries.lookup s.key with
  | none => rfl
  | some v =>
    show (s.ofToml? v).map some = if (s.ofToml? v).isSome then some (s.ofToml? v) else none
    cases s.ofToml? v <;> rfl

theorem fits_of_read {entries : List (String × Toml.Value)} {s : Setting}
    {said : Option s.Value} (h : entry? s.ofToml? s.key entries = some said) :
    s.fits entries = true := by
  rw [entry?_setting] at h
  split at h
  · assumption
  · cases h

/-- A table of settings is read entry by entry. -/
theorem settings?_eq_some_iff {v : Toml.Value} {layer : Layer} :
    settings? v = some layer ↔ ∃ entries, settingEntries? v = some entries ∧
      layer.overrides = ∅ ∧
        ∀ s : Setting, entry? s.ofToml? s.key entries = some (s.mention layer) := by
  unfold settings?
  simp only [Option.bind_eq_bind, Option.bind_eq_some_iff]
  constructor
  · rintro ⟨entries, hentries, _, hformat, _, hkeyType, _, hvalueType, _, hbundleSize, _,
      hminBundleSize, _, horder, _, hseed, _, hsuppressRemote, _, hthreads, _, hverbose, h⟩
    cases h
    refine ⟨entries, hentries, rfl, fun s => ?_⟩
    cases s <;> assumption
  · rintro ⟨entries, hentries, hoverrides, hread⟩
    cases layer
    cases hoverrides
    exact ⟨entries, hentries, _, hread .format, _, hread .keyType, _, hread .valueType, _,
      hread .bundleSize, _, hread .minBundleSize, _, hread .order, _, hread .seed, _,
      hread .suppressRemote, _, hread .threads, _, hread .verbose, rfl⟩

theorem settings?_eq (v : Toml.Value) :
    settings? v = (settingEntries? v).bind fun entries =>
      if Setting.all.all (Setting.fits entries) then
        some (.ofMentions (Setting.inEntries entries) ∅)
      else none := by
  cases hentries : settingEntries? v with
  | none =>
    unfold settings?
    rw [hentries]
    rfl
  | some entries =>
    rw [Option.bind_some]
    split
    · rename_i hfits
      refine settings?_eq_some_iff.2 ⟨entries, hentries, rfl, fun s => ?_⟩
      rw [entry?_setting, if_pos (List.all_eq_true.1 hfits s s.mem_all), s.mention_ofMentions]
    · rename_i hfits
      refine Option.eq_none_iff_forall_ne_some.2 fun layer h => ?_
      obtain ⟨_, he, -, hread⟩ := settings?_eq_some_iff.1 h
      cases hentries.symm.trans he
      exact hfits (List.all_eq_true.2 fun s _ => fits_of_read (hread s))

theorem mapM_overrideText? (entries : List (String × Toml.Value)) :
    entries.mapM (fun (key, v) => (return (key, ← overrideText? v) : Option (String × String))) =
      if overridesFit entries then some (texts entries) else none := by
  unfold overridesFit texts
  induction entries with
  | nil => rfl
  | cons entry rest ih =>
    obtain ⟨key, v⟩ := entry
    rw [List.mapM_cons, ih, List.all_cons, List.filterMap_cons]
    dsimp only
    cases overrideText? v with
    | none => rfl
    | some text =>
      rw [Option.isSome_some, Bool.true_and]
      cases rest.all fun e => (overrideText? e.2).isSome <;> rfl

/-- The overrides of a table, each of which can be held. -/
theorem overrides?_eq (v : Toml.Value) :
    overrides? v = (entries? v).bind fun entries =>
      if overridesFit entries then some (.ofList (texts entries)) else none := by
  unfold overrides?
  simp only [mapM_overrideText?]
  cases entries? v with
  | none => rfl
  | some entries =>
    rw [Option.bind_some]
    show Option.bind (ite _ _ _) _ = _
    split <;> rfl

/-! ## the document -/

/-- A section that is absent says what an empty one says. -/
theorem entry?_getD {α : Type} {f : Toml.Value → Option α}
    {section? : Toml.Value → Option (List (String × Toml.Value))}
    {said? : List (String × Toml.Value) → Option α} (absent : α)
    (hf : ∀ v, f v = (section? v).bind said?) (habsent : said? [] = some absent) (name : String)
    (document : List (String × Toml.Value)) :
    ( entry? f name document).map (·.getD absent) =
      ((document.lookup name).elim (some []) section?).bind said? := by
  rw [entry?_eq]
  cases document.lookup name with
  | none => exact habsent.symm
  | some v =>
    show ((f v).map some).map (·.getD absent) = (section? v).bind said?
    rw [Option.map_map, ← hf]
    exact Option.map_id'

/-- **A document says what its tables say, if it is well-formed, and nothing otherwise.** -/
theorem ofToml?_eq (document : List (String × Toml.Value)) :
    Layer.ofToml? document = (Tables.ofDocument? document).map Tables.layer := by
  have hsplit : Layer.ofToml? document =
      (( entry? settings? "settings" document).map (·.getD {})).bind fun layer =>
        (( entry? overrides? "overrides" document).map (·.getD ∅)).map fun overrides =>
          { layer with overrides } := by
    unfold Layer.ofToml?
    cases entry? settings? "settings" document with
    | none => rfl
    | some layer => cases entry? overrides? "overrides" document <;> rfl
  rw [hsplit, entry?_getD {} settings?_eq rfl, entry?_getD ∅ overrides?_eq rfl]
  unfold Tables.ofDocument?
  cases (document.lookup "settings").elim (some []) settingEntries? with
  | none => rfl
  | some settings =>
    cases (document.lookup "overrides").elim (some []) entries? with
    | none =>
      rw [Option.bind_none]
      show Option.bind _ (fun _ => none) = none
      exact Option.bind_fun_none _
    | some overrides =>
      show _ = (if Tables.wellTyped ⟨settings, overrides⟩ then _ else _ : Option Tables).map _
      unfold Tables.wellTyped
      rw [Option.bind_some, Option.bind_some]
      cases Setting.all.all (Setting.fits settings) with
      | false => rfl
      | true => cases overridesFit overrides <;> rfl

/-! ## the file -/

/-- the text of the file in a working directory, if it is there and is one -/
def contents? (files : FileSystem) : Option String :=
  match files.read name with
  | .error _ => none
  | .ok bytes => (Utf8.decode bytes.data.toList).toOption

/-- the tables of the file in a working directory, if it is well-formed -/
def tables? (files : FileSystem) : Option Tables :=
  ((contents? files).bind Toml.parse).bind Tables.ofDocument?

theorem parse_eq (text : String) :
    SettingsFile.parse text = ((Toml.parse text).bind Tables.ofDocument?).map Tables.layer := by
  unfold SettingsFile.parse
  cases Toml.parse text with
  | none => rfl
  | some document => exact ofToml?_eq document

/-- The layer of the file in a working directory says what its tables say. -/
theorem load_fst (files : FileSystem) : (load files).1 = (tables? files).map Tables.layer := by
  unfold load tables? contents?
  cases files.read name with
  | error fault => rfl
  | ok bytes =>
    dsimp only
    cases Utf8.decode bytes.data.toList with
    | error e => rfl
    | ok text =>
      dsimp only
      show _ = ((Toml.parse text).bind Tables.ofDocument?).map Tables.layer
      rw [← parse_eq]
      cases SettingsFile.parse text <;> rfl

end SettingsFile

/-- what the settings file in a working directory says of a setting -/
def Setting.inFile (files : FileSystem) (s : Setting) : Option s.Value :=
  (tables? files).bind fun tables => s.inEntries tables.settings

/-- the text that the settings file has for a key of the overrides -/
def SettingsFile.override? (files : FileSystem) (key : String) : Option String :=
  (tables? files).bind fun tables => (texts tables.overrides).reverse.lookup key

theorem Setting.mention_load (files : FileSystem) (s : Setting) :
    (load files).1.bind (s.mention ·) = s.inFile files := by
  rw [load_fst, Option.bind_map]
  unfold inFile
  congr 1
  funext tables
  exact s.mention_ofMentions _ _

theorem SettingsFile.find?_load (files : FileSystem) (key : String) :
    (load files).1.bind (·.overrides.find? key) = override? files key := by
  rw [load_fst, Option.bind_map]
  unfold override?
  congr 1
  funext tables
  exact Table.find?_ofList _ _

end Splittable
