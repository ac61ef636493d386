import Splittable.Command.Run
import Splittable.Proofs.Command.Assignments
import Splittable.Proofs.Settings.File

/-!
# The settings of a command

Each setting has the value that the highest of the layers says that says one: the command line, the
environment, the file, and at last the default.  An override has the text of its last definition on
the command line, else that of the file.

* `Setting.get_settings`, `Overrides.find?_settings`   the settings of an invocation;
* `Setting.get_of_parse`, `Overrides.find?_of_parse`   those of a command line;
* `Setting.ToldAlike`              two commands that are told the same of a setting;
* `Command.settings_of_layers`     the highest layer counts, setting by setting.
-/

namespace Splittable

variable {ε : Type}

open Invocation (assignments definitions)

/-- The settings of an invocation. -/
theorem Setting.get_settings (machine : Machine) (invocation : Invocation) (w : World ε)
    (s : Setting) :
    s.get (Command.settings machine invocation w).1 =
      (invocation.stated s).or ((s.inEnvironment (machine.environment.withFile w.files)).or
        ((s.inFile w.files).or (s.get .default))) := by
  rw [← s.mention_environment, ← s.mention_load]
  have hlayers := s.get_ofLayers (SettingsFile.load w.files).1
    (machine.environment.withFile w.files).layer.1 invocation.layer
  cases s with
  | threads =>
    -- the number of threads of the command line stands beside the layer of the command line
    have hthreads := congrArg (Option.or invocation.threads) hlayers
    exact hthreads.trans Option.or_assoc.symm
  | format | keyType | valueType | bundleSize | minBundleSize | order | seed | suppressRemote |
    verbose => exact hlayers

theorem Overrides.find?_settings (machine : Machine) (invocation : Invocation) (w : World ε)
    (key : String) :
    (Command.settings machine invocation w).1.overrides.find? key =
      (invocation.layer.overrides.find? key).or (SettingsFile.override? w.files key) := by
  rw [← SettingsFile.find?_load]
  exact Overrides.find?_ofLayers (SettingsFile.load w.files).1
    (machine.environment.withFile w.files) invocation.layer key

section

variable {words : List String} {invocation : Invocation}

theorem Setting.get_of_parse (h : Invocation.parse words = .ok invocation) (machine : Machine)
    (w : World ε) (s : Setting) :
    s.get (Command.settings machine invocation w).1 =
      (s.assigned (assignments words)).or
        ((s.inEnvironment (machine.environment.withFile w.files)).or
          ((s.inFile w.files).or (s.get .default))) := by
  obtain ⟨verb, htakes⟩ := Invocation.takes_of_parse h
  have hstart : (Invocation.ofVerb verb).stated s = none := by
    cases s <;> rfl
  rw [s.get_settings, htakes.stated, hstart, Option.or_none]

theorem Overrides.find?_of_parse (h : Invocation.parse words = .ok invocation)
    (machine : Machine) (w : World ε) (key : String) :
    (Command.settings machine invocation w).1.overrides.find? key =
      ((definitions (assignments words)).reverse.lookup key).or
        (SettingsFile.override? w.files key) := by
  obtain ⟨verb, htakes⟩ := Invocation.takes_of_parse h
  have hstart : (Invocation.ofVerb verb).layer.overrides.find? key = none := rfl
  rw [Overrides.find?_settings, htakes.overrides, hstart, Option.or_none]

end

/-- Two commands are told the same of a setting, by each of their layers. -/
structure Setting.ToldAlike (s : Setting) (words words' : List String)
    (environment environment' : Environment) (files files' : FileSystem) : Prop where
  commandLine : s.assigned (assignments words) = s.assigned (assignments words')
  environment : s.inEnvironment environment = s.inEnvironment environment'
  file : s.inFile files = s.inFile files'

namespace Command

/-- **Each setting has the value of the highest layer that says something of it**, and each key of
the overrides the text of its last definition, else that of the file.  No layer has a say in any
other setting: commands that are told the same of a setting have the same value for it. -/
theorem settings_of_layers {words : List String} {invocation : Invocation}
    (h : Invocation.parse words = .ok invocation) (machine : Machine) (w : World ε) :
    (∀ s : Setting, s.get (settings machine invocation w).1 =
      (s.assigned (assignments words)).or
        ((s.inEnvironment (machine.environment.withFile w.files)).or
          ((s.inFile w.files).or (s.get .default)))) ∧
    (∀ key, (settings machine invocation w).1.overrides.find? key =
      ((definitions (assignments words)).reverse.lookup key).or
        (SettingsFile.override? w.files key)) ∧
    ∀ (words' : List String) (invocation' : Invocation) (machine' : Machine) (w' : World ε)
      (s : Setting), Invocation.parse words' = .ok invocation' →
      s.ToldAlike words words' (machine.environment.withFile w.files)
        (machine'.environment.withFile w'.files) w.files w'.files →
      s.get (settings machine invocation w).1 = s.get (settings machine' invocation' w').1 := by
  refine ⟨fun s => s.get_of_parse h machine w, fun key => Overrides.find?_of_parse h machine w key,
    fun words' invocation' machine' w' s h' halike => ?_⟩
  rw [s.get_of_parse h, s.get_of_parse h', halike.commandLine, halike.environment, halike.file]

/-! ## a command in a directory with a settings file -/

def deskText : String := "[settings]\nseed=7\nthreads=2\n[overrides]\nk=1\nm=2"

/-- a directory with a settings file alone -/
def desk : FileSystem :=
  ⟨#[.directory 0 (.ofList [(SettingsFile.name, 1)]), .file deskText.toByteArray], 0,
    FileSystem.lastOffset⟩

def deskWorld : World Unit := ⟨desk, .empty, [], fun _ => 0, 0, ()⟩

def deskMachine : Machine := ⟨.ofList [(Environment.suppressRemoteKey, "yes")], ⟨1, 1⟩⟩

def deskWords : List String :=
  ["read", "/d", "-t", "3", "--min-bundle-size=20", "-Dk=a", "-D", "k=b", "--verbose"]

theorem contents?_desk : SettingsFile.contents? desk = some deskText := by
  have hsteps : FileSystem.steps SettingsFile.name = [SettingsFile.name] := by decide
  have hresolve : desk.resolve SettingsFile.name = .ok 1 := by
    unfold FileSystem.resolve FileSystem.locate
    rw [if_neg (by decide), if_neg (by decide), if_neg (by decide), hsteps]
    unfold FileSystem.walkFrom
    unfold FileSystem.walkFrom
    rfl
  have hdecode : (Utf8.decode deskText.toByteArray.data.toList).toOption = some deskText := by
    decide +kernel
  unfold SettingsFile.contents? FileSystem.read
  rw [hresolve]
  exact hdecode

/-- There is no file with more variables. -/
theorem withFile_desk : deskMachine.environment.withFile desk = deskMachine.environment := by
  have hsteps : FileSystem.steps Environment.fileName = [Environment.fileName] := by decide
  have hresolve : desk.resolve Environment.fileName = .error .noEntry := by
    unfold FileSystem.resolve FileSystem.locate
    rw [if_neg (by decide), if_neg (by decide), if_neg (by decide), hsteps]
    unfold FileSystem.walkFrom
    rfl
  unfold Environment.withFile FileSystem.read
  rw [hresolve]
  rfl

/-- The command line has the number of threads and the text for one key, the environment whether
remote resources are left alone, and the file the seed and the text for the other key. -/
theorem settings_of_layers_desk :
    ∃ invocation, Invocation.parse deskWords = .ok invocation ∧
      let settings := (settings deskMachine invocation deskWorld).1
      settings.threads = some 3 ∧ settings.minBundleSize = 20 ∧ settings.verbose = true ∧
        settings.suppressRemote = true ∧ settings.seed = some 7 ∧
        settings.bundleSize = Settings.defaultBundleSize ∧
        settings.overrides.find? "k" = some "b" ∧ settings.overrides.find? "m" = some "2" := by
  have hparse : (Invocation.parse deskWords).isOk = true := by decide +kernel
  cases h : Invocation.parse deskWords with
  | error refusal =>
    rw [h] at hparse
    cases hparse
  | ok invocation =>
    obtain ⟨hget, hoverride, -⟩ := settings_of_layers h deskMachine deskWorld
    have hfiles : deskWorld.files = desk := rfl
    unfold Setting.inFile SettingsFile.tables? at hget
    unfold SettingsFile.override? SettingsFile.tables? at hoverride
    rw [hfiles, contents?_desk] at hget hoverride
    rw [withFile_desk] at hget
    refine ⟨invocation, rfl, ?_⟩
    generalize (settings deskMachine invocation deskWorld).1 = settings at hget hoverride ⊢
    refine ⟨?_, ?_, ?_, ?_, ?_, ?_, ?_, ?_⟩
    · exact (hget .threads).trans (by decide +kernel)
    · exact Option.some.inj ((hget .minBundleSize).trans (by decide +kernel))
    · exact Option.some.inj ((hget .verbose).trans (by decide +kernel))
    · exact Option.some.inj ((hget .suppressRemote).trans (by decide +kernel))
    · exact (hget .seed).trans (by decide +kernel)
    · exact Option.some.inj ((hget .bundleSize).trans (by decide +kernel))
    · exact (hoverride "k").trans (by decide +kernel)
    · exact (hoverride "m").trans (by decide +kernel)

end Command

end Splittable
