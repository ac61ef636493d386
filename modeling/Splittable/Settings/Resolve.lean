import Splittable.Settings.DotEnv
import Splittable.Settings.File

/-!
# From the layers to the settings

The settings file comes first, then the environment, then the command line; each counts more than
those before it.

* `SettingsFile.load`     the layer of the file in the working directory;
* `Environment.layer`     the layer of the environment;
* `Settings.resolve`      the settings of a command.
-/

namespace Splittable

variable {ε : Type}

/-- The layer of the settings file.  A file that is missing or is no text says nothing; a
malformed one is logged and says nothing. -/
def SettingsFile.load (files : FileSystem) : Option Layer × List LogEntry :=
  match files.read SettingsFile.name with
  | .error _ => (none, [])
  | .ok bytes =>
    match Utf8.decode bytes.data.toList with
    | .error _ => (none, [])
    | .ok text =>
      match SettingsFile.parse text with
      | some layer => (some layer, [])
      | none => (none, [⟨.warn, s!"{SettingsFile.name} ignored"⟩])

namespace Environment

/-- the variable that says whether remote resources are left alone -/
def suppressRemoteKey : String := "SPLITSRC_SUPPRESS_REMOTE"

def switch? (text : String) : Option Bool :=
  match Text.toAsciiLower (Text.trim text) with
  | "1" | "true" | "yes" | "on" => some true
  | "0" | "false" | "no" | "off" | "" => some false
  | _ => none

/-- A value that is no switch is logged and says nothing. -/
def layer (env : Environment) : Layer × List LogEntry :=
  match env.find? suppressRemoteKey with
  | none => ({}, [])
  | some text =>
    match switch? text with
    | some b => ({ suppressRemote := some b }, [])
    | none =>
      ({}, [⟨.warn, s!"{suppressRemoteKey}={text}: expected true or false, ignoring"⟩])

/-- where the file with more variables is looked for -/
def fileName : String := ".env"

/-- the environment with what the file in the working directory adds -/
def withFile (env : Environment) (files : FileSystem) : Environment :=
  match files.read fileName with
  | .ok bytes => env.load bytes.data.toList
  | .error _ => env

end Environment

def Settings.ofLayers (file : Option Layer) (environment commandLine : Layer) : Settings :=
  ((Settings.default.apply (file.getD {})).apply environment).apply commandLine

/-- The settings of a command in its working directory. -/
def Settings.resolve (env : Environment) (commandLine : Layer) : Act ε Settings := fun w =>
  let (file, fileLog) := SettingsFile.load w.files
  let (environment, log) := (env.withFile w.files).layer
  (.ofLayers file environment commandLine, { w with log := w.log ++ fileLog ++ log })

end Splittable
