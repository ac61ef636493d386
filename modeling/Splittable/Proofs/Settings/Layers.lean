import Splittable.Settings.Resolve

/-!
# Settings one by one

A setting is a name with a type of values.  What a layer says of a setting is an optional value,
and to put a layer over some settings is to prefer, setting by setting, what the layer says.

* `Setting`                        the settings that have one value each;
* `Setting.get`, `mention`         its value, and what a layer says of it;
* `Layer.ofMentions`               the layer that says given things;
* `Setting.get_apply`              one layer put over some settings;
* `Setting.inEnvironment`          what the environment says;
* `Setting.get_ofLayers`, `Overrides.find?_ofLayers`   three layers put over the defaults.
-/

namespace Splittable

/-- the settings that have one value each; the overrides have one for each of their keys -/
inductive Setting
  | format
  | keyType
  | valueType
  | bundleSize
  | minBundleSize
  | order
  | seed
  | suppressRemote
  | threads
  | verbose
deriving DecidableEq, Repr

namespace Setting

def all : List Setting :=
  [.format, .keyType, .valueType, .bundleSize, .minBundleSize, .order, .seed, .suppressRemote,
    .threads, .verbose]

theorem mem_all (s : Setting) : s ∈ all := by
  cases s <;> decide

abbrev Value : Setting → Type
  | .format => String
  | .keyType | .valueType => TypeTag
  | .bundleSize | .minBundleSize | .seed => UInt64
  | .order => OrderName
  | .suppressRemote | .verbose => Bool
  | .threads => Nat

/-- the value of a setting; a seed and a number of threads may be absent -/
def get (settings : Settings) : (s : Setting) → Option s.Value
  | .format => some settings.format
  | .keyType => some settings.keyType
  | .valueType => some settings.valueType
  | .bundleSize => some settings.bundleSize
  | .minBundleSize => some settings.minBundleSize
  | .order => some settings.order
  | .seed => settings.seed
  | .suppressRemote => some settings.suppressRemote
  | .threads => settings.threads
  | .verbose => some settings.verbose

/-- what a layer says of a setting -/
def mention (layer : Layer) : (s : Setting) → Option s.Value
  | .format => layer.format
  | .keyType => layer.keyType
  | .valueType => layer.valueType
  | .bundleSize => layer.bundleSize
  | .minBundleSize => layer.minBundleSize
  | .order => layer.order
  | .seed => layer.seed
  | .suppressRemote => layer.suppressRemote
  | .threads => layer.threads
  | .verbose => layer.verbose

end Setting

/-- the layer that says given things -/
def Layer.ofMentions (mention : (s : Setting) → Option s.Value) (overrides : Overrides) :
    Layer where
  format := mention .format
  keyType := mention .keyType
  valueType := mention .valueType
  overrides := overrides
  bundleSize := mention .bundleSize
  minBundleSize := mention .minBundleSize
  order := mention .order
  seed := mention .seed
  suppressRemote := mention .suppressRemote
  threads := mention .threads
  verbose := mention .verbose

namespace Setting

theorem mention_ofMentions (f : (s : Setting) → Option s.Value) (overrides : Overrides)
    (s : Setting) : mention (.ofMentions f overrides) s = f s := by
  cases s <;> rfl

end Setting

/-- The environment says whether remote resources are left alone, if this is set to a switch. -/
theorem Environment.layer_fst (env : Environment) :
    env.layer.1 = { suppressRemote := (env.find? suppressRemoteKey).bind switch? } := by
  unfold layer
  cases env.find? suppressRemoteKey with
  | none => rfl
  | some text =>
    rw [Option.bind_some]
    cases hswitch : switch? text <;> simp only [hswitch]

namespace Setting

/-! ## putting layers over settings -/

/-- **A layer counts for the settings it mentions, and the others keep their values.** -/
theorem get_apply (settings : Settings) (layer : Layer) (s : Setting) :
    get (settings.apply layer) s = (mention layer s).or (get settings s) := by
  cases s with
  | seed | threads => rfl
  | format | keyType | valueType | bundleSize | minBundleSize | order | suppressRemote |
    verbose => exact Option.or_some.symm

/-- What the environment says: only whether remote resources are left alone, and this only by a
switch. -/
def inEnvironment (env : Environment) : (s : Setting) → Option s.Value
  | .suppressRemote => (env.find? Environment.suppressRemoteKey).bind Environment.switch?
  | _ => none

theorem mention_environment (env : Environment) (s : Setting) :
    mention env.layer.1 s = inEnvironment env s := by
  rw [env.layer_fst]
  cases s <;> rfl

/-- The highest of the layers that mention a setting counts, else its default. -/
theorem get_ofLayers (file : Option Layer) (environment commandLine : Layer) (s : Setting) :
    get (.ofLayers file environment commandLine) s =
      (mention commandLine s).or
        ((mention environment s).or ((file.bind (mention · s)).or (get .default s))) := by
  have hfile : mention (file.getD {}) s = file.bind (mention · s) := by
    cases file with
    | none => cases s <;> rfl
    | some layer => rfl
  unfold Settings.ofLayers
  rw [get_apply, get_apply, get_apply, hfile]

end Setting

/-- An override has the text of the highest layer that has its key. -/
theorem Overrides.find?_ofLayers (file : Option Layer) (env : Environment) (commandLine : Layer)
    (key : String) :
    (Settings.ofLayers file env.layer.1 commandLine).overrides.find? key =
      (commandLine.overrides.find? key).or (file.bind (·.overrides.find? key)) := by
  have hfile : (file.getD {}).overrides.find? key = file.bind (·.overrides.find? key) := by
    cases file <;> rfl
  show (((Settings.default.overrides.extend (file.getD {}).overrides.entries).extend
    env.layer.1.overrides.entries).extend commandLine.overrides.entries).find? key = _
  rw [Table.find?_extend_entries, Table.find?_extend_entries, Table.find?_extend_entries,
    env.layer_fst, hfile]
  show _ = (commandLine.overrides.find? key).or _
  congr 1
  exact Option.or_none

end Splittable
