import Splittable.Context
import Splittable.Source.Basic

/-!
# Settings

What a command reads and how.  Settings come in layers: a file, the environment and the command
line, each of which may leave any of them open.

* `Settings`         all settings, with `Settings.default`;
* `Layer`            some settings;
* `Settings.apply`   the settings with those of a layer in their place;
* `Settings.source`, `context`, `splitOrder`   what commands use.
-/

namespace Splittable

/-- the orders that can be asked for by name -/
inductive OrderName
  | shuffle
  | discovery
deriving DecidableEq, Repr

def OrderName.name : OrderName → String
  | .shuffle => "shuffle"
  | .discovery => "discovery"

def OrderName.ofName? : String → Option OrderName
  | "shuffle" => some .shuffle
  | "discovery" => some .discovery
  | _ => none

structure Settings where
  format : String
  keyType : TypeTag
  valueType : TypeTag
  overrides : Overrides
  bundleSize : UInt64
  minBundleSize : UInt64
  order : OrderName
  seed : Option UInt64
  suppressRemote : Bool
  threads : Option Nat
  verbose : Bool

/-- some settings; an override of a layer counts more than one of the layers below -/
structure Layer where
  format : Option String := none
  keyType : Option TypeTag := none
  valueType : Option TypeTag := none
  overrides : Overrides := ∅
  bundleSize : Option UInt64 := none
  minBundleSize : Option UInt64 := none
  order : Option OrderName := none
  seed : Option UInt64 := none
  suppressRemote : Option Bool := none
  threads : Option Nat := none
  verbose : Option Bool := none

namespace Settings

/-- 64 MiB -/
def defaultBundleSize : UInt64 := 64 * 1024 * 1024

def default : Settings where
  format := "text"
  keyType := .record .long
  valueType := .record .text
  overrides := ∅
  bundleSize := defaultBundleSize
  minBundleSize := Context.defaultMinBundleSize
  order := .shuffle
  seed := none
  suppressRemote := false
  threads := none
  verbose := false

def apply (settings : Settings) (layer : Layer) : Settings where
  format := layer.format.getD settings.format
  keyType := layer.keyType.getD settings.keyType
  valueType := layer.valueType.getD settings.valueType
  overrides := settings.overrides.extend layer.overrides.entries
  bundleSize := layer.bundleSize.getD settings.bundleSize
  minBundleSize := layer.minBundleSize.getD settings.minBundleSize
  order := layer.order.getD settings.order
  seed := layer.seed.or settings.seed
  suppressRemote := layer.suppressRemote.getD settings.suppressRemote
  threads := layer.threads.or settings.threads
  verbose := layer.verbose.getD settings.verbose

/-- A seed makes the shuffle repeatable. -/
def splitOrder (settings : Settings) : Order :=
  match settings.order, settings.seed with
  | .discovery, _ => .discovery
  | .shuffle, some seed => .seeded seed
  | .shuffle, none => .shuffle

def context (ρ ε : Type) [Ratio ρ] (settings : Settings) (interrupt : Flag) : Context ρ ε :=
  { Context.standard ρ ε interrupt with
    suppressListing := settings.suppressRemote
    minBundleSize := settings.minBundleSize
    order := settings.splitOrder }

def source (settings : Settings) (resource : String) : Source :=
  { Source.make resource settings.format settings.keyType settings.valueType with
    overrides := settings.overrides }

end Settings

end Splittable
