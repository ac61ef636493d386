import Splittable.Settings.Basic
import Splittable.Toml.Document

/-!
# The settings file

A TOML file with two tables: `settings` for the settings, and `overrides` for what is passed on to
the format library, values that are no strings as the text they are written with.  Other tables
and names are passed over; a value of the wrong kind spoils the whole file.

* `SettingsFile.name`     where the file is looked for;
* `Layer.ofToml?`         the layer of a document;
* `SettingsFile.parse`    the layer of a text.
-/

namespace Splittable

namespace SettingsFile

open Toml (Value)

def name : String := ".splitsrc.toml"

/-! ## kinds of values -/

def text? : Value → Option String
  | .text s => some s
  | _ => none

def boolean? : Value → Option Bool
  | .boolean b => some b
  | _ => none

def word? : Value → Option UInt64
  | .integer n => if 0 ≤ n ∧ n < UInt64.size then some n.toNat.toUInt64 else none
  | _ => none

def count? (v : Value) : Option Nat := (word? v).map UInt64.toNat

def typeTag? (v : Value) : Option TypeTag := (text? v).map TypeTag.ofName

/-- An order stands as its name, or as a table whose only entry is that name with nothing in it. -/
def order? : Value → Option OrderName
  | .text s => OrderName.ofName? s
  | .table [(name, .table [])] => OrderName.ofName? name
  | .table [(name, .array [])] => OrderName.ofName? name
  | _ => none

/-- the name under which the text of a date stands where a table is expected -/
def dateKey : String := "$__toml_private_datetime"

/-- The entries of a table; a date counts as a table of one entry. -/
def entries? : Value → Option (List (String × Value))
  | .table entries => some entries
  | .moment m => some [(dateKey, .text m.render)]
  | _ => none

/-- an entry of a table, which may be absent -/
def entry? (f : Value → Option α) (name : String) (entries : List (String × Value)) :
    Option (Option α) :=
  match entries.find? (·.1 == name) with
  | none => some none
  | some (_, v) => (f v).map some

/-! ## overrides -/

/-- integers that an override can hold -/
def isOverrideInteger (n : Int) : Bool := -0x8000000000000000 ≤ n && n < 0x8000000000000000

mutual

/-- every integer in a value can be held -/
def isOverride : Value → Bool
  | .integer n => isOverrideInteger n
  | .array items => areOverrides items
  | .table entries => entriesAreOverrides entries
  | _ => true

def areOverrides : List Value → Bool
  | [] => true
  | item :: rest => isOverride item && areOverrides rest

def entriesAreOverrides : List (String × Value) → Bool
  | [] => true
  | (_, v) :: rest => isOverride v && entriesAreOverrides rest

end

/-- a string as it is, another value as it is written -/
def overrideText? (v : Value) : Option String :=
  if isOverride v then
    match v with
    | .text s => some s
    | v => some v.inline
  else none

def overrides? (v : Value) : Option Overrides := do
  let entries ← (← entries? v).mapM fun (key, v) => return (key, ← overrideText? v)
  return .ofList entries

/-! ## the layer -/

/-- the settings in the order in which an array gives them -/
def settingNames : List String :=
  ["format", "key_type", "value_type", "bundle_size", "min_bundle_size", "order", "seed",
    "suppress_remote", "threads", "verbose"]

/-- The settings by their names.  An array that has all of them gives them by position. -/
def settingEntries? : Value → Option (List (String × Value))
  | .array items =>
    if settingNames.length ≤ items.length then some (settingNames.zip items) else none
  | v => entries? v

def settings? (v : Value) : Option Layer := do
  let entries ← settingEntries? v
  return {
    format := ← entry? text? "format" entries
    keyType := ← entry? typeTag? "key_type" entries
    valueType := ← entry? typeTag? "value_type" entries
    bundleSize := ← entry? word? "bundle_size" entries
    minBundleSize := ← entry? word? "min_bundle_size" entries
    order := ← entry? order? "order" entries
    seed := ← entry? word? "seed" entries
    suppressRemote := ← entry? boolean? "suppress_remote" entries
    threads := ← entry? count? "threads" entries
    verbose := ← entry? boolean? "verbose" entries }

end SettingsFile

def Layer.ofToml? (document : List (String × Toml.Value)) : Option Layer := do
  let layer ← SettingsFile.entry? SettingsFile.settings? "settings" document
  let overrides ← SettingsFile.entry? SettingsFile.overrides? "overrides" document
  return { layer.getD {} with overrides := overrides.getD ∅ }

def SettingsFile.parse (text : String) : Option Layer := do Layer.ofToml? (← Toml.parse text)

end Splittable
