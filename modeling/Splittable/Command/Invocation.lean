import Splittable.Settings.Basic

/-!
# Invocations

What a command line asks for: one of three commands, its resource and its parameters.

* `Verb`, `Parameter`   the commands, and the parameters that each of them takes;
* `Invocation`          a command with its parameters;
* `Invocation.store`    the invocation with the value of a parameter;
* `Refusal`             why a command line asks for nothing.
-/

namespace Splittable

inductive Verb
  | size
  | plan
  | read
deriving DecidableEq, Repr

def Verb.name : Verb → String
  | .size => "size"
  | .plan => "plan"
  | .read => "read"

def Verb.all : List Verb := [.size, .plan, .read]

def Verb.ofName? (name : String) : Option Verb := all.find? (·.name == name)

inductive Parameter
  | format
  | keyType
  | valueType
  | define
  | bundleSize
  | minBundleSize
  | order
  | seed
  | suppressRemote
  | verbose
  | output
  | bundles
  | threads
  | count
deriving DecidableEq, Repr

namespace Parameter

def name? : Parameter → Option String
  | .format => some "format"
  | .keyType => some "key-type"
  | .valueType => some "value-type"
  | .define => none
  | .bundleSize => some "bundle-size"
  | .minBundleSize => some "min-bundle-size"
  | .order => some "order"
  | .seed => some "seed"
  | .suppressRemote => some "suppress-remote"
  | .verbose => some "verbose"
  | .output => some "output"
  | .bundles => some "bundles"
  | .threads => some "threads"
  | .count => some "count"

def letter? : Parameter → Option Char
  | .format => some 'F'
  | .define => some 'D'
  | .bundleSize => some 'b'
  | .verbose => some 'v'
  | .output => some 'o'
  | .threads => some 't'
  | .count => some 'c'
  | _ => none

/-- The value may be left out, and is then `true`. -/
def isSwitch : Parameter → Bool
  | .suppressRemote | .verbose | .count => true
  | _ => false

/-- It may be given more than once. -/
def mayRepeat : Parameter → Bool
  | .define => true
  | _ => false

def common : List Parameter :=
  [.format, .keyType, .valueType, .define, .bundleSize, .minBundleSize, .order, .seed,
    .suppressRemote, .verbose]

end Parameter

def Verb.parameters : Verb → List Parameter
  | .size => Parameter.common
  | .plan => Parameter.common ++ [.output]
  | .read => Parameter.common ++ [.bundles, .threads, .count]

/-- why a command line asks for nothing -/
inductive Refusal
  | help
  | noCommand
  | unknownCommand
  | unknownArgument
  | surplusValue
  /-- a parameter is given twice -/
  | repeated
  /-- a value is missing, or is none of those that are allowed -/
  | badValue
  /-- a value that cannot be read -/
  | unreadableValue
deriving DecidableEq, Repr

structure Invocation where
  verb : Verb
  resource : Option String
  layer : Layer
  output : Option String
  /-- the file that holds the bundles to read -/
  bundles : Option String
  threads : Option Nat
  /-- only count the records -/
  count : Option Bool

namespace Invocation

def ofVerb (verb : Verb) : Invocation := ⟨verb, none, {}, none, none, none, none⟩

def word? (value : String) : Except Refusal UInt64 :=
  match Numeral.read? value with
  | .ok n => .ok n
  | .error _ => .error .unreadableValue

def boolean? (value : String) : Except Refusal Bool :=
  if value = "true" then .ok true
  else if value = "false" then .ok false
  else .error .badValue

def path? (value : String) : Except Refusal String :=
  if value.isEmpty then .error .badValue else .ok value

/-- A key and a value with the first `=` between them.  Blanks around the key do not belong to
it. -/
def definition? (value : String) : Except Refusal (String × String) :=
  let cs := value.toList
  let key := cs.takeWhile (· != '=')
  match cs.drop key.length with
  | _ :: rest =>
    let key := Text.trim (String.ofList key)
    if key.isEmpty then .error .unreadableValue else .ok (key, String.ofList rest)
  | [] => .error .unreadableValue

/-- The invocation with the value of a parameter, if it can have that value. -/
def store (invocation : Invocation) (parameter : Parameter) (value : String) :
    Except Refusal Invocation := do
  let layer := invocation.layer
  match parameter with
  | .format => return { invocation with layer := { layer with format := some value } }
  | .keyType =>
    return { invocation with layer := { layer with keyType := some (.ofName value) } }
  | .valueType =>
    return { invocation with layer := { layer with valueType := some (.ofName value) } }
  | .define =>
    let (key, value) ← definition? value
    return { invocation with
      layer := { layer with overrides := layer.overrides.insert key value } }
  | .bundleSize =>
    return { invocation with layer := { layer with bundleSize := some (← word? value) } }
  | .minBundleSize =>
    return { invocation with layer := { layer with minBundleSize := some (← word? value) } }
  | .order =>
    match OrderName.ofName? value with
    | some order => return { invocation with layer := { layer with order := some order } }
    | none => throw .badValue
  | .seed => return { invocation with layer := { layer with seed := some (← word? value) } }
  | .suppressRemote =>
    return { invocation with layer := { layer with suppressRemote := some (← boolean? value) } }
  | .verbose =>
    return { invocation with layer := { layer with verbose := some (← boolean? value) } }
  | .output => return { invocation with output := some (← path? value) }
  | .bundles => return { invocation with bundles := some (← path? value) }
  | .threads => return { invocation with threads := some (← word? value).toNat }
  | .count => return { invocation with count := some (← boolean? value) }

end Invocation

end Splittable
