import Splittable.Command.Invocation

/-!
# Reading command lines

The first word names the command; parameters and the resource follow in any order.  A parameter
is taken in when the next one begins or the line ends, so a later word that is not known at all is
reported before a value that is wrong.

* `Arguments`          a command line up to some word;
* `Arguments.take`     a parameter with its value;
* `Arguments.next`     one word;
* `Arguments.scan`     the words after the command;
* `Invocation.parse`   the invocation of a command line.
-/

namespace Splittable

/-- A command line up to some word. -/
structure Arguments where
  invocation : Invocation
  given : List Parameter
  /-- a parameter that is not taken in yet, and its value, if that was there -/
  pending : Option (Parameter × Option String)

namespace Arguments

/-- what a word after one or two dashes may name -/
inductive Name
  | help
  | parameter (parameter : Parameter)
deriving DecidableEq, Repr

def ofName? (verb : Verb) (name : String) : Option Name :=
  if name = "help" then some .help
  else (verb.parameters.find? (·.name? == some name)).map .parameter

def ofLetter? (verb : Verb) (letter : Char) : Option Name :=
  if letter = 'h' then some .help
  else (verb.parameters.find? (·.letter? == some letter)).map .parameter

/-- Take in a parameter.  That its value is missing counts more than that it was given before, and
this more than that its value is wrong. -/
def take (arguments : Arguments) (parameter : Parameter) (value : Option String) :
    Except Refusal Arguments :=
  if value.isNone && !parameter.isSwitch then .error .badValue
  else if !parameter.mayRepeat && arguments.given.contains parameter then .error .repeated
  else
    match arguments.invocation.store parameter (value.getD "true") with
    | .error e => .error e
    | .ok invocation => .ok { arguments with invocation, given := parameter :: arguments.given }

/-- Take in the pending parameter, if there is one. -/
def settle (arguments : Arguments) : Except Refusal Arguments :=
  match arguments.pending with
  | none => .ok arguments
  | some (parameter, value) => { arguments with pending := none }.take parameter value

/-- Begin a parameter, which is complete where its value is attached to it. -/
def begin (arguments : Arguments) (parameter : Parameter) (attached : Option String) :
    Except Refusal Arguments := do
  let arguments ← arguments.settle
  match attached with
  | some value => arguments.take parameter (some value)
  | none => return { arguments with pending := some (parameter, none) }

/-- The resource, of which there is one. -/
def position (arguments : Arguments) (word : String) : Except Refusal Arguments :=
  match arguments.invocation.resource with
  | some _ => .error .unknownArgument
  | none => do
    let arguments ← arguments.settle
    return { arguments with
      invocation := { arguments.invocation with resource := some word } }

/-! ## the forms of words -/

/-- a name after two dashes, and the value after the first `=` behind it -/
def longForm? (word : String) : Option (String × Option String) :=
  match word.toList with
  | '-' :: '-' :: c :: rest =>
    let name := (c :: rest).takeWhile (· != '=')
    match (c :: rest).drop name.length with
    | _ :: value => some (String.ofList name, some (String.ofList value))
    | [] => some (String.ofList name, none)
  | _ => none

/-- a letter after one dash, and the value behind it, with or without a `=` -/
def shortForm? (word : String) : Option (Char × Option String) :=
  match word.toList with
  | '-' :: '-' :: _ => none
  | ['-', c] => some (c, none)
  | '-' :: c :: '=' :: value => some (c, some (String.ofList value))
  | '-' :: c :: value => some (c, some (String.ofList value))
  | _ => none

def long (arguments : Arguments) (name : String) (attached : Option String) :
    Except Refusal Arguments :=
  match ofName? arguments.invocation.verb name with
  | none => .error .unknownArgument
  | some (.parameter parameter) => arguments.begin parameter attached
  | some .help =>
    if attached.isSome then .error .surplusValue
    else do
      let _ ← arguments.settle
      throw .help

def short (arguments : Arguments) (letter : Char) (attached : Option String) :
    Except Refusal Arguments :=
  match ofLetter? arguments.invocation.verb letter with
  | none => .error .unknownArgument
  | some (.parameter parameter) => arguments.begin parameter attached
  | some .help => do
    let _ ← arguments.settle
    throw .help

/-- a word without dashes: the value that is waited for, or the resource -/
def word (arguments : Arguments) (word : String) : Except Refusal Arguments :=
  match arguments.pending with
  | some (parameter, none) =>
    .ok { arguments with pending := some (parameter, some word) }
  | _ => arguments.position word

/-- one word, other than two dashes alone -/
def next (arguments : Arguments) (w : String) : Except Refusal Arguments :=
  match longForm? w, shortForm? w with
  | some (name, attached), _ => arguments.long name attached
  | none, some (letter, attached) => arguments.short letter attached
  | none, none => arguments.word w

/-- Two dashes alone end the parameters: every word after them is the resource. -/
def scan (onlyWords : Bool) (arguments : Arguments) : List String → Except Refusal Arguments
  | [] => arguments.settle
  | w :: rest =>
    if onlyWords then
      match arguments.position w with
      | .error e => .error e
      | .ok arguments => scan true arguments rest
    else if w = "--" then scan true arguments rest
    else
      match arguments.next w with
      | .error e => .error e
      | .ok arguments => scan false arguments rest

end Arguments

namespace Invocation

def helpWord : String := "help"

/-- what the words after the word `help` ask for -/
def parseHelp : List String → Refusal
  | [] => .help
  | [name] =>
    if name = helpWord ∨ (Verb.ofName? name).isSome then .help else .unknownCommand
  | _ => .unknownCommand

/-- what a first word asks for that names no command -/
def refuseFirst (word : String) : Refusal :=
  match Arguments.longForm? word, Arguments.shortForm? word with
  | some (name, attached), _ =>
    if name = helpWord then if attached.isSome then .surplusValue else .help
    else .unknownArgument
  | none, some (letter, _) => if letter = 'h' then .help else .unknownArgument
  | none, none => .unknownCommand

/-- What a command line asks for whose first word is two dashes: no command can follow them. -/
def refuseAfterDashes : List String → Refusal
  | [] => .noCommand
  | name :: _ =>
    if name = helpWord ∨ (Verb.ofName? name).isSome then .unknownArgument else .unknownCommand

def parse : List String → Except Refusal Invocation
  | [] => .error .noCommand
  | first :: rest =>
    match Verb.ofName? first with
    | some verb =>
      (Arguments.scan false ⟨ofVerb verb, [], none⟩ rest).map Arguments.invocation
    | none =>
      if first = helpWord then .error (parseHelp rest)
      else if first = "--" then .error (refuseAfterDashes rest)
      else .error (refuseFirst first)

end Invocation

end Splittable
