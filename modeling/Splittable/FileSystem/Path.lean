/-!
# Paths

A path is a text in which `/` separates names.

* `Path.pieces`       the names between the separators, empty ones included;
* `Path.components`   what two spellings of one path have in common, in the order of sorting;
* `Path.join`         a name below a directory.
-/

namespace Splittable.Path

/-- the pieces between the occurrences of a separator; there is one more than separators -/
def splitAt (separator : Char) : List Char → List (List Char)
  | [] => [[]]
  | c :: cs =>
    if c = separator then [] :: splitAt separator cs
    else
      match splitAt separator cs with
      | [] => [[c]]
      | piece :: rest => (c :: piece) :: rest

def pieces (path : String) : List String := (splitAt '/' path.toList).map String.ofList

def isAbsolute (path : String) : Bool := path.toList.head? == some '/'

/-- One step of a path.  In the order of sorting the root comes first and names come last. -/
inductive Component
  | root
  | current
  | parent
  | name (name : String)
deriving DecidableEq, Repr

/-- the steps after the first piece: doubled separators and single dots say nothing -/
def laterComponents (pieces : List String) : List Component :=
  (pieces.filter fun piece => piece != "" && piece != ".").map fun piece =>
    if piece = ".." then .parent else .name piece

/-- A single dot counts only where the path starts with it. -/
def components (path : String) : List Component :=
  let ps := pieces path
  if isAbsolute path then .root :: laterComponents ps
  else if ps.head? = some "." then .current :: laterComponents ps
  else laterComponents ps

def Component.rank : Component → Nat
  | .root => 0
  | .current => 1
  | .parent => 2
  | .name _ => 3

/-- names are compared by their characters, other steps by their rank -/
def Component.lt : Component → Component → Bool
  | .name a, .name b => a < b
  | a, b => a.rank < b.rank

/-- the order by components: the first difference decides, and a path comes before those below
it -/
def componentsLt : List Component → List Component → Bool
  | _, [] => false
  | [], _ :: _ => true
  | a :: as, b :: bs => a.lt b || (a == b && componentsLt as bs)

/-- not after: the order in which listings are sorted -/
def le (a b : String) : Bool := !componentsLt (components b) (components a)

/-- the same steps -/
def same (a b : String) : Bool := components a == components b

/-- A separator is added where the directory does not end with one. -/
def join (directory name : String) : String :=
  if directory.toList.getLast? = some '/' then directory ++ name else directory ++ "/" ++ name

end Splittable.Path
