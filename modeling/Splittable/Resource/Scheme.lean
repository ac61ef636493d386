import Splittable.Text.Blank

/-!
# Resource identifiers

A resource is a local path or pattern, or a name on a store that a scheme such as `gs://` tells.

* `Resource.scheme?`   the scheme before `://`, if the resource has one;
* `Resource.isRemote`  whether the resource lies on another store;
* `Resource.localPart` the path or pattern of a local resource;
* `Resource.isHidden`  names that no listing returns.
-/

namespace Splittable.Resource

/-- what stands before the first `://`, and what follows it -/
def splitScheme : List Char → Option (List Char × List Char)
  | ':' :: '/' :: '/' :: rest => some ([], rest)
  | c :: rest => (splitScheme rest).map fun (before, after) => (c :: before, after)
  | [] => none

/-- the ASCII letters and digits and the signs `+`, `-` and `.` -/
def isSchemeChar (c : Char) : Bool := c.isAlphanum || c == '+' || c == '-' || c == '.'

def scheme? (resource : String) : Option String :=
  match splitScheme resource.toList with
  | some (scheme, _) =>
    if !scheme.isEmpty && scheme.all isSchemeChar then some (String.ofList scheme) else none
  | none => none

/-- every scheme other than `file`, in whatever letter case, is remote -/
def isRemote (resource : String) : Bool :=
  match scheme? resource with
  | some scheme => Text.toAsciiLower scheme != "file"
  | none => false

/-- Only the scheme `file` in lower case is taken off. -/
def localPart (resource : String) : String :=
  let scheme := "file://".toList
  if scheme.isPrefixOf resource.toList then String.ofList (resource.toList.drop scheme.length)
  else resource

/-- job markers, dot files, and the files that systems leave behind -/
def isHidden (name : String) : Bool :=
  name.toList.head? == some '_' || name.toList.head? == some '.' ||
    name == "Thumbs.db" || name == "ehthumbs.db" || name == "Desktop.ini"

end Splittable.Resource
