import Splittable.Record
import Splittable.Resource.Listing
import Splittable.Split.Carve
import Splittable.Split.Descriptor
import Splittable.World

/-!
# Format libraries

A format library resolves resources to files, computes splits and opens cursors over them.
Sources and readers know a library only through these operations, so a caller may bring one of
its own.

* `Overrides`   the settings that are passed on to a library as they are;
* `Library`     the operations, and the library's own type of cursors;
* `Formats`     libraries by name.
-/

namespace Splittable

abbrev Overrides := Table String

/-- A library measures progress in numbers of type `ρ` and may keep a state of type `ε` in the
world. -/
structure Library (ρ ε : Type) where
  name : String
  Cursor : Type
  /-- every file that a resource stands for -/
  listing : String → Overrides → Act ε (Except Fault (List FileStatus))
  /-- the splits of a resource; without a size the library chooses one -/
  discover : String → Overrides → Option SplitSize → Act ε (Except Fault (List Descriptor))
  openCursor : Descriptor → Overrides → Flag → Act ε (Except Fault Cursor)
  /-- the next record of a cursor, if there is one -/
  next : Cursor → Act ε (Except Fault (Option Pair) × Cursor)
  /-- the fraction of a split that its cursor has read, where it can tell -/
  progress : Cursor → Option ρ
  close : Cursor → Act ε (Except Fault Unit × Cursor)

abbrev Formats (ρ ε : Type) := Table (Library ρ ε)

namespace Formats

variable {ρ ε : Type}

/-- A library takes the place of another one with its name. -/
def register (formats : Formats ρ ε) (library : Library ρ ε) : Formats ρ ε :=
  formats.insert library.name library

def shown (formats : Formats ρ ε) : String :=
  "FormatRegistry \x7b libraries: " ++ Text.listed (formats.names.map Text.quoted) ++ " \x7d"

end Formats

end Splittable
