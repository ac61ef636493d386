import Splittable.Split.FileSplit

/-!
# Split descriptors

A unit of work of some format library.  A library knows its own splits again; everyone else sees
only a tag, a size, a form for messages and a form for shipping.

* `CustomSplit`   what a caller's own library gives as a split;
* `Descriptor`    a file split or a custom split;
* `Descriptor.tag`, `length`, `shown`, `payload`   what everyone sees.
-/

namespace Splittable

structure CustomSplit where
  tag : String
  /-- by what the library that made the split knows it -/
  id : Nat
  length : UInt64
  shown : String
  /-- the shipped form, or why there is none -/
  payload : Except Fault Bytes

inductive Descriptor
  | file (split : FileSplit)
  | custom (split : CustomSplit)

namespace Descriptor

/-- the name under which the decoder of such splits is registered -/
def tag : Descriptor → String
  | .file _ => FileSplit.tag
  | .custom split => split.tag

def length : Descriptor → UInt64
  | .file split => split.length
  | .custom split => split.length

def shown : Descriptor → String
  | .file split => split.shown
  | .custom split => split.shown

def payload : Descriptor → Except Fault Bytes
  | .file split => split.payload
  | .custom split => split.payload

end Descriptor

end Splittable
