import Splittable.Ratio
import Splittable.Resource.Listing
import Splittable.Split.FileSplit

/-!
# Carving files into splits

* `SplitSize`, `SplitSize.choose`   the size of splits, from the block size and the bounds asked
  for;
* `carve`   the splits of one file: all of the chosen size but the last, which may be a little
  larger.
-/

namespace Splittable

/-- soft bounds on the size of splits -/
structure SplitSize where
  least : UInt64
  most : UInt64
deriving DecidableEq, Repr

def SplitSize.exact (bytes : UInt64) : SplitSize := ⟨bytes, bytes⟩

/-- The block size moved between the bounds, the lower one first; no split size is zero. -/
def SplitSize.choose (block : UInt64) (size : SplitSize) : UInt64 :=
  max (max size.least (min size.most block)) 1

/-- what is left of a file is more than a last split may hold -/
def exceedsSlop (ρ : Type) [Ratio ρ] (remaining size : UInt64) : Bool :=
  Ratio.below (Ratio.slop : ρ) (Ratio.ofNat remaining.toNat / Ratio.ofNat size.toNat)

/-- The splits of the last `remaining` bytes of a file. -/
def carveFrom (ρ : Type) [Ratio ρ] (file : FileStatus) (size remaining : UInt64) :
    List FileSplit :=
  if _h : exceedsSlop ρ remaining size = true ∧ 0 < size ∧ size ≤ remaining then
    ⟨file.path, file.length - remaining, size⟩ :: carveFrom ρ file size (remaining - size)
  else if remaining = 0 then []
  else [⟨file.path, file.length - remaining, remaining⟩]
termination_by remaining.toNat
decreasing_by
  obtain ⟨_, hpos, hle⟩ := _h
  rw [UInt64.toNat_sub_of_le _ _ hle]
  have := UInt64.lt_iff_toNat_lt.1 hpos
  have := UInt64.le_iff_toNat_le.1 hle
  simp at *
  omega

/-- The splits of a file.  An empty file has one split, which is empty. -/
def carve (ρ : Type) [Ratio ρ] (file : FileStatus) (size : UInt64) : List FileSplit :=
  if file.length = 0 then [⟨file.path, 0, 0⟩] else carveFrom ρ file size file.length

end Splittable
