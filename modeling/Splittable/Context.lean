import Splittable.Library
import Splittable.LineText.Format
import Splittable.Split.Handle
import Splittable.Split.Order

/-!
# Contexts

What a source needs from where it is used: the format libraries and split decoders that are known
there, how splits are planned, and the flag that interrupts reading.

* `Context`            the parts;
* `Context.standard`   the text format, the file splits and the default sizes.
-/

namespace Splittable

structure Context (ρ ε : Type) where
  formats : Formats ρ ε
  decoders : Decoders ε
  /-- sizes are reported as 0 without looking at the resource -/
  suppressListing : Bool
  /-- no bundle is planned smaller than this -/
  minBundleSize : UInt64
  order : Order
  interrupt : Flag

namespace Context

/-- 100 MiB -/
def defaultMinBundleSize : UInt64 := 100 * 1024 * 1024

def standard (ρ ε : Type) [Ratio ρ] (interrupt : Flag) : Context ρ ε where
  formats := (∅ : Formats ρ ε).register (Library.text ρ ε)
  decoders := .builtin
  suppressListing := false
  minBundleSize := defaultMinBundleSize
  order := .shuffle
  interrupt := interrupt

variable {ρ ε : Type}

/-- the size wanted, raised to the smallest size allowed -/
def bundleSize (context : Context ρ ε) (desired : UInt64) : UInt64 :=
  max desired context.minBundleSize

end Context

end Splittable
