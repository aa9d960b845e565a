import Interconnect.Range.Algebra

/-!
# Rebased ranges

A target behind a router has addresses of its own.  A rebase says which of them the router shows and
where, and so turns a range of the target's addresses into one of the router's.

## Main Definitions

* `Rebase` — the addresses shown and the place of the first of them
* `Rebase.image` — the router's addresses for a range of the target's
-/

namespace Interconnect

/-- **The addresses of a target that a router shows,** and where it shows them. -/
structure Rebase where
  /-- The addresses of the target that are shown. -/
  visible : AddressRange
  /-- The address of the router that stands for the first of them. -/
  base : UInt64
deriving DecidableEq

namespace Rebase

/-- **The router's addresses for a range of the target's.**  There are none if no address of the
range is shown, or if its place would lie outside the address space. -/
def image (r : Rebase) (range : AddressRange) : Option AddressRange := do
  let part ← r.visible.intersect range
  let distance ← (part.shiftDown r.visible.start).toOption
  (distance.shiftUp r.base).toOption

end Rebase

end Interconnect
