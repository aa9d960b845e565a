import Interconnect.Access.Basic
import Interconnect.Range.Algebra
import Interconnect.Storage.Basic

/-!
# Direct windows

A direct window lets an initiator reach the storage behind a range of addresses without going
through the interconnect.  It says which addresses, where in host storage they lie, and which
commands may use it.

## Main Definitions

* `DirectWindow` — a range, the host pointer for its first address, and a permission
* `pointerAt` — the host pointer for any address of the window
* `restrict`, `dropBelow`, `shiftUp`, `shiftDown` — narrower windows and windows elsewhere
* `mergeable`, `merge` — two windows onto one stretch of storage as one

### The host pointer of an address

`pointerFor` gives the pointer that a window has for an address whether or not the address lies in
it.  Narrowing and merging keep that function as it is on the addresses that remain, and moving a
window moves it along; two windows are mergeable when they agree on it.
-/

namespace Interconnect

/-- **A range of addresses that can be reached through host storage.** -/
@[ext] structure DirectWindow where
  /-- The addresses covered. -/
  range : AddressRange
  /-- The place in host storage that backs the first of them. -/
  pointer : HostPointer
  /-- The commands that may use the window. -/
  permission : Permission
deriving DecidableEq

namespace DirectWindow

/-- The first address. -/
def start (w : DirectWindow) : UInt64 := w.range.start

/-- The last address. -/
def last (w : DirectWindow) : UInt64 := w.range.last

/-- Whether the window covers no address. -/
def isEmpty (w : DirectWindow) : Bool := w.range.isEmpty

/-- The host pointer for an address, at the same distance from the window's pointer as the address
is from its start. -/
def pointerFor (w : DirectWindow) (a : UInt64) : HostPointer :=
  w.pointer.advance (a - w.range.start)

/-- The host pointer that backs `a`, if the window covers it. -/
def pointerAt (w : DirectWindow) (a : UInt64) : Option HostPointer :=
  if a ∈ w.range then some (w.pointerFor a) else none

/-! ### Narrowing -/

/-- The part of the window inside `range`. -/
def restrict (w : DirectWindow) (range : AddressRange) : Option DirectWindow :=
  (w.range.intersect range).map fun part =>
    { w with range := part, pointer := w.pointerFor part.start }

/-- **The window without the addresses below `start`.**  The new start may be one past the end,
which leaves the window empty; one outside the window is refused. -/
def dropBelow (w : DirectWindow) (start : UInt64) : Option DirectWindow :=
  if start < w.range.start then none
  else
    match AddressRange.ofBounds start w.range.last with
    | .ok range => some { w with range := range, pointer := w.pointerFor start }
    | .error _ => none

/-! ### Moving -/

/-- The same storage seen `offset` addresses further up. -/
def shiftUp (w : DirectWindow) (offset : UInt64) : Except RangeError DirectWindow :=
  (w.range.shiftUp offset).map fun range => { w with range := range }

/-- The same storage seen `offset` addresses further down. -/
def shiftDown (w : DirectWindow) (offset : UInt64) : Except RangeError DirectWindow :=
  (w.range.shiftDown offset).map fun range => { w with range := range }

/-! ### Merging -/

/-- **Whether two windows are parts of one.**  They have the same permission, neither is empty, they
overlap or touch, and they map their addresses onto one stretch of storage. -/
def mergeable (v w : DirectWindow) : Bool :=
  v.permission = w.permission && !v.isEmpty && !w.isEmpty
    && (v.range.overlaps w.range || v.range.connects w.range)
    && v.pointerFor w.range.start = w.pointer

/-- The window over everything from the lower start to the higher end. -/
def merge (v w : DirectWindow) : DirectWindow where
  range := v.range.hull w.range
  pointer := if w.range.start < v.range.start then w.pointer else v.pointer
  permission := v.permission

/-! ### The pointer of an address -/

@[simp] theorem pointerFor_start (w : DirectWindow) : w.pointerFor w.range.start = w.pointer := by
  simp [pointerFor]

/-- A narrower window has the same pointer for every address. -/
theorem pointerFor_of_restrict_eq_some {w v : DirectWindow} {range : AddressRange}
    (h : w.restrict range = some v) (a : UInt64) : v.pointerFor a = w.pointerFor a := by
  obtain ⟨part, -, rfl⟩ := Option.map_eq_some_iff.1 h
  simp only [pointerFor, HostPointer.advance_advance]
  congr 1
  grind

theorem mem_of_restrict_eq_some {w v : DirectWindow} {range : AddressRange}
    (h : w.restrict range = some v) {a : UInt64} : a ∈ v.range ↔ a ∈ w.range ∧ a ∈ range := by
  obtain ⟨part, found, rfl⟩ := Option.map_eq_some_iff.1 h
  exact AddressRange.mem_of_intersect_eq_some found

theorem permission_of_restrict_eq_some {w v : DirectWindow} {range : AddressRange}
    (h : w.restrict range = some v) : v.permission = w.permission := by
  obtain ⟨part, -, rfl⟩ := Option.map_eq_some_iff.1 h
  rfl

end DirectWindow

end Interconnect
