import Interconnect.Window.Basic

/-!
# The exclusive monitor

An exclusive read reserves the addresses it reads for its owner.  An exclusive write goes ahead only
if its owner still holds a reservation there, and every write that goes ahead breaks all
reservations that it overlaps, whoever holds them.  A direct window must not cover a reserved
address, because accesses through it pass the monitor by.

## Main Definitions

* `Reservation`, `Monitor` — who has reserved what, in order of reservation
* `Monitor.apply` — the effect of an access, and whether it may go ahead
* `Monitor.carve` — the part of a window that is free of reservations
-/

namespace Interconnect

/-- A range that an owner has reserved. -/
structure Reservation where
  /-- The initiator that reserved it. -/
  owner : Owner
  /-- The addresses reserved. -/
  range : AddressRange
deriving DecidableEq

/-- **The reservations that stand,** in the order in which they were made. -/
structure Monitor where
  /-- The reservations. -/
  reservations : List Reservation
deriving DecidableEq

namespace Monitor

/-- The monitor without reservations. -/
def empty : Monitor := ⟨[]⟩

/-- Adds a reservation; an owner may hold several. -/
def reserve (m : Monitor) (owner : Owner) (range : AddressRange) : Monitor :=
  ⟨m.reservations ++ [⟨owner, range⟩]⟩

/-- Drops the reservations that overlap `range`. -/
def breakRange (m : Monitor) (range : AddressRange) : Monitor :=
  ⟨m.reservations.filter fun r => !r.range.overlaps range⟩

/-- Drops the reservations of one owner. -/
def breakOwner (m : Monitor) (owner : Owner) : Monitor :=
  ⟨m.reservations.filter fun r => r.owner != owner⟩

/-- The number of reservations that a step from `m` to `after` has dropped. -/
def dropped (m after : Monitor) : Nat := m.reservations.length - after.reservations.length

/-- Whether `owner` holds a reservation that overlaps `range`. -/
def holds (m : Monitor) (owner : Owner) (range : AddressRange) : Bool :=
  m.reservations.any fun r => r.owner = owner && r.range.overlaps range

/-- Whether any reservation overlaps `range`. -/
def watches (m : Monitor) (range : AddressRange) : Bool :=
  m.reservations.any fun r => r.range.overlaps range

/-- Whether an access may go ahead: all but an exclusive write without a reservation. -/
def permits (m : Monitor) (access : Access) : Bool :=
  !(access.exclusive && access.command = .write) || m.holds access.owner access.range

/-- **The reservations after an access, or none if it is refused.**  An exclusive read reserves, a
write that goes ahead breaks what it overlaps, and nothing else has an effect. -/
def apply (m : Monitor) (access : Access) : Option Monitor :=
  if m.permits access then
    match access.command with
    | .read => some (if access.exclusive then m.reserve access.owner access.range else m)
    | .write => some (m.breakRange access.range)
    | .ignore => some m
  else none

/-! ### Carving -/

/-- Whether `a` is free of reservations. -/
def isFree (m : Monitor) (a : UInt64) : Bool := m.reservations.all fun r => !r.range.includes a

/-- **The lowest address of `range` that no reservation holds.**  It is the start of the range or
the address right behind a reservation, so only these are looked at. -/
def lowestFree (m : Monitor) (range : AddressRange) : Option UInt64 :=
  let candidates := range.start :: m.reservations.map fun r => r.range.last + 1
  (candidates.filter fun a => range.includes a && m.isFree a).foldl
    (fun best a => match best with
      | none => some a
      | some b => if a < b then some a else some b) none

/-- The addresses around `pivot` that a reservation leaves of the interval from `low` to `high`: it
takes away everything on its far side, its own addresses included. -/
def narrow (pivot : UInt64) (bounds : UInt64 × UInt64) (r : Reservation) : UInt64 × UInt64 :=
  let (low, high) := bounds
  (if r.range.last < pivot ∧ low ≤ r.range.last then r.range.last + 1 else low,
    if pivot < r.range.start ∧ r.range.start ≤ high then r.range.start - 1 else high)

/-- **The part of a window around the first free address of an access that holds no reserved
address,** if there is such a part.  An access to an empty range stands for one to its start. -/
def carve (m : Monitor) (access : Access) (w : DirectWindow) : Option DirectWindow := do
  let range := if access.range.isEmpty then AddressRange.single access.range.start else access.range
  let pivot ← m.lowestFree range
  let (low, high) := m.reservations.foldl (narrow pivot) (w.start, w.last)
  match AddressRange.ofBounds low high with
  | .ok part => w.restrict part
  | .error _ => none

/-! ### The reservations after each step -/

@[simp] theorem reservations_reserve (m : Monitor) (owner : Owner) (range : AddressRange) :
    (m.reserve owner range).reservations = m.reservations ++ [⟨owner, range⟩] := rfl

theorem mem_breakRange {m : Monitor} {range : AddressRange} {r : Reservation} :
    r ∈ (m.breakRange range).reservations ↔
      r ∈ m.reservations ∧ r.range.overlaps range = false := by
  simp [breakRange]

/-- An access is refused exactly when the monitor does not permit it. -/
theorem apply_eq_none_iff {m : Monitor} {access : Access} :
    m.apply access = none ↔ m.permits access = false := by
  unfold apply
  split
  · next permitted => cases access.command <;> simp [permitted]
  · next refused => simpa using refused

end Monitor

end Interconnect
