import Interconnect.Bus.Interval
import Interconnect.Bus.Mapping
import Interconnect.Withdrawal.Network

/-!
# Buses

A bus shows targets at ranges that do not overlap, and routes every access to the one target that is
shown at all its addresses.  Windows that a target offers are cut to what the bus shows of it and
moved to where the bus shows it; what a target withdraws takes the same way through a handle of its
own that passes rebased ranges on to the handle of the bus.

## Main Definitions

* `BusOver` — the mappings in an interval map, and the handle
* `BusOver.map`, `BusOver.unmap` — how they change
* `BusOver.find?`, `BusOver.route` — the mapping of an address and of a range
* `BusOver.target` — how a bus answers, given the targets behind it
* `Bus` — a bus whose interval map is a sorted list
-/

namespace Interconnect

universe u

/-- **Targets at ranges of one address space.** -/
structure BusOver (I : IntervalMap Mapping) where
  /-- The mappings, each at the interval of its range. -/
  ports : I.Store
  /-- The handle that passes withdrawals on to everyone the bus is attached to. -/
  handle : HandleId

/-- A bus whose mappings are kept in a sorted list. -/
abbrev Bus := BusOver (.sorted Mapping)

namespace BusOver

variable {I : IntervalMap Mapping}

instance [DecidableEq I.Store] : DecidableEq (BusOver I) := fun b c =>
  decidable_of_iff (b.ports = c.ports ∧ b.handle = c.handle) (by cases b; cases c; simp)

/-- A bus without mappings. -/
def ofHandle (handle : HandleId) : BusOver I := ⟨I.empty, handle⟩

/-- The mappings in address order. -/
def mappings (b : BusOver I) : List Mapping := (I.entries b.ports).map Prod.snd

/-! ### The map -/

/-- **The mapping that would show a target at a range,** from the target's address `offset` on.  The
range must be one that can be mapped, and must not overlap any mapping, of which the lowest is
named. -/
def accept (b : BusOver I) (range : AddressRange) (offset : UInt64) (target : TargetId) :
    Except Fault Mapping :=
  match Mapping.make range offset target with
  | .error fault => .error fault
  | .ok m =>
    match (I.meeting b.ports range.span).head? with
    | some (_, existing) => .error (.mapConflict range existing.range)
    | none => .ok m

/-- The bus with one more mapping. -/
def insert (b : BusOver I) (m : Mapping) : BusOver I :=
  { b with ports := I.insert b.ports m.range.span m }

/-- **Shows a target at a range,** or tells why not. -/
def map (b : BusOver I) (range : AddressRange) (offset : UInt64) (target : TargetId) :
    Except Fault Mapping × BusOver I :=
  match b.accept range offset target with
  | .error fault => (.error fault, b)
  | .ok m => (.ok m, b.insert m)

/-- **Removes the mapping of exactly this range.**  The interval of an empty range is none that the
map could be asked for. -/
def unmap (b : BusOver I) (range : AddressRange) : Except Fault Mapping × BusOver I :=
  if range.isEmpty then (.error (.emptyMapping range), b)
  else
    match I.remove b.ports range.span with
    | (some m, ports) => (.ok m, { b with ports := ports })
    | (none, ports) => (.error (.notMapped range), { b with ports := ports })

/-! ### Routing -/

/-- The mapping that shows something at an address. -/
def find? (b : BusOver I) (address : UInt64) : Option Mapping :=
  (I.holding b.ports (position address)).head?.map Prod.snd

/-- The range that is mapped around an address. -/
def lookup (b : BusOver I) (address : UInt64) : Option AddressRange :=
  (b.find? address).map Mapping.range

/-- **The mapping that a whole range falls into,** with the range in the target's addresses. -/
def route (b : BusOver I) (range : AddressRange) : Option (Mapping × AddressRange) := do
  let m ← b.find? range.start
  if m.range.contains range then
    let place ← m.toTarget range
    some (m, place)
  else none

/-- **How a bus answers.**  A range that falls into no mapping reaches no target. -/
def target {σ : Type u} (targets : TargetId → Target σ) (b : BusOver I) : Target σ where
  read := fun range attributes buffer world =>
    match b.route range with
    | some (m, place) => (targets m.target).read place attributes buffer world
    | none => (.addressError, buffer, world)
  write := fun range attributes data world =>
    match b.route range with
    | some (m, place) => (targets m.target).write place attributes data world
    | none => (.addressError, world)
  window := fun range attributes world =>
    match b.route range with
    | some (m, place) =>
      let (offered, world) := (targets m.target).window place attributes world
      (offered.bind m.toBus, world)
    | none => (none, world)
  length_read := by
    intro range attributes buffer world
    split
    · exact (targets _).length_read _ _ _ _
    · rfl

end BusOver

end Interconnect
