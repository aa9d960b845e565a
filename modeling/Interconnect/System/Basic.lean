import Interconnect.Initiator
import Interconnect.Platform

/-!
# Systems

A system is a platform together with the gates to its targets, the initiators that use them, and the
caches and handles between them.

## Main Definitions

* `System` — all parts by number
* `System.attach` — gives a target the handle through which it withdraws windows
* `System.withdrawEach` — takes back windows over several ranges through several handles
* `System.release` — a target that nobody uses any more is gone

### Lifetimes

A target lives as long as somebody holds it: its user, a gate, or a bus that lives itself.  A memory
that goes takes its windows back; a bus that goes lets go of the targets behind it.  Buses that show
one another in a circle hold one another for ever.

### What never returns

A withdrawal that goes round a circle of handles has no outcome, and neither has anything that makes
one: a target that goes, a gate that is destroyed, a bus or a host that ends a mapping.
-/

namespace Interconnect

/-- The number of a gate. -/
abbrev GateId := Nat

/-- The number of an initiator. -/
abbrev InitiatorId := Nat

/-- A gate with the target that it stands before. -/
structure Connection where
  /-- The gate. -/
  gate : Gate
  /-- The target. -/
  target : TargetId
deriving DecidableEq

/-- **Targets, gates, initiators, and all that connects them.** -/
structure System where
  /-- Host storage and the targets. -/
  world : World Platform
  /-- The caches and handles. -/
  network : Network
  /-- The gates. -/
  connections : Table Connection
  /-- The initiators. -/
  initiators : Table Initiator
  /-- The targets that their user holds. -/
  held : List TargetId

namespace System

/-- The system without any part. -/
def empty : System := ⟨⟨.empty, .empty⟩, .empty, .empty, .empty, []⟩

/-! ### Targets -/

/-- Replaces a target. -/
def setEndpoint (s : System) (id : TargetId) (e : Endpoint) : System :=
  { s with world := s.world.setEndpoint id e }

/-- A new target, held by its user. -/
def addEndpoint (s : System) (e : Endpoint) : TargetId × System :=
  let id := s.world.state.endpoints.fresh
  (id, { s.setEndpoint id e with held := s.held ++ [id] })

/-- How the target with a given number answers in this system. -/
def target (s : System) (id : TargetId) : Target Platform :=
  Platform.target s.world.state.endpoints.entries.length id

/-- **Gives a target a handle** through which it takes back the windows that it hands out.  A bus
passes on to it what the targets behind the bus withdraw, and a sink hands out no windows. -/
def attach (s : System) (id : TargetId) (handle : HandleId) : System :=
  match s.world.endpoint? id with
  | some (.memory m) => s.setEndpoint id (.memory { m with handles := m.handles ++ [handle] })
  | some (.scripted t) => s.setEndpoint id (.scripted { t with handles := t.handles ++ [handle] })
  | some (.host h) => s.setEndpoint id (.host { h with handles := h.handles ++ [handle] })
  | some (.bus b) => { s with network := s.network.forward b.handle handle }
  | some (.sink _) | none => s

/-! ### Withdrawal -/

/-- Withdraws a range through several handles, and gives what each withdrawal touched. -/
def withdraw (s : System) (handles : List HandleId) (range : AddressRange) :
    Option (List Nat × System) :=
  (s.network.withdrawThrough handles range).map fun outcome =>
    (outcome.1, { s with network := outcome.2 })

/-- Withdraws several ranges, one after the other, through several handles. -/
def withdrawEach (s : System) (handles : List HandleId) (ranges : List AddressRange) :
    Option System :=
  (s.network.withdrawAll handles ranges).map fun net => { s with network := net }

/-- Takes back all windows that a memory has handed out. -/
def withdrawMemory (s : System) (m : Memory) : Option System :=
  s.withdrawEach m.handles (m.extent s.world.storage).toList

/-! ### Lifetimes -/

/-- Whether a bus shows the target. -/
def isShown (s : System) (id : TargetId) : Bool :=
  s.world.state.endpoints.entries.any fun
    | (_, .bus b) => b.mappings.any fun m => m.target == id
    | _ => false

/-- Whether anybody holds the target. -/
def isHeld (s : System) (id : TargetId) : Bool :=
  s.held.contains id || (s.connections.entries.any fun e => e.2.target == id) || s.isShown id

/-- Takes a target out of the platform. -/
def eraseEndpoint (s : System) (id : TargetId) : System :=
  { s with
    world :=
      { s.world with
        state := { s.world.state with endpoints := s.world.state.endpoints.erase id } } }

/-- **Lets a target go if nobody holds it,** and then the targets that it held.  Each that goes is
taken out first, so as many rounds as there are targets suffice. -/
def collect : (rounds : Nat) → TargetId → System → Option System
  | 0, _, s => some s
  | rounds + 1, id, s =>
    if s.isHeld id then some s
    else
      match s.world.endpoint? id with
      | some (.memory m) => (s.eraseEndpoint id).withdrawMemory m
      | some (.bus b) =>
        b.mappings.foldlM (fun s m => collect rounds m.target s) (s.eraseEndpoint id)
      | some _ => some (s.eraseEndpoint id)
      | none => some s

/-- Lets a target go if nobody holds it. -/
def release (s : System) (id : TargetId) : Option System :=
  collect s.world.state.endpoints.entries.length id s

/-- The user lets a target go. -/
def drop (s : System) (id : TargetId) : Option System :=
  { s with held := s.held.filter fun t => t != id }.release id

end System

end Interconnect
