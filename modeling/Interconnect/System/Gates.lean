import Interconnect.System.Basic

/-!
# Gates and initiators within a system

## Main Definitions

* `openGate`, `closeGate` — making and destroying gates
* `submit`, `grant`, `withdrawGate` — what a gate does
* `newInitiator`, `access`, `bind`, `pointerFor` — what an initiator does through a gate
-/

namespace Interconnect

namespace System

/-! ### Gates -/

/-- A gate with everything that it acts upon. -/
def station (s : System) (connection : Connection) : Station Platform :=
  ⟨connection.gate, s.network, s.world⟩

/-- The system after a gate has acted. -/
def putStation (s : System) (id : GateId) (connection : Connection)
    (after : Station Platform) : System :=
  { s with
    connections := s.connections.insert id { connection with gate := after.gate }
    network := after.network
    world := after.world }

/-- **Opens a gate to a target.**  The target is given the handle of the gate before the clock is
set.  If the clock cannot be set there is no gate, but the target keeps the handle, which reaches
nothing but a cache that nobody fills. -/
def openGate (s : System) (target : TargetId) (config : GateConfig) (frequency : Option UInt64) :
    Except Fault GateId × System :=
  let (gate, net) := Gate.create config s.network
  let s := { s with network := net }.attach target gate.handle
  match Clock.ofFrequency? frequency with
  | none => (.error .zeroFrequency, s)
  | some clock =>
    let id := s.connections.fresh
    (.ok id,
      { s with connections := s.connections.insert id ⟨{ gate with clock := clock }, target⟩ })

/-- Destroys a gate; a target that only it held goes too. -/
def closeGate (s : System) (id : GateId) : Option System :=
  match s.connections.find? id with
  | some connection => { s with connections := s.connections.erase id }.release connection.target
  | none => some s

/-- Changes a gate in itself. -/
def modifyGate (s : System) (id : GateId) (f : Gate → Gate) : System :=
  { s with connections := s.connections.modify id fun c => { c with gate := f c.gate } }

/-- **Submits a transaction to a gate,** and gives the transaction and the report, or why it broke
off. -/
def submit (s : System) (id : GateId) (connection : Connection) (tx : Transaction) :
    Except Interruption (Transaction × Delivery) × System :=
  let (report, after, station) := (s.station connection).transport (s.target connection.target) tx
  (report.map fun delivery => (after, delivery), s.putStation id connection station)

/-- Asks a gate for a window. -/
def grant (s : System) (id : GateId) (connection : Connection) (access : Access) :
    Option DirectWindow × System :=
  let (granted, after) := (s.station connection).grant (s.target connection.target) access
  (granted, s.putStation id connection after)

/-- Withdraws a range from the caches that the handle of a gate reaches, and tells whether any held
it. -/
def withdrawGate (s : System) (id : GateId) (connection : Connection) (range : AddressRange) :
    Option (Bool × System) :=
  ((s.station connection).withdraw range).map fun outcome =>
    (0 < outcome.1, s.putStation id connection outcome.2)

/-! ### Initiators -/

/-- A new initiator. -/
def newInitiator (s : System) (owner : Owner) (limit : Option Nat) : InitiatorId × System :=
  let (i, net) := Initiator.create owner limit s.network
  let id := s.initiators.fresh
  (id, { s with network := net, initiators := s.initiators.insert id i })

/-- **An access of an initiator through a gate.** -/
def access (s : System) (i : Initiator) (id : GateId) (connection : Connection)
    (command : Command) (address : UInt64) (data : Bytes) (mode : AccessMode) :
    Except Interruption ((Bytes × Completion) × System) :=
  (i.access (s.target connection.target) command address data mode (s.station connection)).map
    fun (bytes, done, after) => ((bytes, done), s.putStation id connection after)

/-- Binds the cache of an initiator to a gate. -/
def bind (s : System) (i : Initiator) (id : GateId) (connection : Connection) : System :=
  s.putStation id connection ((s.station connection).bind i.cache)

/-- The host pointer that an initiator has for a range. -/
def pointerFor (s : System) (i : Initiator) (range : AddressRange) (command : Command) :
    Option HostPointer × System :=
  let (found, net) := i.pointerFor range command s.network
  (found, { s with network := net })

/-- Allows or forbids an initiator the use of windows. -/
def setAllowDirect (s : System) (id : InitiatorId) (i : Initiator) (allow : Bool) : System :=
  let (i, net) := i.setAllowDirect allow s.network
  { s with network := net, initiators := s.initiators.insert id i }

/-- Cuts a range out of the cache of an initiator, and tells whether it held any of it. -/
def withdrawInitiator (s : System) (i : Initiator) (range : AddressRange) : Bool × System :=
  let (touched, cache) := (s.network.cache i.cache).withdraw range
  (touched, { s with network := s.network.setCache i.cache cache })

end System

end Interconnect
