import Interconnect.System.Basic

/-!
# Targets within a system

What the user of a system may do with its targets, other than reach them through gates: make them,
change them, and access them directly.  Changes that end direct windows withdraw them from all
caches that the target's handles reach.

## Main Definitions

* `newMemory`, `newSink`, `newScripted`, `newBus`, `newHost`, `newDevice` — making targets
* `loadMemory`, `resetMemory`, `setReadOnly` — changing a memory
* `map`, `unmap` — changing a bus
* `attachDevice`, `detachDevice`, `mapBar`, `unmapBar`, `interrupt`, `perform` — using a PCI host
* `readTarget`, `writeTarget`, `windowTarget` — accesses without a gate

A number that stands for no target of the right kind is passed over: such an operation changes
nothing.

### Calls that fail, and calls that never return

A call that may fail gives its fault beside the system that it leaves, so that what a failing call
changes is a matter of the order of its steps.  A call that withdraws windows has no outcome at all
if the withdrawal goes round for ever.
-/

namespace Interconnect

namespace System

/-! ### Making targets -/

/-- A new block of host storage. -/
def allocate (s : System) (bytes : Bytes) : StorageId × System :=
  let (block, storage) := s.world.storage.allocate bytes
  (block, { s with world := { s.world with storage := storage } })

/-- **A new memory.**  With a poison, the memory starts filled with it. -/
def newMemory (s : System) (bytes : Bytes) (readOnly discardWrites : Bool)
    (poison : Option UInt8) : TargetId × System :=
  let bytes := match poison with
    | some p => List.replicate bytes.length p
    | none => bytes
  let (block, s) := s.allocate bytes
  s.addEndpoint (.memory ⟨block, readOnly, discardWrites, poison.getD 0, []⟩)

/-- A new sink. -/
def newSink (s : System) (fill : UInt8) : TargetId × System :=
  s.addEndpoint (.sink (Sink.ofByte fill))

/-- **A new scripted target.**  The fixed window points to the storage behind its first address, or
nowhere if it is to be null. -/
def newScripted (s : System) (size : Nat) (rules : List ScriptRule)
    (offered : Option (AddressRange × Permission × Bool)) : TargetId × System :=
  let (block, s) := s.allocate (List.replicate size 0)
  let offered := offered.map fun (range, permission, isNull) =>
    (⟨range, if isNull then .null else (HostPointer.toBlock block).advance range.start,
      permission⟩ : DirectWindow)
  s.addEndpoint (.scripted ⟨block, rules, offered, [], []⟩)

/-- A new bus. -/
def newBus (s : System) : TargetId × System :=
  let (handle, net) := s.network.addHandle
  { s with network := net }.addEndpoint (.bus (BusOver.ofHandle handle))

/-- A new PCI host. -/
def newHost (s : System) (config : Pci.HostConfig) : TargetId × System :=
  s.addEndpoint (.host (Pci.Host.ofConfig config))

/-- A new device, which is yet to be attached to a host. -/
def newDevice (s : System) (size : Nat) (ramBar : UInt8) (offersWindow : Bool) :
    Pci.DeviceId × System :=
  let (block, s) := s.allocate (List.replicate size 0)
  let id := s.world.state.devices.fresh
  (id, { s with world := s.world.setDevice id (Pci.RamDevice.ofBlock block ramBar offersWindow) })

/-! ### Memories -/

/-- The memory with a given number. -/
def memory? (s : System) (id : TargetId) : Option Memory :=
  match s.world.endpoint? id with
  | some (.memory m) => some m
  | _ => none

/-- Stores bytes in a memory. -/
def loadMemory (s : System) (id : TargetId) (offset : UInt64) (bytes : Bytes) :
    Except Fault System :=
  match s.memory? id with
  | some m =>
    (m.load s.world.storage offset bytes).map fun storage =>
      { s with world := { s.world with storage := storage } }
  | none => .ok s

/-- Fills a memory with its poison. -/
def resetMemory (s : System) (id : TargetId) : System :=
  match s.memory? id with
  | some m => { s with world := { s.world with storage := m.fill s.world.storage } }
  | none => s

/-- **Makes a memory read-only or writable.**  If that is a change, its windows no longer tell the
truth and are withdrawn. -/
def setReadOnly (s : System) (id : TargetId) (readOnly : Bool) : Option System :=
  match s.memory? id with
  | some m =>
    if m.readOnly = readOnly then some s
    else (s.setEndpoint id (.memory { m with readOnly := readOnly })).withdrawMemory m
  | none => some s

/-! ### Sinks and scripted targets -/

/-- The sink with a given number. -/
def sink? (s : System) (id : TargetId) : Option Sink :=
  match s.world.endpoint? id with
  | some (.sink t) => some t
  | _ => none

/-- A sink forgets what it has seen. -/
def clearSink (s : System) (id : TargetId) : System :=
  match s.sink? id with
  | some t => s.setEndpoint id (.sink t.clear)
  | none => s

/-- The scripted target with a given number. -/
def scripted? (s : System) (id : TargetId) : Option Scripted :=
  match s.world.endpoint? id with
  | some (.scripted t) => some t
  | _ => none

/-- A scripted target withdraws a range, and tells what each of its handles touched. -/
def withdrawScripted (s : System) (id : TargetId) (range : AddressRange) :
    Option (List Nat × System) :=
  match s.scripted? id with
  | some t => s.withdraw t.handles range
  | none => some ([], s)

/-! ### Buses -/

/-- The bus with a given number. -/
def bus? (s : System) (id : TargetId) : Option Bus :=
  match s.world.endpoint? id with
  | some (.bus b) => some b
  | _ => none

/-- **Shows a target on a bus,** or tells why not.  The target is given a handle of its own, which
passes what the target withdraws on to the handle of the bus, rebased to where the bus shows it. -/
def map (s : System) (id : TargetId) (range : AddressRange) (offset : UInt64)
    (target : TargetId) : Except Fault Unit × System :=
  match s.bus? id with
  | some b =>
    match b.map range offset target with
    | (.error fault, b) => (.error fault, s.setEndpoint id (.bus b))
    | (.ok m, b) =>
      let (handle, net) := s.network.rebased b.handle m.rebase
      (.ok (), ({ s with network := net }.attach target handle).setEndpoint id (.bus b))
  | none => (.ok (), s)

/-- **Ends the showing of a target at exactly this range,** and withdraws every window over it. -/
def unmap (s : System) (id : TargetId) (range : AddressRange) :
    Option (Except Fault Unit × System) :=
  match s.bus? id with
  | some b =>
    match b.unmap range with
    | (.error fault, b) => some (.error fault, s.setEndpoint id (.bus b))
    | (.ok m, b) => do
      let withdrawn ← (s.setEndpoint id (.bus b)).withdraw [b.handle] range
      let after ← withdrawn.2.release m.target
      some (.ok (), after)
  | none => some (.ok (), s)

/-! ### PCI hosts -/

/-- The PCI host with a given number. -/
def host? (s : System) (id : TargetId) : Option Pci.Host :=
  match s.world.endpoint? id with
  | some (.host h) => some h
  | _ => none

/-- Replaces a host and withdraws the windows over memory ranges that have ended. -/
def updateHost (s : System) (id : TargetId) (h : Pci.Host) (ended : List AddressRange) :
    Option System :=
  (s.setEndpoint id (.host h)).withdrawEach h.handles ended

/-- The outcome of something done to a host, with what it leaves of the host. -/
def concludeHost (s : System) (id : TargetId)
    (done : Except Fault Unit × List AddressRange × Pci.Host) :
    Option (Except Fault Unit × System) :=
  (s.updateHost id done.2.2 done.2.1).map fun after => (done.1, after)

/-- Attaches a device. -/
def attachDevice (s : System) (id : TargetId) (devfn : UInt8) (device : Pci.Attachment) :
    Option (Except Fault Unit × System) :=
  match s.host? id with
  | some h => s.concludeHost id (h.attach devfn device)
  | none => some (.ok (), s)

/-- Detaches a device. -/
def detachDevice (s : System) (id : TargetId) (devfn : UInt8) :
    Option (Except Fault Unit × System) :=
  match s.host? id with
  | some h => s.concludeHost id (h.detach devfn)
  | none => some (.ok (), s)

/-- Maps a base address register. -/
def mapBar (s : System) (id : TargetId) (devfn : UInt8) (bar : Pci.Bar) :
    Option (Except Fault Unit × System) :=
  match s.host? id with
  | some h => s.concludeHost id (h.mapBar devfn bar)
  | none => some (.ok (), s)

/-- Ends the mapping of a base address register, and tells whether there was one. -/
def unmapBar (s : System) (id : TargetId) (devfn bar : UInt8) : Option (Bool × System) :=
  match s.host? id with
  | some h =>
    let (ended, after) := h.unmapBar devfn bar
    (s.updateHost id after ended).map fun after => (h.isMapped devfn bar, after)
  | none => some (false, s)

/-- Drives an interrupt pin, and gives the line it is routed to. -/
def interrupt (s : System) (id : TargetId) (devfn : UInt8) (pin : Pci.Pin) (level : Bool) :
    Option Pci.Pin × System :=
  match s.host? id with
  | some h =>
    let (line, h) := h.interrupt devfn pin level
    (some line, s.setEndpoint id (.host h))
  | none => (none, s)

/-- A host carries out a payload. -/
def perform (s : System) (id : TargetId) (p : Pci.Payload) : Pci.Payload × System :=
  match s.host? id with
  | some h =>
    let (p, world) := h.perform Platform.device p s.world
    (p, { s with world := world })
  | none => (p, s)

/-- The device at a function carries out a payload by itself, if there is one. -/
def performDevice (s : System) (id : TargetId) (devfn : UInt8) (p : Pci.Payload) :
    Option Pci.Payload × System :=
  match (s.host? id).bind fun h => h.deviceAt devfn with
  | some device =>
    let (p, world) := (Platform.device device).access p s.world
    (some p, { s with world := world })
  | none => (none, s)

/-- A device forgets the payloads that it has seen. -/
def clearDevice (s : System) (id : Pci.DeviceId) : System :=
  match s.world.device? id with
  | some d => { s with world := s.world.setDevice id { d with seen := [] } }
  | none => s

/-! ### Accesses without a gate -/

/-- Reads from a target. -/
def readTarget (s : System) (id : TargetId) (range : AddressRange) (attributes : Attributes)
    (buffer : Bytes) : Response × Bytes × System :=
  let (response, bytes, world) := (s.target id).read range attributes buffer s.world
  (response, bytes, { s with world := world })

/-- Writes to a target. -/
def writeTarget (s : System) (id : TargetId) (range : AddressRange) (attributes : Attributes)
    (data : Bytes) : Response × System :=
  let (response, world) := (s.target id).write range attributes data s.world
  (response, { s with world := world })

/-- Asks a target for a window. -/
def windowTarget (s : System) (id : TargetId) (range : AddressRange) (attributes : Attributes) :
    Option DirectWindow × System :=
  let (offered, world) := (s.target id).window range attributes s.world
  (offered, { s with world := world })

end System

end Interconnect
