import Interconnect.Bus.Basic
import Interconnect.Endpoint.Memory
import Interconnect.Endpoint.Scripted
import Interconnect.Endpoint.Sink
import Interconnect.Pci.RamDevice
import Interconnect.Pci.Routing

/-!
# Platforms

A platform is a collection of targets that refer to one another: memories, sinks, scripted targets,
buses and PCI hosts with their devices.  It is the state of the world in which the targets answer.

## Main Definitions

* `Endpoint`, `Platform` — the targets and devices by number
* `Platform.device` — how the devices answer
* `Platform.target` — how the targets answer, buses through the targets behind them

### Buses behind buses

A bus may show other buses, and nothing keeps it from showing itself.  `Platform.target` follows as
many buses, one behind the other, as it is told to; an access that would pass more reaches nothing.
As many as there are targets suffice wherever no bus shows itself.
-/

namespace Interconnect

/-- One of the targets of a platform. -/
inductive Endpoint where
  /-- A memory. -/
  | memory (m : Memory)
  /-- A sink. -/
  | sink (s : Sink)
  /-- A scripted target. -/
  | scripted (s : Scripted)
  /-- A bus. -/
  | bus (b : Bus)
  /-- A PCI host. -/
  | host (h : Pci.Host)

/-- **Targets and devices by number.** -/
structure Platform where
  /-- The targets. -/
  endpoints : Table Endpoint
  /-- The devices behind PCI hosts. -/
  devices : Table Pci.RamDevice

namespace World

/-- The target with a given number. -/
def endpoint? (w : World Platform) (id : TargetId) : Option Endpoint := w.state.endpoints.find? id

/-- Replaces a target. -/
def setEndpoint (w : World Platform) (id : TargetId) (e : Endpoint) : World Platform :=
  { w with state := { w.state with endpoints := w.state.endpoints.insert id e } }

/-- The device with a given number. -/
def device? (w : World Platform) (id : Pci.DeviceId) : Option Pci.RamDevice :=
  w.state.devices.find? id

/-- Replaces a device. -/
def setDevice (w : World Platform) (id : Pci.DeviceId) (d : Pci.RamDevice) : World Platform :=
  { w with state := { w.state with devices := w.state.devices.insert id d } }

end World

namespace Platform

/-- The platform without targets. -/
def empty : Platform := ⟨.empty, .empty⟩

/-- **How the device with a given number answers.** -/
def deviceWithId (id : Pci.DeviceId) : Pci.Device Platform where
  access := fun p world =>
    match world.device? id with
    | none => (p, world)
    | some d =>
      let (p, d, storage) := d.access world.storage p
      (p, { world.setDevice id d with storage := storage })
  window := fun bar _ world => ((world.device? id).bind fun d => d.window world.storage bar, world)

/-- A device as it is attached, with or without its windows. -/
def device (a : Pci.Attachment) : Pci.Device Platform :=
  if a.windows then deviceWithId a.device else (deviceWithId a.device).withoutWindows

/-- **How the target with a given number answers,** given those that a bus passes accesses to. -/
def answering (targets : TargetId → Target Platform) (id : TargetId) : Target Platform where
  read := fun range attributes buffer world =>
    match world.endpoint? id with
    | some (.memory m) =>
      let (response, bytes) := m.read world.storage range buffer
      (response, bytes, world)
    | some (.sink s) =>
      let (bytes, s) := s.read range attributes buffer
      (.ok, bytes, world.setEndpoint id (.sink s))
    | some (.scripted s) =>
      let (response, bytes) := s.read world.storage range buffer
      (response, bytes, world)
    | some (.bus b) => (b.target targets).read range attributes buffer world
    | some (.host h) => (h.target device).read range attributes buffer world
    | none => (.addressError, buffer, world)
  write := fun range attributes data world =>
    match world.endpoint? id with
    | some (.memory m) =>
      let (response, storage) := m.write world.storage range attributes.debug data
      (response, { world with storage := storage })
    | some (.sink s) => (.ok, world.setEndpoint id (.sink (s.write range attributes)))
    | some (.scripted s) =>
      let (response, storage) := s.write world.storage range data
      (response, { world with storage := storage })
    | some (.bus b) => (b.target targets).write range attributes data world
    | some (.host h) => (h.target device).write range attributes data world
    | none => (.addressError, world)
  window := fun range attributes world =>
    match world.endpoint? id with
    | some (.memory m) => (m.window world.storage range, world)
    | some (.sink _) => (none, world)
    | some (.scripted s) =>
      let (offered, s) := s.window range attributes
      (offered, world.setEndpoint id (.scripted s))
    | some (.bus b) => (b.target targets).window range attributes world
    | some (.host h) => (h.target device).window range attributes world
    | none => (none, world)
  length_read := by
    intro range attributes buffer world
    split
    · simp
    · simp [Sink.read]
    · simp
    · exact (BusOver.target targets _).length_read _ _ _ _
    · exact (Pci.Host.target device _).length_read _ _ _ _
    · rfl

/-- **How the target with a given number answers,** where at most `depth` targets stand one behind
the other. -/
def target : (depth : Nat) → TargetId → Target Platform
  | 0, _ => .silent Platform
  | depth + 1, id => answering (target depth) id

@[simp] theorem target_zero (id : TargetId) : target 0 id = .silent Platform := rfl

@[simp] theorem target_succ (depth : Nat) (id : TargetId) :
    target (depth + 1) id = answering (target depth) id := rfl

end Platform

end Interconnect
