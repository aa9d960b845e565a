import Interconnect.Clock
import Interconnect.Monitor
import Interconnect.Gate.Config
import Interconnect.Target
import Interconnect.Withdrawal.Network

/-!
# Gates

A gate stands between initiators and one target.  It keeps the rules for transactions, the monitor
for exclusive accesses, a clock, a cache of the windows that the target has granted, and the handle
through which those windows are withdrawn from all caches that hold them.

## Main Definitions

* `Gate` — the parts of a gate
* `Station` — a gate together with the caches, the handles and the world that it acts upon
* `Station.withdraw` — takes windows back from every cache that the handle of the gate reaches
-/

namespace Interconnect

universe u

/-- **The initiators' side of one target.**  To the handle of the gate are bound the grant cache and
the caches of the initiators that have been granted windows. -/
structure Gate where
  /-- The rules. -/
  config : GateConfig
  /-- The reservations. -/
  monitor : Monitor
  /-- The cache of the windows that the target has granted. -/
  grants : CacheId
  /-- The handle for withdrawals. -/
  handle : HandleId
  /-- The cycles charged so far. -/
  clock : Clock
deriving DecidableEq

/-- **A new gate,** with the standard clock.  Its grant cache is bound to its handle; the target has
yet to be given the handle. -/
def Gate.create (config : GateConfig) (net : Network) : Gate × Network :=
  let (grants, net) := net.addCache config.entryLimit
  let (handle, net) := net.addHandle
  (⟨config, .empty, grants, handle, .standard⟩, net.bind handle grants)

/-- A gate with everything that it acts upon. -/
structure Station (σ : Type u) where
  /-- The gate. -/
  gate : Gate
  /-- The caches and handles of the interconnect. -/
  network : Network
  /-- What lies behind the gate. -/
  world : World σ

namespace Station

variable {σ : Type u}

/-- What a target learns of a transaction that comes through this gate. -/
def attributes (s : Station σ) (owner : Owner) (debug exclusive : Bool) : Attributes :=
  ⟨s.gate.config.space, owner, debug, exclusive⟩

/-- The grant cache. -/
def grants (s : Station σ) : WindowCache := s.network.cache s.gate.grants

/-- Replaces the grant cache. -/
def setGrants (s : Station σ) (grants : WindowCache) : Station σ :=
  { s with network := s.network.setCache s.gate.grants grants }

/-- Replaces the monitor. -/
def setMonitor (s : Station σ) (monitor : Monitor) : Station σ :=
  { s with gate := { s.gate with monitor := monitor } }

/-- Replaces the world. -/
def setWorld (s : Station σ) (world : World σ) : Station σ := { s with world := world }

/-- Counts cycles on the clock of the gate. -/
def charge (s : Station σ) (cycles : UInt64) : Station σ :=
  { s with gate := { s.gate with clock := s.gate.clock.charge cycles } }

/-- Binds an initiator's cache to the gate. -/
def bind (s : Station σ) (cache : CacheId) : Station σ :=
  { s with network := s.network.bind s.gate.handle cache }

/-- **Cuts a range out of every cache that the handle of the gate reaches,** and counts how often
one was touched.  Where the handle passes the range on in a circle, nothing follows. -/
def withdraw (s : Station σ) (range : AddressRange) : Option (Nat × Station σ) :=
  (s.network.withdraw s.gate.handle range).map fun outcome =>
    (outcome.1, { s with network := outcome.2 })

@[simp] theorem gate_setGrants (s : Station σ) (c : WindowCache) : (s.setGrants c).gate = s.gate :=
  rfl

@[simp] theorem world_setGrants (s : Station σ) (c : WindowCache) :
    (s.setGrants c).world = s.world := rfl

@[simp] theorem network_setMonitor (s : Station σ) (m : Monitor) :
    (s.setMonitor m).network = s.network := rfl

@[simp] theorem world_setMonitor (s : Station σ) (m : Monitor) :
    (s.setMonitor m).world = s.world := rfl

@[simp] theorem monitor_setMonitor (s : Station σ) (m : Monitor) :
    (s.setMonitor m).gate.monitor = m := rfl

@[simp] theorem gate_setWorld (s : Station σ) (w : World σ) : (s.setWorld w).gate = s.gate := rfl

@[simp] theorem network_setWorld (s : Station σ) (w : World σ) :
    (s.setWorld w).network = s.network := rfl

@[simp] theorem world_setWorld (s : Station σ) (w : World σ) : (s.setWorld w).world = w := rfl

@[simp] theorem network_charge (s : Station σ) (n : UInt64) : (s.charge n).network = s.network :=
  rfl

@[simp] theorem world_charge (s : Station σ) (n : UInt64) : (s.charge n).world = s.world := rfl

@[simp] theorem charge_zero (s : Station σ) : s.charge 0 = s := by
  rw [charge, Clock.charge_zero]

@[simp] theorem monitor_charge (s : Station σ) (n : UInt64) :
    (s.charge n).gate.monitor = s.gate.monitor := rfl

/-- A withdrawal changes the network, and nothing else of the station. -/
theorem withdraw_eq_some_iff {s t : Station σ} {range : AddressRange} {count : Nat} :
    s.withdraw range = some (count, t) ↔ ∃ net, t = { s with network := net } ∧
      s.network.withdraw s.gate.handle range = some (count, net) := by
  simp only [withdraw, Option.map_eq_some_iff, Prod.exists, Prod.mk.injEq]
  constructor
  · rintro ⟨count, net, found, rfl, rfl⟩
    exact ⟨net, rfl, found⟩
  · rintro ⟨net, rfl, found⟩
    exact ⟨count, net, found, rfl, rfl⟩

end Station

end Interconnect
