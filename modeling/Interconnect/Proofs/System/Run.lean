import Mathlib.Data.Set.Basic
import Mathlib.Logic.Relation
import Interconnect.Proofs.System.Routing
import Interconnect.Proofs.Withdrawal.Reach
import Interconnect.System.Gates
import Interconnect.System.Targets

/-!
# Runs of a system with one gate

A user builds memories and buses, opens a gate to one of them, and then uses initiators on the gate
while the buses are mapped and unmapped and the memories change.

## Main Definitions

* `System.TargetStep` — what a user does with memories and buses
* `System.PortStep` — what happens once a gate is open
* `System.Opened`, `System.Reachable` — a gate that has just been opened, and all that may follow

### Steps that are left out

A target that takes windows back waits for the withdrawal to end.  Where handles pass it on in a
circle it may never do so, and then no state follows.  A call to a bus that fails is no step: it
leaves everything as it was (`System.eq_of_attemptBus_eq_error`).
-/

namespace Interconnect

namespace System

/-- The connection of a gate is to a target that exists. -/
def HasTarget (s : System) (id : TargetId) : Prop := ∃ e, s.world.endpoint? id = some e

/-- **What a user does with memories and buses.** -/
inductive TargetStep : System → System → Prop
  /-- A memory is made. -/
  | newMemory (s : System) (bytes : Bytes) (readOnly discardWrites : Bool)
      (poison : Option UInt8) :
      TargetStep s (s.newMemory bytes readOnly discardWrites poison).2
  /-- A bus is made. -/
  | newBus (s : System) : TargetStep s s.newBus.2
  /-- A bus shows a target that exists. -/
  | map (s : System) (id : TargetId) (range : AddressRange) (offset : UInt64) (target : TargetId)
      (exists_target : s.HasTarget target) (after : System)
      (mapped : s.map id range offset target = (.ok (), after)) : TargetStep s after
  /-- A bus shows a target no longer. -/
  | unmap (s : System) (id : TargetId) (range : AddressRange) (after : System)
      (unmapped : s.unmap id range = some (.ok (), after)) : TargetStep s after
  /-- A memory becomes read-only or writable. -/
  | setReadOnly (s : System) (id : TargetId) (readOnly : Bool) (after : System)
      (changed : s.setReadOnly id readOnly = some after) : TargetStep s after
  /-- Bytes are stored in a memory. -/
  | load (s : System) (id : TargetId) (offset : UInt64) (bytes : Bytes) (after : System)
      (loaded : s.loadMemory id offset bytes = .ok after) : TargetStep s after
  /-- A memory is filled with its poison. -/
  | reset (s : System) (id : TargetId) : TargetStep s (s.resetMemory id)
  /-- The user lets a target go. -/
  | drop (s : System) (id : TargetId) (after : System) (dropped : s.drop id = some after) :
      TargetStep s after

/-- **What happens once gate `id` is open.** -/
inductive PortStep (id : GateId) : System → System → Prop
  /-- The user does something with the targets. -/
  | target {s t : System} (step : TargetStep s t) : PortStep id s t
  /-- An initiator is made. -/
  | join (s : System) (owner : Owner) (limit : Option Nat) :
      PortStep id s (s.newInitiator owner limit).2
  /-- An initiator is allowed or forbidden the use of windows. -/
  | allow (s : System) (k : InitiatorId) (i : Initiator) (known : s.initiators.find? k = some i)
      (allowed : Bool) : PortStep id s (s.setAllowDirect k i allowed)
  /-- The cache of an initiator is bound before it needs to be. -/
  | bind (s : System) (k : InitiatorId) (i : Initiator) (known : s.initiators.find? k = some i)
      (connection : Connection) (connected : s.connections.find? id = some connection) :
      PortStep id s (s.bind i id connection)
  /-- A transaction is submitted, and comes to some end. -/
  | submit (s : System) (connection : Connection)
      (connected : s.connections.find? id = some connection) (tx : Transaction)
      (outcome : Except Interruption (Transaction × Delivery)) (after : System)
      (submitted : s.submit id connection tx = (outcome, after)) : PortStep id s after
  /-- An initiator makes an access. -/
  | access (s : System) (k : InitiatorId) (i : Initiator)
      (known : s.initiators.find? k = some i) (connection : Connection)
      (connected : s.connections.find? id = some connection) (command : Command)
      (address : UInt64) (data : Bytes) (mode : AccessMode) (outcome : Bytes × Completion)
      (after : System)
      (ended : s.access i id connection command address data mode = .ok (outcome, after)) :
      PortStep id s after

/-- **Gate `id` has just been opened** to target `root`, in a system of memories and buses. -/
def Opened (root : TargetId) (config : GateConfig) (id : GateId) (s : System) : Prop :=
  ∃ before frequency, Relation.ReflTransGen TargetStep empty before ∧ before.HasTarget root ∧
    before.openGate root config frequency = (.ok id, s)

/-- **The states that a system can come to** after a gate to `root` has been opened in it. -/
def Reachable (root : TargetId) (config : GateConfig) (id : GateId) (s : System) : Prop :=
  ∃ opened, Opened root config id opened ∧ Relation.ReflTransGen (PortStep id) opened s

/-- The caches of the initiators. -/
def users (s : System) : Set CacheId := { c | ∃ k i, s.initiators.find? k = some i ∧ i.cache = c }

theorem mem_users {s : System} {k : InitiatorId} {i : Initiator}
    (known : s.initiators.find? k = some i) : i.cache ∈ s.users :=
  ⟨k, i, known, rfl⟩

/-- A transaction leaves what it leaves of the station. -/
theorem of_submit {s t : System} {id : GateId} {c : Connection} {tx : Transaction}
    {outcome : Except Interruption (Transaction × Delivery)}
    (submitted : s.submit id c tx = (outcome, t)) :
    t = s.putStation id c ((s.station c).submit (s.target c.target) tx).2.station := by
  cases submitted
  rfl

/-- A transaction that does not break off is reported as it passes the gate. -/
theorem submit_eq_ok_iff {s t : System} {id : GateId} {c : Connection} {tx after : Transaction}
    {delivery : Delivery} :
    s.submit id c tx = (.ok (after, delivery), t) ↔
      ∃ p, (s.station c).submit (s.target c.target) tx = (.ok (), p) ∧ p.tx = after ∧
        p.delivery = delivery ∧ s.putStation id c p.station = t := by
  unfold submit Station.transport
  cases passed : (s.station c).submit (s.target c.target) tx with
  | mk outcome p =>
      cases outcome with
      | error cause => simp [Except.map]
      | ok done => simp [Except.map, and_assoc]

/-- An access of an initiator is what it does at the gate. -/
theorem exists_of_access {s t : System} {i : Initiator} {id : GateId} {c : Connection}
    {command : Command} {address : UInt64} {data : Bytes} {mode : AccessMode} {bytes : Bytes}
    {done : Completion}
    (ended : s.access i id c command address data mode = .ok ((bytes, done), t)) :
    ∃ after, t = s.putStation id c after ∧
      i.access (s.target c.target) command address data mode (s.station c) =
        .ok (bytes, done, after) := by
  obtain ⟨⟨bytes', done', after⟩, passed, same⟩ := map_eq_ok_iff.1 ended
  cases same
  exact ⟨after, rfl, passed⟩

/-- A new initiator brings its own cache. -/
theorem users_newInitiator_subset (s : System) (owner : Owner) (limit : Option Nat) :
    (s.newInitiator owner limit).2.users ⊆
      insert (Initiator.create owner limit s.network).1.cache s.users := by
  rintro cache ⟨k, i, found, rfl⟩
  rcases ite_eq_iff.1 ((Table.find?_insert _ _ _ _).symm.trans found) with ⟨-, new⟩ | ⟨-, old⟩
  · cases new
    exact .inl rfl
  · exact .inr ⟨k, i, old, rfl⟩

/-- An initiator that is allowed or forbidden the use of windows keeps its cache. -/
theorem users_setAllowDirect_subset {s : System} {k : InitiatorId} {i : Initiator}
    (known : s.initiators.find? k = some i) (allowed : Bool) :
    (s.setAllowDirect k i allowed).users ⊆ s.users := by
  rintro cache ⟨l, j, found, rfl⟩
  rcases ite_eq_iff.1 ((Table.find?_insert _ _ _ _).symm.trans found) with ⟨-, new⟩ | ⟨-, old⟩
  · cases new
    exact ⟨k, i, known, rfl⟩
  · exact ⟨l, j, old, rfl⟩

end System

end Interconnect
