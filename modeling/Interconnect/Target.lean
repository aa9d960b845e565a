import Interconnect.Window.Basic

/-!
# Targets

A target is whatever answers accesses: a memory, a bus, a device.  It is a family of functions on a
world, which consists of host storage and of the state that the targets in it have.  Whoever asks a
target hands it the world and gets the changed world back, so a target may share its state with
others and may answer differently each time.

## Main Definitions

* `World` — host storage and the state of all targets
* `Target` — how reads, writes and requests for direct windows are answered
* `Target.silent` — the target that nothing stands behind
-/

namespace Interconnect

universe u

/-- The number by which a target is known to those that route accesses to it. -/
abbrev TargetId := Nat

/-- **What accesses act upon:** host storage, and the state `σ` of the targets. -/
@[ext] structure World (σ : Type u) where
  /-- The blocks of host storage. -/
  storage : StorageBank
  /-- The state of the targets. -/
  state : σ

/-- **How a target answers.**  Every access covers one contiguous range.  A read is handed the
buffer to fill and cannot change its length; on an error it may have filled any part of it. -/
structure Target (σ : Type u) where
  /-- Reads the range into the buffer. -/
  read : AddressRange → Attributes → Bytes → World σ → Response × Bytes × World σ
  /-- Writes the bytes to the range. -/
  write : AddressRange → Attributes → Bytes → World σ → Response × World σ
  /-- Offers a window onto the storage behind some addresses around the range, or none. -/
  window : AddressRange → Attributes → World σ → Option DirectWindow × World σ
  /-- A buffer keeps its length. -/
  length_read : ∀ range attributes buffer world,
    (read range attributes buffer world).2.1.length = buffer.length

namespace Target

/-- The target of an address where nothing is: no access succeeds and no window is offered. -/
def silent (σ : Type u) : Target σ where
  read := fun _ _ buffer world => (.addressError, buffer, world)
  write := fun _ _ _ world => (.addressError, world)
  window := fun _ _ world => (none, world)
  length_read := fun _ _ _ _ => rfl

end Target

end Interconnect
