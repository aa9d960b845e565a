import Interconnect.Fault
import Interconnect.Target
import Interconnect.Withdrawal.Network

/-!
# Memory

A memory is a block of host storage whose addresses are the places in the block.  The block never
moves, so the memory offers all of it as one direct window.

## Main Definitions

* `Memory` — the block and how it may be written
* `Memory.read`, `Memory.write`, `Memory.window` — the answers to accesses
* `Memory.load`, `Memory.fill` — what its user may do with the contents
* `Memory.target` — a memory as the only target of a world

### Writes that are not stored

Read-only memory refuses writes and memory that discards them answers success without storing, but
debug writes are stored in either case.  Direct windows onto such memory can only be read.
-/

namespace Interconnect

/-- **A block of host storage behind addresses from zero on.** -/
structure Memory where
  /-- The block. -/
  block : StorageId
  /-- Writes are refused. -/
  readOnly : Bool
  /-- Writes succeed and store nothing. -/
  discardWrites : Bool
  /-- The byte that a reset leaves everywhere. -/
  poison : UInt8
  /-- The handles of everyone who may hold windows, in order of attachment. -/
  handles : List HandleId
deriving DecidableEq

namespace Memory

/-- Writable memory over a block. -/
def ofBlock (block : StorageId) : Memory := ⟨block, false, false, 0, []⟩

/-- The bytes of the memory. -/
def contents (m : Memory) (bank : StorageBank) : Bytes := bank.contents m.block

/-- All addresses of the memory; there is no such range if it has none. -/
def extent (m : Memory) (bank : StorageBank) : Option AddressRange :=
  (AddressRange.ofSize 0 (m.contents bank).length).toOption

/-- Whether a range ends within the memory. -/
def holds (m : Memory) (bank : StorageBank) (range : AddressRange) : Bool :=
  range.start.toNat + range.length.toNat ≤ (m.contents bank).length

/-- The commands that a window onto the memory serves. -/
def permission (m : Memory) : Permission :=
  if m.readOnly || m.discardWrites then .readOnly else .readWrite

/-! ### Accesses -/

/-- Reads into a buffer. -/
def read (m : Memory) (bank : StorageBank) (range : AddressRange) (buffer : Bytes) :
    Response × Bytes :=
  if m.holds bank range then
    (.ok, buffer.overwrite 0 ((m.contents bank).slice range.start.toNat buffer.length))
  else (.addressError, buffer)

/-- **Writes bytes.**  The range is checked before the permission to write. -/
def write (m : Memory) (bank : StorageBank) (range : AddressRange) (debug : Bool) (data : Bytes) :
    Response × StorageBank :=
  if !m.holds bank range then (.addressError, bank)
  else if !debug && m.readOnly then (.commandError, bank)
  else if !debug && m.discardWrites then (.ok, bank)
  else
    (.ok, bank.setContents m.block ((m.contents bank).overwrite range.start.toNat data))

/-- **The window over the whole memory,** for a request that lies in it. -/
def window (m : Memory) (bank : StorageBank) (range : AddressRange) : Option DirectWindow :=
  (m.extent bank).bind fun extent =>
    if extent.contains range then some ⟨extent, .toBlock m.block, m.permission⟩ else none

@[simp] theorem length_read (m : Memory) (bank : StorageBank) (range : AddressRange)
    (buffer : Bytes) : (m.read bank range buffer).2.length = buffer.length := by
  unfold read
  split <;> simp

/-! ### What its user may do -/

/-- Stores bytes from an offset on, whether or not the memory is writable. -/
def load (m : Memory) (bank : StorageBank) (offset : UInt64) (bytes : Bytes) :
    Except Fault StorageBank :=
  let contents := m.contents bank
  if offset.toNat + bytes.length ≤ contents.length then
    .ok (bank.setContents m.block (contents.overwrite offset.toNat bytes))
  else .error (.outOfBounds offset bytes.length contents.length)

/-- Sets every byte to the poison. -/
def fill (m : Memory) (bank : StorageBank) : StorageBank :=
  bank.setContents m.block (List.replicate (m.contents bank).length m.poison)

/-! ### A world of one memory -/

/-- **A memory as the only target of a world.** -/
def target : Target Memory where
  read := fun range _ buffer world =>
    let (response, bytes) := world.state.read world.storage range buffer
    (response, bytes, world)
  write := fun range attributes data world =>
    let (response, storage) := world.state.write world.storage range attributes.debug data
    (response, { world with storage := storage })
  window := fun range _ world => (world.state.window world.storage range, world)
  length_read := by simp

end Memory

end Interconnect
