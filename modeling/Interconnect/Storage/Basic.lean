import Interconnect.Bytes
import Interconnect.Table

/-!
# Host storage

Behind the addresses of the interconnect lie blocks of host storage.  A host pointer names a place
in one of them, or none at all, and can be moved by any number of bytes; whether it still lies
inside its block matters only when bytes are moved through it.

## Main Definitions

* `HostPointer` — a place in a block, or a bare host address that belongs to no block
* `StorageBank` — the blocks with their contents
* `StorageBank.load`, `StorageBank.store` — moving bytes through a pointer

### Pointers without a block

A pointer that belongs to no block is only a number, and zero is the null pointer.  Moving the null
pointer gives another such number, so a pointer that was null at one address need not be null at the
next.  Bytes that no block holds read as zero, and storing to them is lost.
-/

namespace Interconnect

/-- The number of a block of host storage. -/
abbrev StorageId := Nat

/-- **A place in host storage.**  Pointers into different blocks are never equal, and neither is
reached from the other by moving it. -/
structure HostPointer where
  /-- The block pointed into, or none for a bare address. -/
  storage : Option StorageId
  /-- The distance from the start of the block, or the bare address. -/
  offset : UInt64
deriving DecidableEq

namespace HostPointer

/-- The pointer to nothing. -/
def null : HostPointer := ⟨none, 0⟩

/-- The start of a block. -/
def toBlock (block : StorageId) : HostPointer := ⟨some block, 0⟩

/-- Whether this is the pointer to nothing. -/
def isNull (p : HostPointer) : Bool := p == null

/-- The pointer `count` bytes further on, with the offset taken modulo 2⁶⁴. -/
def advance (p : HostPointer) (count : UInt64) : HostPointer :=
  { p with offset := p.offset + count }

@[simp] theorem storage_advance (p : HostPointer) (count : UInt64) :
    (p.advance count).storage = p.storage := rfl

@[simp] theorem offset_advance (p : HostPointer) (count : UInt64) :
    (p.advance count).offset = p.offset + count := rfl

@[simp] theorem advance_zero (p : HostPointer) : p.advance 0 = p := by simp [advance]

@[simp] theorem advance_advance (p : HostPointer) (m n : UInt64) :
    (p.advance m).advance n = p.advance (m + n) := by simp [advance, UInt64.add_assoc]

theorem advance_inj {p q : HostPointer} {n : UInt64} : p.advance n = q.advance n ↔ p = q := by
  obtain ⟨block, offset⟩ := p
  obtain ⟨block', offset'⟩ := q
  simp [advance]

end HostPointer

/-- **The blocks of host storage.** -/
structure StorageBank where
  /-- The contents of each block. -/
  blocks : Table Bytes

namespace StorageBank

/-- The bank without a block. -/
def empty : StorageBank := ⟨Table.empty⟩

/-- The contents of a block. -/
def contents (bank : StorageBank) (block : StorageId) : Bytes := (bank.blocks.find? block).getD []

/-- Replaces the contents of a block. -/
def setContents (bank : StorageBank) (block : StorageId) (bytes : Bytes) : StorageBank :=
  ⟨bank.blocks.insert block bytes⟩

/-- A new block with the given contents. -/
def allocate (bank : StorageBank) (bytes : Bytes) : StorageId × StorageBank :=
  (bank.blocks.fresh, bank.setContents bank.blocks.fresh bytes)

/-- The `count` bytes from `p` on; those that no block holds are zero. -/
def load (bank : StorageBank) (p : HostPointer) (count : Nat) : Bytes :=
  let found := match p.storage with
    | some block => (bank.contents block).slice p.offset.toNat count
    | none => []
  found ++ List.replicate (count - found.length) 0

/-- Stores `data` from `p` on; bytes that no block holds are lost. -/
def store (bank : StorageBank) (p : HostPointer) (data : Bytes) : StorageBank :=
  match p.storage with
  | some block =>
    bank.setContents block ((bank.contents block).overwrite p.offset.toNat data)
  | none => bank

@[simp] theorem contents_setContents (bank : StorageBank) (block : StorageId) (bytes : Bytes)
    (other : StorageId) :
    (bank.setContents block bytes).contents other =
      if other = block then bytes else bank.contents other := by
  simp only [contents, setContents, Table.find?_insert]
  split <;> rfl

@[simp] theorem length_load (bank : StorageBank) (p : HostPointer) (count : Nat) :
    (bank.load p count).length = count := by
  unfold load
  split
  · simp only [List.length_append, Bytes.length_slice, List.length_replicate]
    omega
  · simp

/-- Storing never changes the length of a block. -/
@[simp] theorem length_contents_store (bank : StorageBank) (p : HostPointer) (data : Bytes)
    (block : StorageId) :
    ((bank.store p data).contents block).length = (bank.contents block).length := by
  unfold store
  split
  · next target _ =>
      rw [contents_setContents]
      split
      · next same => simp [same]
      · rfl
  · rfl

end StorageBank

end Interconnect
