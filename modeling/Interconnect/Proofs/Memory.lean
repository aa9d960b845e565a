import Interconnect.Endpoint.Memory
import Interconnect.Proofs.Window.Basic

/-!
# Memory and the storage behind it

## Main Definitions

* `Memory.serve` — the answer to any command

## Main Statements

* `mem_extent_iff` — the addresses of a memory are the places in its block
* `exists_maps_window_iff` — its window maps each address to that place
* `read_replicate_zero` — a read gives the bytes that a pointer to the place would give
* `StorageBank.load_setContents_of_apart` — what is stored elsewhere does not matter
-/

namespace Interconnect

/-! ### Runs of bytes -/

namespace Bytes

/-- A run may be replaced as a whole. -/
theorem overwrite_zero {bytes data : Bytes} (same : data.length = bytes.length) :
    bytes.overwrite 0 data = data := by
  simp [overwrite, same, List.take_of_length_le (Nat.le_of_eq same)]

/-- A slice of a whole run is the run. -/
theorem slice_zero_length (bytes : Bytes) : bytes.slice 0 bytes.length = bytes := by
  simp [slice]

/-- **What is written elsewhere does not change a slice.** -/
theorem slice_overwrite_of_apart {bytes data : Bytes} {offset place count : Nat}
    (apart : place + count ≤ offset ∨ offset + data.length ≤ place) :
    (bytes.overwrite offset data).slice place count = bytes.slice place count := by
  refine List.ext_getElem? fun i => ?_
  rw [getElem?_slice, getElem?_slice]
  split
  · rw [getElem?_overwrite, if_neg (by omega)]
  · rfl

end Bytes

namespace StorageBank

/-- What a pointer into a block gives: the bytes there, and zeros behind the end. -/
theorem load_toBlock (bank : StorageBank) (block : StorageId) (place : UInt64) (count : Nat) :
    bank.load ((HostPointer.toBlock block).advance place) count =
      (bank.contents block).slice place.toNat count ++
        List.replicate (count - ((bank.contents block).slice place.toNat count).length) 0 := by
  simp [load, HostPointer.toBlock, HostPointer.advance]

/-- **What is written elsewhere in a block does not change what a pointer gives.** -/
theorem load_setContents_of_apart {bank : StorageBank} {block : StorageId} {place : UInt64}
    {offset count : Nat} {data : Bytes}
    (apart : place.toNat + count ≤ offset ∨ offset + data.length ≤ place.toNat) :
    (bank.setContents block ((bank.contents block).overwrite offset data)).load
        ((HostPointer.toBlock block).advance place) count =
      bank.load ((HostPointer.toBlock block).advance place) count := by
  rw [load_toBlock, load_toBlock, contents_setContents, if_pos rfl,
    Bytes.slice_overwrite_of_apart apart]

end StorageBank

namespace Memory

theorem extent_eq_some_iff {m : Memory} {bank : StorageBank} {range : AddressRange} :
    m.extent bank = some range ↔
      (m.contents bank).length ≠ 0 ∧ (m.contents bank).length ≤ UInt64.size ∧ range.start = 0 ∧
        range.last.toNat = (m.contents bank).length - 1 := by
  rw [extent, toOption_eq_some_iff]
  by_cases hollow : (m.contents bank).length = 0
  · simp [hollow, AddressRange.ofSize]
  · rw [AddressRange.ofSize_eq_ok_iff hollow]
    simp only [UInt64.toNat_zero, Nat.zero_add, hollow, ne_eq, not_false_eq_true, true_and]
    have whole : UInt64.size ≠ 0 := by decide
    constructor
    · rintro ⟨fits, start, last⟩
      exact ⟨by omega, start, last⟩
    · rintro ⟨fits, start, last⟩
      exact ⟨by omega, start, last⟩

/-- The addresses depend on the length of the block only. -/
theorem extent_congr {m n : Memory} {bank other : StorageBank}
    (same : (n.contents other).length = (m.contents bank).length) :
    n.extent other = m.extent bank := by
  rw [extent, same, extent]

/-- **The addresses of a memory are the places in its block.** -/
theorem mem_extent_iff {m : Memory} {bank : StorageBank} {range : AddressRange}
    (h : m.extent bank = some range) {a : UInt64} :
    a ∈ range ↔ a.toNat < (m.contents bank).length := by
  obtain ⟨nonempty, -, start, last⟩ := extent_eq_some_iff.1 h
  simp only [AddressRange.mem_iff, UInt64.le_iff_toNat_le, start, last, UInt64.toNat_zero]
  omega

/-- **A window of a memory maps each address to the place in the block.** -/
theorem exists_maps_window_iff {m : Memory} {bank : StorageBank} {range : AddressRange}
    {w : DirectWindow} (h : m.window bank range = some w) :
    ∃ extent, m.extent bank = some extent ∧ ∀ a q p, w.Maps a q p ↔
      a ∈ extent ∧ q = m.permission ∧ p = (HostPointer.toBlock m.block).advance a := by
  obtain ⟨extent, known, h⟩ := Option.bind_eq_some_iff.1 h
  obtain ⟨-, -, start, -⟩ := extent_eq_some_iff.1 known
  split at h
  · cases h
    refine ⟨extent, known, fun a q p => ?_⟩
    simp only [DirectWindow.Maps, DirectWindow.pointerFor, start, UInt64.sub_zero, eq_comm]
  · cases h

/-- The permission to write is given only by a memory that stores what is written. -/
theorem allows_write_permission_iff {m : Memory} :
    m.permission.allows .write = true ↔ m.readOnly = false ∧ m.discardWrites = false := by
  unfold permission
  cases m.readOnly <;> cases m.discardWrites <;> decide

/-- A range lies within a memory if its last address does. -/
theorem holds_of_last_lt {m : Memory} {bank : StorageBank} {range : AddressRange}
    (ordered : range.start ≤ range.last)
    (inside : range.last.toNat < (m.contents bank).length) : m.holds bank range = true := by
  have ordered := UInt64.le_iff_toNat_le.1 ordered
  have short : range.length.toNat ≤ range.size := by
    rw [AddressRange.length, UInt64.toNat_ofNat']
    exact Nat.le_trans (Nat.mod_le _ _) (Nat.min_le_left _ _)
  rw [AddressRange.size] at short
  rw [holds, decide_eq_true_eq]
  omega

/-! ### Answers -/

/-- **The answer of a memory to any command:** the response, the buffer, and the storage. -/
def serve (m : Memory) (bank : StorageBank) (command : Command) (range : AddressRange)
    (debug : Bool) (data : Bytes) : Response × Bytes × StorageBank :=
  match command with
  | .read => ((m.read bank range data).1, (m.read bank range data).2, bank)
  | .write => ((m.write bank range debug data).1, data, (m.write bank range debug data).2)
  | .ignore => (.ok, data, bank)

/-- A memory answers. -/
theorem serve_ne_incomplete (m : Memory) (bank : StorageBank) (command : Command)
    (range : AddressRange) (debug : Bool) (data : Bytes) :
    (m.serve bank command range debug data).1 ≠ .incomplete := by
  cases command with
  | read =>
      simp only [serve, read]
      split <;> simp
  | write =>
      simp only [serve, write]
      split
      · simp
      · split
        · simp
        · split <;> simp
  | ignore => simp [serve]

/-- Only a successful write changes the storage. -/
theorem storage_serve (m : Memory) (bank : StorageBank) (command : Command) (range : AddressRange)
    (debug : Bool) (data : Bytes) :
    (m.serve bank command range debug data).2.2 = bank ∨
      command = .write ∧ (m.serve bank command range debug data).1 = .ok ∧
        (m.serve bank command range debug data).2.2 =
          bank.setContents m.block ((m.contents bank).overwrite range.start.toNat data) := by
  cases command with
  | read => exact .inl rfl
  | write =>
      simp only [serve, write, true_and]
      split
      · exact .inl rfl
      · split
        · exact .inl rfl
        · split
          · exact .inl rfl
          · exact .inr ⟨rfl, rfl⟩
  | ignore => exact .inl rfl

/-- A read or write that succeeds lies within the memory. -/
theorem holds_of_serve {m : Memory} {bank : StorageBank} {command : Command} {range : AddressRange}
    {debug : Bool} {data : Bytes} (moves : command ≠ .ignore)
    (h : (m.serve bank command range debug data).1 = .ok) : m.holds bank range = true := by
  cases command with
  | read =>
      simp only [serve, read] at h
      split at h
      · assumption
      · cases h
  | write =>
      simp only [serve, write] at h
      split at h
      · cases h
      · next inside => simpa using inside
  | ignore => exact absurd rfl moves

/-- **A memory carries out what lies within it,** unless it does not store what is written. -/
theorem serve_eq_ok {m : Memory} {bank : StorageBank} {command : Command} {range : AddressRange}
    (inside : m.holds bank range = true)
    (stores : command = .write → m.readOnly = false ∧ m.discardWrites = false) (debug : Bool)
    (data : Bytes) : (m.serve bank command range debug data).1 = .ok := by
  cases command with
  | read => simp [serve, read, inside]
  | write =>
      obtain ⟨writable, kept⟩ := stores rfl
      simp [serve, write, inside, writable, kept]
  | ignore => rfl

/-- Serving a command changes no length. -/
theorem length_contents_serve (m : Memory) (bank : StorageBank) (command : Command)
    (range : AddressRange) (debug : Bool) (data : Bytes) :
    (m.contents (m.serve bank command range debug data).2.2).length = (m.contents bank).length := by
  rcases m.storage_serve bank command range debug data with same | ⟨-, -, stored⟩
  · rw [same]
  · rw [stored]
    simp [contents]

/-- **A read gives the bytes that a pointer to the place would give.** -/
theorem read_replicate_zero {m : Memory} {bank : StorageBank} {range : AddressRange}
    (inside : m.holds bank range = true) (count : Nat) :
    m.read bank range (List.replicate count 0) =
      (.ok, bank.load ((HostPointer.toBlock m.block).advance range.start) count) := by
  rw [read, if_pos inside, StorageBank.load_toBlock]
  have short : ((bank.contents m.block).slice range.start.toNat count).length ≤ count := by
    rw [Bytes.length_slice]
    exact Nat.min_le_left _ _
  simp [Bytes.overwrite, contents, List.take_of_length_le short]

/-- A memory changes its own block only. -/
theorem contents_serve_of_ne {m : Memory} {bank : StorageBank} {command : Command}
    {range : AddressRange} {debug : Bool} {data : Bytes} {block : StorageId}
    (other : block ≠ m.block) :
    (m.serve bank command range debug data).2.2.contents block = bank.contents block := by
  rcases m.storage_serve bank command range debug data with same | ⟨-, -, stored⟩
  · rw [same]
  · rw [stored, StorageBank.contents_setContents, if_neg other]

/-- A read that is served gives the bytes of the memory. -/
theorem buffer_serve_read {m : Memory} {bank : StorageBank} {range : AddressRange} {debug : Bool}
    {count : Nat} (ok : (m.serve bank .read range debug (List.replicate count 0)).1 = .ok) :
    (m.serve bank .read range debug (List.replicate count 0)).2.1 =
      bank.load ((HostPointer.toBlock m.block).advance range.start) count :=
  congrArg Prod.snd (read_replicate_zero (holds_of_serve (by decide) ok) count)

end Memory

end Interconnect
