/-!
# Runs of bytes

Storage, transfer buffers and byte-enable masks are runs of bytes.  Two operations on them carry all
data that moves through the interconnect: cutting out a slice and writing one back.

## Main Definitions

* `Bytes.slice` — the bytes from an offset on
* `Bytes.overwrite` — the same run with some bytes replaced, never longer or shorter
-/

namespace Interconnect

/-- A run of bytes. -/
abbrev Bytes := List UInt8

namespace Bytes

/-- The `count` bytes from `offset` on, fewer where the run ends before. -/
def slice (bytes : Bytes) (offset count : Nat) : Bytes := (bytes.drop offset).take count

/-- **The run with `data` written at `offset`.**  What would lie beyond the end is dropped, so the
length stays. -/
def overwrite (bytes : Bytes) (offset : Nat) (data : Bytes) : Bytes :=
  bytes.take offset ++ (data.take (bytes.length - offset) ++ bytes.drop (offset + data.length))

@[simp] theorem length_slice (bytes : Bytes) (offset count : Nat) :
    (bytes.slice offset count).length = min count (bytes.length - offset) := by
  simp [slice]

@[simp] theorem length_overwrite (bytes : Bytes) (offset : Nat) (data : Bytes) :
    (bytes.overwrite offset data).length = bytes.length := by
  simp only [overwrite, List.length_append, List.length_take, List.length_drop]
  omega

theorem getElem?_slice (bytes : Bytes) (offset count i : Nat) :
    (bytes.slice offset count)[i]? = if i < count then bytes[offset + i]? else none := by
  simp [slice, List.getElem?_take]

/-- A byte of the overwritten run is the new one where `data` covers it. -/
theorem getElem?_overwrite (bytes : Bytes) (offset : Nat) (data : Bytes) (i : Nat) :
    (bytes.overwrite offset data)[i]? =
      if offset ≤ i ∧ i < offset + data.length ∧ i < bytes.length then data[i - offset]?
      else bytes[i]? := by
  simp only [overwrite, List.getElem?_append, List.length_take, List.getElem?_take,
    List.getElem?_drop]
  grind

end Bytes

end Interconnect
