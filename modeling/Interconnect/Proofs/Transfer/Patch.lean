import Mathlib.Algebra.GroupWithZero.Nat
import Interconnect.Proofs.Transfer.Plan

/-!
# Bytes that are moved one piece after another

Writing runs of bytes into a buffer one after another leaves, at each place, the byte of the last
run that covers it.  The pieces of a transfer are written so: into the buffer for a read, and into
the storage for a write, where every pulse falls on the same addresses.

## Main Definitions

* `Bytes.patch` — a buffer into which runs of bytes have been written one after another
* `Piece.fetch`, `Piece.store` — the run that a piece brings from a storage or to it

## Main Statements

* `Bytes.getElem?_patch_of_last` — the last run that covers a place counts
* `exists_last_of_takesPart`, `exists_last_of_place` — the last piece of a transfer that covers a
  byte of the buffer, and the last that meets an address
* `sum_length_plan` — how many bytes a transfer moves
* `getElem?_patch_fetch`, `getElem?_patch_store` — where the bytes of a transfer go
-/

namespace Interconnect

/-! ### Buffers -/

namespace Bytes

/-- A slice is what was written there. -/
theorem slice_overwrite {bytes data : Bytes} {offset count : Nat}
    (fits : data.length = (bytes.slice offset count).length) :
    (bytes.overwrite offset data).slice offset count = data := by
  rw [length_slice] at fits
  refine List.ext_getElem? fun i => ?_
  rw [getElem?_slice, getElem?_overwrite]
  by_cases inside : i < data.length
  · rw [if_pos (by omega), if_pos (by omega), Nat.add_sub_cancel_left]
  · rw [List.getElem?_eq_none (Nat.not_lt.1 inside)]
    split
    · rw [if_neg (by omega), List.getElem?_eq_none (by omega)]
    · rfl

/-- A slice that is written back changes nothing. -/
theorem overwrite_slice (bytes : Bytes) (offset count : Nat) :
    bytes.overwrite offset (bytes.slice offset count) = bytes := by
  refine List.ext_getElem? fun i => ?_
  rw [getElem?_overwrite, length_slice]
  split
  · next inside =>
      rw [getElem?_slice, if_pos (by omega), Nat.add_sub_cancel' inside.1]
  · rfl

/-- **The buffer after all the runs of bytes have been written,** each at its place, one after
another. -/
def patch (bytes : Bytes) : List (Nat × Bytes) → Bytes
  | [] => bytes
  | (offset, data) :: rest => (bytes.overwrite offset data).patch rest

@[simp] theorem patch_cons (bytes : Bytes) (offset : Nat) (data : Bytes)
    (rest : List (Nat × Bytes)) :
    bytes.patch ((offset, data) :: rest) = (bytes.overwrite offset data).patch rest := rfl

theorem patch_append (bytes : Bytes) (first later : List (Nat × Bytes)) :
    bytes.patch (first ++ later) = (bytes.patch first).patch later := by
  induction first generalizing bytes with
  | nil => rfl
  | cons write rest ih => exact ih _

@[simp] theorem length_patch (bytes : Bytes) (writes : List (Nat × Bytes)) :
    (bytes.patch writes).length = bytes.length := by
  induction writes generalizing bytes with
  | nil => rfl
  | cons write rest ih => rw [patch_cons, ih, length_overwrite]

/-- **A place that no run covers keeps its byte.** -/
theorem getElem?_patch_of_apart {bytes : Bytes} {writes : List (Nat × Bytes)} {i : Nat}
    (apart : ∀ write ∈ writes, ¬ (write.1 ≤ i ∧ i < write.1 + write.2.length)) :
    (bytes.patch writes)[i]? = bytes[i]? := by
  induction writes generalizing bytes with
  | nil => rfl
  | cons write rest ih =>
      obtain ⟨offset, data⟩ := write
      have first := apart _ List.mem_cons_self
      rw [patch_cons, ih fun other mem => apart other (List.mem_cons_of_mem _ mem),
        getElem?_overwrite, if_neg fun inside => first ⟨inside.1, inside.2.1⟩]

/-- **A place holds what the last run that covers it has there.** -/
theorem getElem?_patch_of_last {bytes data : Bytes} {before later : List (Nat × Bytes)}
    {offset i : Nat} (covers : offset ≤ i ∧ i < offset + data.length) (inside : i < bytes.length)
    (apart : ∀ write ∈ later, ¬ (write.1 ≤ i ∧ i < write.1 + write.2.length)) :
    (bytes.patch (before ++ (offset, data) :: later))[i]? = data[i - offset]? := by
  rw [patch_append, patch_cons, getElem?_patch_of_apart apart, getElem?_overwrite, length_patch,
    if_pos ⟨covers.1, covers.2, inside⟩]

end Bytes

/-! ### Pieces and the bytes that they move -/

section Plan

variable {address : UInt64} {length : Nat} {streamingWidth : Option Nat} {byteEnable : Option Bytes}

/-- What a piece covers takes part. -/
theorem takesPart_of_covers {piece : Piece} {i : Nat}
    (h : piece ∈ plan address length streamingWidth byteEnable) (covers : piece.Covers i) :
    i < length / pulseWidth length streamingWidth * pulseWidth length streamingWidth ∧
      TakesPart byteEnable (i % pulseWidth length streamingWidth) := by
  refine Decidable.byContradiction fun idle => ?_
  have none := @countP_covers_plan address length streamingWidth byteEnable i
  rw [if_neg idle, List.countP_eq_zero] at none
  exact none piece h (decide_eq_true covers)

/-- **A byte that takes part is in a piece, and all later pieces start behind it.** -/
theorem exists_last_of_takesPart {i : Nat}
    (whole : i < length / pulseWidth length streamingWidth * pulseWidth length streamingWidth)
    (takes : TakesPart byteEnable (i % pulseWidth length streamingWidth)) :
    ∃ before piece later, plan address length streamingWidth byteEnable = before ++ piece :: later ∧
      piece.Covers i ∧ ∀ other ∈ later, i < other.offset := by
  have once := @countP_covers_plan address length streamingWidth byteEnable i
  rw [if_pos ⟨whole, takes⟩] at once
  obtain ⟨piece, planned, covers⟩ := List.countP_pos_iff.1 (once ▸ Nat.one_pos)
  obtain ⟨before, later, parts⟩ := List.append_of_mem planned
  have ordered := @pairwise_plan address length streamingWidth byteEnable
  rw [parts] at ordered
  have behind := (List.pairwise_cons.1 (List.pairwise_append.1 ordered).2.1).1
  have covers := of_decide_eq_true covers
  exact ⟨before, piece, later, parts, covers, fun other mem =>
    Nat.lt_of_lt_of_le covers.2 (behind other mem).1⟩

/-! ### How many bytes are moved -/

/-- The runs of a row of flags have as many places as are enabled. -/
theorem sum_length_runs (i : Nat) (flags : List Bool) :
    ((runs i flags).map Prod.snd).sum = flags.countP id := by
  induction flags generalizing i with
  | nil => rfl
  | cons flag flags ih =>
      have rest := ih (i + 1)
      cases flag with
      | false => simpa using rest
      | true =>
          rcases runs_true_cases i flags with ⟨length, tail, behind, joined⟩ | ⟨-, alone⟩
          · rw [behind, List.map_cons, List.sum_cons] at rest
            rw [joined, List.map_cons, List.sum_cons, List.countP_cons_of_pos rfl, ← rest]
            omega
          · rw [alone, List.map_cons, List.sum_cons, List.countP_cons_of_pos rfl, rest]
            exact Nat.add_comm 1 _

/-- The runs of a pulse have as many places as take part. -/
theorem sum_length_pulseRuns (width : Nat) (byteEnable : Option Bytes) :
    ((pulseRuns width byteEnable).map Prod.snd).sum =
      (List.range width).countP fun place => TakesPart byteEnable place := by
  rw [pulseRuns_eq, sum_length_runs, List.countP_map]
  refine List.countP_congr fun place _ => ?_
  rw [decide_eq_true_iff]
  exact isEnabled_eq_true_iff

/-- **A transfer moves, in each whole pulse, the bytes that take part.** -/
theorem sum_length_plan : ((plan address length streamingWidth byteEnable).map Piece.length).sum =
    length / pulseWidth length streamingWidth *
      (List.range (pulseWidth length streamingWidth)).countP fun place =>
        TakesPart byteEnable place := by
  simp only [plan]
  generalize pulseWidth length streamingWidth = width
  rw [← sum_length_pulseRuns]
  generalize length / width = pulses
  induction pulses with
  | zero => simp
  | succ pulses ih =>
      rw [List.range_succ, List.flatMap_append, List.map_append, List.sum_append, ih,
        List.flatMap_singleton, List.map_map, Nat.succ_mul]
      rfl

/-! ### Between a buffer and a storage -/

/-- The run of bytes that a piece brings from a storage to the buffer. -/
def Piece.fetch (storage : Bytes) (piece : Piece) : Nat × Bytes :=
  (piece.offset, storage.slice piece.address.toNat piece.length)

/-- The run of bytes that a piece brings from the buffer to a storage. -/
def Piece.store (data : Bytes) (piece : Piece) : Nat × Bytes :=
  (piece.address.toNat, data.slice piece.offset piece.length)

theorem Piece.length_fetch_le (storage : Bytes) (piece : Piece) :
    (piece.fetch storage).2.length ≤ piece.length := by
  rw [fetch, Bytes.length_slice]
  exact Nat.min_le_left _ _

theorem Piece.length_store_le (data : Bytes) (piece : Piece) :
    (piece.store data).2.length ≤ piece.length := by
  rw [store, Bytes.length_slice]
  exact Nat.min_le_left _ _

/-- Addresses of a pulse that fits do not wrap around. -/
theorem toNat_address_of_mem_plan
    (spans : address.toNat + (pulseWidth length streamingWidth - 1) < UInt64.size) {piece : Piece}
    (h : piece ∈ plan address length streamingWidth byteEnable) :
    piece.address.toNat = address.toNat + piece.offset % pulseWidth length streamingWidth := by
  obtain ⟨positive, pulse, -, start⟩ := spec_of_mem_plan h
  generalize pulseWidth length streamingWidth = width at *
  rw [start, UInt64.toNat_add, UInt64.toNat_ofNat']
  rw [UInt64.size] at spans
  omega

/-- The place in the pulse of a byte that a piece covers. -/
theorem Piece.Covers.mod_eq {piece : Piece} {i width : Nat} (h : piece.Covers i)
    (pulse : piece.offset % width + piece.length ≤ width) :
    i % width = piece.offset % width + (i - piece.offset) := by
  obtain ⟨first, last⟩ := h
  have parts : i = width * (piece.offset / width) +
      (piece.offset % width + (i - piece.offset)) := by
    rw [← Nat.add_assoc, Nat.div_add_mod, Nat.add_sub_cancel' first]
  calc i % width
      = (width * (piece.offset / width) + (piece.offset % width + (i - piece.offset))) % width :=
        congrArg (fun place => place % width) parts
    _ = piece.offset % width + (i - piece.offset) := by
        rw [Nat.mul_add_mod, Nat.mod_eq_of_lt (by omega)]

/-- **What a transfer brings to the buffer:** each byte that takes part is the one at its place in
the pulse, and the others stay. -/
theorem getElem?_patch_fetch {storage data : Bytes}
    (spans : address.toNat + (pulseWidth length streamingWidth - 1) < UInt64.size)
    (inside : address.toNat + pulseWidth length streamingWidth ≤ storage.length)
    (long : length ≤ data.length) (i : Nat) :
    (data.patch ((plan address length streamingWidth byteEnable).map (Piece.fetch storage)))[i]? =
      if i < length / pulseWidth length streamingWidth * pulseWidth length streamingWidth ∧
          TakesPart byteEnable (i % pulseWidth length streamingWidth) then
        storage[address.toNat + i % pulseWidth length streamingWidth]?
      else data[i]? := by
  split
  · next takes =>
      obtain ⟨before, piece, later, parts, covers, behind⟩ :=
        @exists_last_of_takesPart address length streamingWidth byteEnable i takes.1 takes.2
      have mem : piece ∈ plan address length streamingWidth byteEnable := by
        rw [parts]
        exact List.mem_append_right _ List.mem_cons_self
      obtain ⟨-, pulse, -⟩ := spec_of_mem_plan mem
      have start := toNat_address_of_mem_plan spans mem
      have place := covers.mod_eq pulse
      have short := Nat.div_mul_le_self length (pulseWidth length streamingWidth)
      obtain ⟨first, last⟩ := covers
      have whole : (storage.slice piece.address.toNat piece.length).length = piece.length := by
        rw [Bytes.length_slice]
        omega
      rw [parts, List.map_append, List.map_cons, Piece.fetch,
        Bytes.getElem?_patch_of_last ⟨first, by rwa [whole]⟩ (by omega) ?_, Bytes.getElem?_slice,
        if_pos (by omega), start, place, Nat.add_assoc]
      rw [List.forall_mem_map]
      exact fun other mem covers => Nat.not_le_of_lt (behind other mem) covers.1
  · next idle =>
      apply Bytes.getElem?_patch_of_apart
      rw [List.forall_mem_map]
      rintro piece mem ⟨first, last⟩
      have short := Nat.add_le_add_left (piece.length_fetch_le storage) piece.offset
      exact idle (takesPart_of_covers mem ⟨first, Nat.lt_of_lt_of_le last short⟩)

/-- **The last piece that meets an address** is one of the last pulse. -/
theorem exists_last_of_place
    (spans : address.toNat + (pulseWidth length streamingWidth - 1) < UInt64.size) {place : Nat}
    (inside : place < pulseWidth length streamingWidth) (takes : TakesPart byteEnable place) :
    ∃ before piece later, plan address length streamingWidth byteEnable = before ++ piece :: later ∧
      piece.address.toNat ≤ address.toNat + place ∧
      address.toNat + place < piece.address.toNat + piece.length ∧
      (length / pulseWidth length streamingWidth - 1) * pulseWidth length streamingWidth + place =
        piece.offset + (address.toNat + place - piece.address.toNat) ∧
      ∀ other ∈ later, address.toNat + place < other.address.toNat := by
  obtain ⟨k, pulses⟩ : ∃ k, length / pulseWidth length streamingWidth = k + 1 := by
    refine Nat.exists_eq_add_one.2 (Nat.div_pos ?_ (by omega))
    exact pulseWidth_le length streamingWidth
  rw [pulses, Nat.add_sub_cancel]
  generalize there : k * pulseWidth length streamingWidth + place = i
  have here : i % pulseWidth length streamingWidth = place := by
    rw [← there, Nat.mul_add_mod', Nat.mod_eq_of_lt inside]
  have whole : i < length / pulseWidth length streamingWidth *
      pulseWidth length streamingWidth := by
    rw [pulses, Nat.succ_mul]
    omega
  rw [← here] at takes
  obtain ⟨before, piece, later, parts, covers, behind⟩ :=
    @exists_last_of_takesPart address length streamingWidth byteEnable i whole takes
  have planned : ∀ other, other = piece ∨ other ∈ later →
      other ∈ plan address length streamingWidth byteEnable := by
    intro other mem
    rw [parts]
    exact List.mem_append_right _ (List.mem_cons.2 mem)
  have mem := planned piece (.inl rfl)
  obtain ⟨-, pulse, -⟩ := spec_of_mem_plan mem
  have start := toNat_address_of_mem_plan spans mem
  rw [covers.mod_eq pulse] at here
  obtain ⟨reached, ended⟩ := covers
  refine ⟨before, piece, later, parts, by omega, by omega, by omega, fun other mem => ?_⟩
  -- a later piece is in the last pulse too
  have late := behind other mem
  obtain ⟨positive, -, within, -⟩ := spec_of_mem_plan (planned other (.inr mem))
  have start := toNat_address_of_mem_plan spans (planned other (.inr mem))
  rw [pulses, Nat.succ_mul] at within
  have parts : other.offset = k * pulseWidth length streamingWidth +
    (other.offset - k * pulseWidth length streamingWidth) := by omega
  rw [parts, Nat.mul_add_mod', Nat.mod_eq_of_lt (by omega)] at start
  omega

/-- **What a transfer brings to a storage:** the bytes of the last pulse that take part. -/
theorem getElem?_patch_store {storage data : Bytes}
    (spans : address.toNat + (pulseWidth length streamingWidth - 1) < UInt64.size)
    (inside : address.toNat + pulseWidth length streamingWidth ≤ storage.length)
    (long : length ≤ data.length) (a : Nat) :
    (storage.patch ((plan address length streamingWidth byteEnable).map (Piece.store data)))[a]? =
      if address.toNat ≤ a ∧ a < address.toNat + pulseWidth length streamingWidth ∧
          TakesPart byteEnable (a - address.toNat) then
        data[(length / pulseWidth length streamingWidth - 1) * pulseWidth length streamingWidth +
          (a - address.toNat)]?
      else storage[a]? := by
  split
  · next takes =>
      obtain ⟨first, last, takes⟩ := takes
      obtain ⟨before, piece, later, parts, reached, ended, place, behind⟩ :=
        @exists_last_of_place address length streamingWidth byteEnable spans (a - address.toNat)
          (by omega) takes
      rw [Nat.add_sub_cancel' first] at reached ended place behind
      have full : (data.slice piece.offset piece.length).length = piece.length := by
        have mem : piece ∈ plan address length streamingWidth byteEnable := by
          rw [parts]
          exact List.mem_append_right _ List.mem_cons_self
        obtain ⟨-, -, within, -⟩ := spec_of_mem_plan mem
        have short := Nat.div_mul_le_self length (pulseWidth length streamingWidth)
        rw [Bytes.length_slice]
        omega
      rw [parts, List.map_append, List.map_cons, Piece.store,
        Bytes.getElem?_patch_of_last ⟨reached, by rwa [full]⟩ (by omega) ?_, Bytes.getElem?_slice,
        if_pos (by omega), place]
      rw [List.forall_mem_map]
      exact fun other mem covers => Nat.not_le_of_lt (behind other mem) covers.1
  · next idle =>
      apply Bytes.getElem?_patch_of_apart
      rw [List.forall_mem_map]
      rintro piece mem ⟨first, last⟩
      obtain ⟨-, pulse, -⟩ := spec_of_mem_plan mem
      have start := toNat_address_of_mem_plan spans mem
      have last : a < piece.address.toNat + piece.length :=
        Nat.lt_of_lt_of_le last (Nat.add_le_add_left (piece.length_store_le data) _)
      have first : piece.address.toNat ≤ a := first
      have covers : piece.Covers (piece.offset + (a - piece.address.toNat)) :=
        ⟨Nat.le_add_right _ _, by omega⟩
      have place := covers.mod_eq pulse
      refine idle ⟨by omega, by omega, ?_⟩
      have takes := (takesPart_of_covers mem covers).2
      rwa [place, show piece.offset % pulseWidth length streamingWidth +
        (piece.offset + (a - piece.address.toNat) - piece.offset) = a - address.toNat by omega]
        at takes

end Plan

end Interconnect
