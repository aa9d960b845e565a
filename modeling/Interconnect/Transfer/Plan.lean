import Interconnect.Bytes

/-!
# The plan of a transfer

A gate breaks the transfer that a transaction asks for into pieces, each a contiguous run of bytes
at a contiguous run of addresses.  A streaming transfer repeats at one address, pulse by pulse; a
byte-enable mask leaves only the bytes of a pulse whose mask byte is not zero.

## Main Definitions

* `Piece` — one contiguous part of a transfer
* `runs` — the maximal runs of enabled places in a row of flags
* `pulseRuns` — the runs of one pulse
* `plan` — the pieces of a transfer in order
-/

namespace Interconnect

/-- **One contiguous part of a transfer.** -/
structure Piece where
  /-- The first address. -/
  address : UInt64
  /-- The place of the first byte in the buffer. -/
  offset : Nat
  /-- The number of bytes. -/
  length : Nat
deriving DecidableEq, Repr

/-- **The maximal runs of enabled places,** as first place and length, where the row of flags starts
at place `i`. -/
def runs : (i : Nat) → List Bool → List (Nat × Nat)
  | _, [] => []
  | i, false :: flags => runs (i + 1) flags
  | i, true :: flags =>
    match runs (i + 1) flags with
    | [] => [(i, 1)]
    | (first, length) :: rest =>
      if first = i + 1 then (i, length + 1) :: rest else (i, 1) :: (first, length) :: rest

@[simp] theorem runs_nil (i : Nat) : runs i [] = [] := rfl

@[simp] theorem runs_false (i : Nat) (flags : List Bool) :
    runs i (false :: flags) = runs (i + 1) flags := rfl

/-- The bytes in one pulse: the streaming width if it is shorter than the transfer, and the whole
transfer otherwise. -/
def pulseWidth (length : Nat) (streamingWidth : Option Nat) : Nat :=
  match streamingWidth with
  | some w => if 0 < w ∧ w < length then w else length
  | none => length

/-- Whether the byte at a place of a pulse takes part.  A mask is repeated over the pulse, and one
without a byte enables all. -/
def isEnabled (byteEnable : Option Bytes) (place : Nat) : Bool :=
  match byteEnable with
  | none | some [] => true
  | some (b :: mask) => (b :: mask).getD (place % (mask.length + 1)) 0 != 0

/-- **The runs of enabled bytes in one pulse.**  Without a mask the whole pulse is one run. -/
def pulseRuns (width : Nat) (byteEnable : Option Bytes) : List (Nat × Nat) :=
  match byteEnable with
  | none | some [] => if width = 0 then [] else [(0, width)]
  | some (_ :: _) => runs 0 ((List.range width).map (isEnabled byteEnable))

/-- **The pieces of a transfer in order:** for each pulse the maximal runs of its enabled bytes.
Addresses are those of the first pulse, and places in the buffer advance from pulse to pulse.  What
a transfer holds beyond its last whole pulse takes no part. -/
def plan (address : UInt64) (length : Nat) (streamingWidth : Option Nat)
    (byteEnable : Option Bytes) : List Piece :=
  let width := pulseWidth length streamingWidth
  let pulse := pulseRuns width byteEnable
  (List.range (length / width)).flatMap fun k =>
    pulse.map fun run => ⟨address + UInt64.ofNat run.1, k * width + run.1, run.2⟩

/-- A row of enabled places is one run. -/
theorem runs_replicate_true (i n : Nat) : runs i (List.replicate (n + 1) true) = [(i, n + 1)] := by
  induction n generalizing i with
  | zero => rfl
  | succ n ih => rw [List.replicate_succ, runs, ih]; simp

/-- With or without a mask, the runs of a pulse are those of its enabled places. -/
theorem pulseRuns_eq (width : Nat) (byteEnable : Option Bytes) :
    pulseRuns width byteEnable = runs 0 ((List.range width).map (isEnabled byteEnable)) := by
  have unmasked : (if width = 0 then [] else [(0, width)]) =
      runs 0 ((List.range width).map fun _ => true) := by
    cases width with
    | zero => rfl
    | succ n => rw [List.map_const', List.length_range, runs_replicate_true]; simp
  unfold pulseRuns
  split
  · exact unmasked
  · exact unmasked
  · rfl

end Interconnect
