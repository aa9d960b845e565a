import Interconnect.Word

/-!
# Simulated time

A clock counts the cycles that completed accesses cost and tells the time that has passed at its
frequency.

## Main Definitions

* `Clock` — a frequency and the cycles counted so far
* `Clock.charge` — counts cycles, stopping at the greatest word
* `Clock.elapsed` — the time in whole seconds and nanoseconds
-/

namespace Interconnect

/-- **Cycles counted at a fixed frequency.** -/
structure Clock where
  /-- The number of cycles in a second. -/
  frequency : UInt64
  /-- The cycles counted so far. -/
  cycles : UInt64
  /-- A second has at least one cycle. -/
  frequency_ne_zero : frequency ≠ 0
deriving DecidableEq

/-- A span of time. -/
structure Duration where
  /-- The whole seconds. -/
  seconds : UInt64
  /-- The nanoseconds beyond them. -/
  nanoseconds : UInt32
deriving DecidableEq, Repr

/-- Spans are compared by their seconds first. -/
instance : LE Duration where
  le s t := s.seconds < t.seconds ∨ s.seconds = t.seconds ∧ s.nanoseconds ≤ t.nanoseconds

namespace Clock

/-- The clock with a thousand million cycles in a second. -/
def standard : Clock := ⟨1000000000, 0, by decide⟩

instance : Inhabited Clock := ⟨standard⟩

/-- The clock with the given frequency, which must not be zero. -/
def withFrequency (frequency : UInt64) : Option Clock :=
  if h : frequency ≠ 0 then some ⟨frequency, 0, h⟩ else none

/-- The clock with the given frequency, or the standard one if none is given. -/
def ofFrequency? : Option UInt64 → Option Clock
  | none => some standard
  | some frequency => withFrequency frequency

/-- Counts cycles.  The count stops at the greatest word. -/
def charge (c : Clock) (cycles : UInt64) : Clock :=
  { c with cycles := Word.addUpTo c.cycles cycles }

/-- The time that has passed.  The cycles of the last, unfinished second are scaled to nanoseconds
before they are divided, and the fraction of a nanosecond is dropped.  Scaling and dividing takes
128 bits, of which the lower 32 are kept. -/
def elapsed (c : Clock) : Duration where
  seconds := c.cycles / c.frequency
  nanoseconds :=
    let scaled := Word.widen (c.cycles % c.frequency) * 1000000000
    UInt32.ofBitVec ((scaled / Word.widen c.frequency).setWidth 32)

/-- The clock set back to no cycles. -/
def reset (c : Clock) : Clock := { c with cycles := 0 }

@[simp] theorem cycles_reset (c : Clock) : c.reset.cycles = 0 := rfl

@[simp] theorem frequency_charge (c : Clock) (cycles : UInt64) :
    (c.charge cycles).frequency = c.frequency := rfl

/-- A clock that is charged nothing stays as it is. -/
@[simp] theorem charge_zero (c : Clock) : c.charge 0 = c := by
  simp [charge, Word.addUpTo]

/-- The count is the sum, or the greatest word where the sum is greater. -/
theorem toNat_cycles_charge (c : Clock) (cycles : UInt64) :
    (c.charge cycles).cycles.toNat = min (c.cycles.toNat + cycles.toNat) (UInt64.size - 1) :=
  Word.toNat_addUpTo c.cycles cycles

end Clock

end Interconnect
