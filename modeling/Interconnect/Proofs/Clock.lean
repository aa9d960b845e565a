import Mathlib.Algebra.GroupWithZero.Nat
import Mathlib.Data.List.Induction
import Interconnect.Clock

/-!
# Exact time

A clock is charged and set back in any order.  Its count is the sum of the charges since it was last
set back, up to the greatest word; the time it tells is the count at its frequency to the nanosecond
below, and later charges never make it tell an earlier time.

## Main Definitions

* `Duration.total` — the nanoseconds in a span of time
* `Duration.ofParts` — a span of time from seconds and any number of nanoseconds
* `Clock.Step`, `Clock.run` — what happens to a clock
* `Clock.sinceReset` — the charges that no reset came after
* `Clock.Exact` — the time that a clock tells is right, and computed without loss

## Main Statements

* `toNat_cycles_run` — the count of a clock after any steps
* `total_elapsed` — the time in nanoseconds
* `elapsed_le_of_cycles_le` — more cycles take no less time
* `elapsed_exact` — all of it, for every frequency and after any steps

### Widths

The cycles of an unfinished second are fewer than the frequency.  So their product with the
nanoseconds in a second has room in 128 bits, and the quotient by the frequency is less than the
nanoseconds in a second and has room in 32, whatever the frequency is.
-/

namespace Interconnect

/-! ### Spans of time -/

namespace Duration

/-- **The nanoseconds in a span of time.** -/
def total (d : Duration) : Nat := d.seconds.toNat * 10 ^ 9 + d.nanoseconds.toNat

/-- **A span of time from its parts.**  Whole seconds among the nanoseconds are carried over to the
seconds, if these have room. -/
def ofParts (seconds : UInt64) (nanoseconds : UInt32) : Option Duration :=
  if nanoseconds < 1000000000 then some ⟨seconds, nanoseconds⟩
  else
    let carried := (nanoseconds / 1000000000).toUInt64
    if seconds ≤ seconds + carried then some ⟨seconds + carried, nanoseconds % 1000000000⟩
    else none

/-- Of spans without whole seconds among their nanoseconds, the one is no longer than the other if
it has no more nanoseconds in all. -/
theorem le_of_total_le {s t : Duration} (left : s.nanoseconds.toNat < 10 ^ 9)
    (right : t.nanoseconds.toNat < 10 ^ 9) (h : s.total ≤ t.total) : s ≤ t := by
  show s.seconds < t.seconds ∨ s.seconds = t.seconds ∧ s.nanoseconds ≤ t.nanoseconds
  rw [UInt64.lt_iff_toNat_lt, ← UInt64.toNat_inj, UInt32.le_iff_toNat_le]
  unfold total at h
  omega

end Duration

namespace Clock

/-! ### What happens to a clock -/

/-- **One step of a clock.** -/
inductive Step where
  /-- Cycles are counted. -/
  | charge (cycles : UInt64)
  /-- The count starts again. -/
  | reset
deriving DecidableEq

/-- The clock after a step. -/
def next (c : Clock) : Step → Clock
  | .charge cycles => c.charge cycles
  | .reset => c.reset

/-- **The clock after any steps.** -/
def run (c : Clock) (steps : List Step) : Clock := steps.foldl next c

theorem run_concat (c : Clock) (steps : List Step) (step : Step) :
    c.run (steps ++ [step]) = (c.run steps).next step := by
  rw [run, List.foldl_append, List.foldl_cons, List.foldl_nil, run]

theorem frequency_run (c : Clock) (steps : List Step) : (c.run steps).frequency = c.frequency := by
  induction steps using List.reverseRecOn with
  | nil => rfl
  | append_singleton past step ih =>
      rw [run_concat]
      cases step with
      | charge cycles => exact (frequency_charge _ _).trans ih
      | reset => exact ih

/-- **The charges since the last reset:** those that no reset comes after. -/
def sinceReset : List Step → List UInt64
  | [] => []
  | .charge cycles :: later =>
    if .reset ∈ later then sinceReset later else cycles :: sinceReset later
  | .reset :: later => sinceReset later

theorem sinceReset_concat_charge (past : List Step) (cycles : UInt64) :
    sinceReset (past ++ [.charge cycles]) = sinceReset past ++ [cycles] := by
  induction past with
  | nil => simp [sinceReset]
  | cons step later ih =>
      cases step with
      | reset => rw [List.cons_append, sinceReset, ih, sinceReset]
      | charge first =>
          have same : Step.reset ∈ later ++ [.charge cycles] ↔ .reset ∈ later := by simp
          rw [List.cons_append, sinceReset, ih, sinceReset, if_congr same rfl rfl]
          split
          · rfl
          · rw [List.cons_append]

theorem sinceReset_concat_reset (past : List Step) : sinceReset (past ++ [.reset]) = [] := by
  induction past with
  | nil => rfl
  | cons step later ih =>
      cases step with
      | reset => rw [List.cons_append, sinceReset, ih]
      | charge first => rw [List.cons_append, sinceReset, if_pos (by simp), ih]

/-! ### The count -/

/-- **The count is the sum of the charges since the last reset,** or the greatest word where the sum
is greater.  A count that has stopped there stays there, as a sum that is too great remains so. -/
theorem toNat_cycles_run {c : Clock} (fresh : c.cycles = 0) (steps : List Step) :
    (c.run steps).cycles.toNat =
      min ((sinceReset steps).map UInt64.toNat).sum (UInt64.size - 1) := by
  induction steps using List.reverseRecOn with
  | nil =>
      rw [run, List.foldl_nil, fresh]
      rfl
  | append_singleton past step ih =>
      rw [run_concat]
      cases step with
      | reset =>
          rw [sinceReset_concat_reset, next, cycles_reset]
          rfl
      | charge cycles =>
          rw [sinceReset_concat_charge, List.map_append, List.sum_append, next,
            toNat_cycles_charge, ih, List.map_singleton, List.sum_singleton]
          omega

/-- A charge takes no cycles away. -/
theorem cycles_le_cycles_charge (c : Clock) (cycles : UInt64) :
    c.cycles.toNat ≤ (c.charge cycles).cycles.toNat := by
  rw [toNat_cycles_charge]
  exact Nat.le_min.2 ⟨Nat.le_add_right _ _, Nat.le_sub_one_of_lt c.cycles.toNat_lt⟩

theorem cycles_le_cycles_run (c : Clock) (charges : List UInt64) :
    c.cycles.toNat ≤ (c.run (charges.map .charge)).cycles.toNat := by
  induction charges using List.reverseRecOn with
  | nil => exact Nat.le_refl _
  | append_singleton past cycles ih =>
      rw [List.map_append, List.map_singleton, run_concat]
      exact Nat.le_trans ih (cycles_le_cycles_charge _ _)

/-! ### The time -/

theorem toNat_frequency_pos (c : Clock) : 0 < c.frequency.toNat :=
  Nat.pos_of_ne_zero fun none => c.frequency_ne_zero (UInt64.toNat_inj.1 none)

/-- The cycles of an unfinished second have room when they are scaled. -/
theorem scaled_lt (c : Clock) : (c.cycles.toNat % c.frequency.toNat) * 10 ^ 9 < 2 ^ 128 := by
  have := Nat.mod_le c.cycles.toNat c.frequency.toNat
  have := c.cycles.toNat_lt
  omega

/-- They take less than a second. -/
theorem scaled_div_lt (c : Clock) :
    (c.cycles.toNat % c.frequency.toNat) * 10 ^ 9 / c.frequency.toNat < 10 ^ 9 := by
  refine Nat.div_lt_of_lt_mul ?_
  exact Nat.mul_lt_mul_of_pos_right (Nat.mod_lt _ c.toNat_frequency_pos) (by decide)

/-- **The nanoseconds of the unfinished second,** computed without loss. -/
theorem toNat_nanoseconds_elapsed (c : Clock) : c.elapsed.nanoseconds.toNat =
    (c.cycles.toNat % c.frequency.toNat) * 10 ^ 9 / c.frequency.toNat := by
  have product : (Word.widen (c.cycles % c.frequency) * 1000000000).toNat =
      (c.cycles.toNat % c.frequency.toNat) * 10 ^ 9 := by
    rw [BitVec.toNat_mul, Word.toNat_widen, UInt64.toNat_mod]
    exact Nat.mod_eq_of_lt c.scaled_lt
  have small := c.scaled_div_lt
  rw [elapsed, UInt32.toNat_ofBitVec, BitVec.toNat_setWidth, BitVec.toNat_udiv, product,
    Word.toNat_widen]
  exact Nat.mod_eq_of_lt (Nat.lt_trans small (by decide))

theorem nanoseconds_elapsed_lt (c : Clock) : c.elapsed.nanoseconds.toNat < 10 ^ 9 :=
  c.toNat_nanoseconds_elapsed ▸ c.scaled_div_lt

/-- **The time in nanoseconds** is the count at the frequency, without the fraction. -/
theorem total_elapsed (c : Clock) :
    c.elapsed.total = c.cycles.toNat * 10 ^ 9 / c.frequency.toNat := by
  have whole : c.elapsed.seconds.toNat = c.cycles.toNat / c.frequency.toNat :=
    UInt64.toNat_div _ _
  have parts : c.cycles.toNat * 10 ^ 9 = (c.cycles.toNat % c.frequency.toNat) * 10 ^ 9 +
      c.frequency.toNat * (c.cycles.toNat / c.frequency.toNat * 10 ^ 9) := by
    rw [← Nat.mul_assoc, ← Nat.add_mul, Nat.mod_add_div]
  rw [Duration.total, whole, toNat_nanoseconds_elapsed, parts,
    Nat.add_mul_div_left _ _ c.toNat_frequency_pos, Nat.add_comm]

example : (⟨1000, 1500, by decide⟩ : Clock).elapsed = ⟨1, 500000000⟩ := by decide

/-- **More cycles take no less time.** -/
theorem elapsed_le_of_cycles_le {c d : Clock} (same : c.frequency = d.frequency)
    (h : c.cycles.toNat ≤ d.cycles.toNat) : c.elapsed ≤ d.elapsed := by
  refine Duration.le_of_total_le c.nanoseconds_elapsed_lt d.nanoseconds_elapsed_lt ?_
  rw [total_elapsed, total_elapsed, same]
  exact Nat.div_le_div_right (Nat.mul_le_mul_right _ h)

/-- **The time that a clock tells is right, and computed without loss.** -/
structure Exact (c : Clock) : Prop where
  /-- It is the count at the frequency, to the nanosecond below. -/
  total : c.elapsed.total = c.cycles.toNat * 10 ^ 9 / c.frequency.toNat
  /-- There are no whole seconds among the nanoseconds. -/
  split : c.elapsed.nanoseconds.toNat < 10 ^ 9
  /-- So the span can be made of its parts, and nothing is carried over. -/
  made : Duration.ofParts c.elapsed.seconds c.elapsed.nanoseconds = some c.elapsed
  /-- The scaled cycles of the unfinished second have room in 128 bits. -/
  product : (c.cycles.toNat % c.frequency.toNat) * 10 ^ 9 < 2 ^ 128
  /-- Its nanoseconds have room in 32 bits. -/
  quotient : (c.cycles.toNat % c.frequency.toNat) * 10 ^ 9 / c.frequency.toNat < 2 ^ 32

/-- **Every clock tells the right time.** -/
theorem tells_exact (c : Clock) : c.Exact where
  total := c.total_elapsed
  split := c.nanoseconds_elapsed_lt
  made := if_pos (UInt32.lt_iff_toNat_lt.2 c.nanoseconds_elapsed_lt)
  product := c.scaled_lt
  quotient := Nat.lt_trans c.scaled_div_lt (by decide)

/-- **A clock counts and converts exactly, and never runs backwards.**  There is one of every
frequency but zero.  After any steps, its count is the sum of the charges since the last reset, or
the greatest word where the sum is greater; the time is right; and no further charges make it
earlier. -/
theorem elapsed_exact (f : UInt64) (ticks : f ≠ 0) (steps : List Step) :
    ∃ c, (withFrequency f).map (·.run steps) = some c ∧ c.frequency = f ∧
      c.cycles.toNat = min ((sinceReset steps).map UInt64.toNat).sum (2 ^ 64 - 1) ∧
      c.Exact ∧ ∀ charges : List UInt64, c.elapsed ≤ (c.run (charges.map .charge)).elapsed := by
  have made : withFrequency f = some ⟨f, 0, ticks⟩ := dif_pos ticks
  refine ⟨run ⟨f, 0, ticks⟩ steps, ?_, frequency_run _ _, toNat_cycles_run rfl steps,
    tells_exact _, fun charges => ?_⟩
  · rw [made, Option.map_some]
  · exact elapsed_le_of_cycles_le (frequency_run _ _).symm (cycles_le_cycles_run _ charges)

/-- A clock with three cycles in a second whose count has stopped at the greatest word. -/
theorem exists_elapsed_of_saturated : ∃ c : Clock,
    (withFrequency 3).map (·.run [.charge 7, .reset, .charge (0 - 1), .charge 5]) = some c ∧
    c.cycles = 0 - 1 ∧ c.elapsed.total = (2 ^ 64 - 1) * 10 ^ 9 / 3 ∧
    c.elapsed ≤ (c.charge 1).elapsed := by
  obtain ⟨c, made, frequency, cycles, exact, later⟩ :=
    elapsed_exact 3 (by decide) [.charge 7, .reset, .charge (0 - 1), .charge 5]
  have stopped : c.cycles.toNat = 2 ^ 64 - 1 := cycles
  refine ⟨c, made, UInt64.toNat_inj.1 stopped, ?_, later [1]⟩
  rw [exact.total, stopped, frequency]
  rfl

end Clock

end Interconnect
