import Interconnect.Fault
import Interconnect.Target
import Interconnect.Withdrawal.Rebase

/-!
# Mappings

A mapping shows some addresses of a target at a range of a bus.  It carries addresses and ranges of
the bus down to the target, and windows of the target up to the bus.

## Main Definitions

* `Mapping` — a range of the bus, the target behind it and the target's first address there
* `Mapping.visible` — the target's addresses that are shown
* `Mapping.toTarget` — a range of the bus in the target's addresses
* `Mapping.rebase` — a range of the target in the addresses of the bus
* `Mapping.toBus` — a window of the target in the addresses of the bus
-/

namespace Interconnect

/-- **A target shown at a range of a bus.**  The range holds an address, and the target's addresses
behind it do not run past the end of the address space. -/
structure Mapping where
  /-- The addresses of the bus. -/
  range : AddressRange
  /-- The target's address behind the first of them. -/
  offset : UInt64
  /-- The target. -/
  target : TargetId
  /-- The range holds an address. -/
  ordered : range.start ≤ range.last
  /-- The last address behind the range has not wrapped. -/
  fits : offset ≤ offset + (range.last - range.start)
deriving DecidableEq

namespace Mapping

/-- **The checked constructor.**  An empty range is refused before a target range that does not
fit. -/
def make (range : AddressRange) (offset : UInt64) (target : TargetId) : Except Fault Mapping :=
  if ordered : range.start ≤ range.last then
    if fits : offset ≤ offset + (range.last - range.start) then
      .ok ⟨range, offset, target, ordered, fits⟩
    else .error (.range (.overflow 0 (range.last - range.start) offset.toNat))
  else .error (.range (.invalid range.start range.last))

/-- The target's addresses that are shown. -/
def visible (m : Mapping) : AddressRange :=
  ⟨m.offset, m.offset + (m.range.last - m.range.start), .inl m.fits⟩

/-- What turns ranges of the target into ranges of the bus. -/
def rebase (m : Mapping) : Rebase := ⟨m.visible, m.range.start⟩

/-- A range of the bus in the target's addresses, if it can be moved there. -/
def toTarget (m : Mapping) (range : AddressRange) : Option AddressRange := do
  let distance ← (range.shiftDown m.range.start).toOption
  (distance.shiftUp m.offset).toOption

/-- **The shown part of a target's window in the addresses of the bus.** -/
def toBus (m : Mapping) (w : DirectWindow) : Option DirectWindow := do
  let part ← w.restrict m.visible
  let distance ← (part.shiftDown m.offset).toOption
  (distance.shiftUp m.range.start).toOption

@[simp] theorem start_visible (m : Mapping) : m.visible.start = m.offset := rfl

@[simp] theorem last_visible (m : Mapping) :
    m.visible.last = m.offset + (m.range.last - m.range.start) := rfl

/-- A range inside the mapping moves to the target without a fault. -/
theorem toTarget_eq_some {m : Mapping} {range : AddressRange} (ordered : range.start ≤ range.last)
    (inside : m.range.contains range = true) :
    ∃ r, m.toTarget range = some r ∧ r.start = range.start - m.range.start + m.offset
      ∧ r.last = range.last - m.range.start + m.offset := by
  have fits := m.fits
  simp only [AddressRange.contains, Bool.and_eq_true, AddressRange.includes_eq_true_iff,
    AddressRange.mem_iff] at inside
  let distance : AddressRange :=
    ⟨range.start - m.range.start, range.last - m.range.start, .inl (by grind)⟩
  let place : AddressRange :=
    ⟨range.start - m.range.start + m.offset, range.last - m.range.start + m.offset,
      .inl (by grind)⟩
  have down : range.shiftDown m.range.start = .ok distance :=
    AddressRange.shiftDown_eq_ok_iff.2 ⟨⟨by grind, by grind⟩, rfl, rfl⟩
  have up : distance.shiftUp m.offset = .ok place :=
    AddressRange.shiftUp_eq_ok_iff.2 ⟨⟨by grind, by grind⟩, rfl, rfl⟩
  refine ⟨place, ?_, rfl, rfl⟩
  simp only [toTarget, down, Except.toOption, Option.bind_eq_bind, Option.bind_some, up]

end Mapping

end Interconnect
