import Interconnect.Proofs.Window.Basic

/-!
# The host byte behind an address

A window backs each of its addresses by a place in host storage.  Whatever is done to a window, an
address that it still covers keeps that place: the pointer and the start of the range are changed
apart from each other, with sums that may wrap, but always by the same distance.

## Main Definitions

* `DirectWindow.raiseStart` — dropping the addresses below a start, in place
* `DirectWindow.NarrowingLaws`, `DirectWindow.MovingLaws`, `DirectWindow.MergingLaws` — what the
  operations do with addresses and places

## Main Statements

* `raiseStart_eq` — in place, or as a window of its own
* `pointerAt_eq_of_maps` — a window that maps as another has its places
* `narrowingLaws`, `movingLaws`, `mergingLaws` — the laws hold, group by group
* `backing_kept` — all of them

### Pointers that wrap

A pointer without a block is a bare host address of 64 bits.  Nothing here asks that a window end
below the highest of them: a window may run on from the last host address to the first.  Where a
block lies among the host addresses makes no difference: a pointer into it moves as the bare address
of its place does.
-/

namespace Interconnect

namespace DirectWindow

variable {v w : DirectWindow} {range : AddressRange} {start offset : UInt64}

/-! ### The laws -/

/-- **Dropping the addresses below a start, in place:** first the pointer moves on from the old
start, then the range is replaced.  The answer says whether that was done. -/
def raiseStart (w : DirectWindow) (start : UInt64) : Bool × DirectWindow := Id.run do
  let mut v := w
  if start < v.range.start then
    return (false, v)
  match AddressRange.ofBounds start v.range.last with
  | .ok range =>
    v := { v with pointer := v.pointer.advance (start - v.range.start) }
    v := { v with range := range }
    return (true, v)
  | .error _ => return (false, v)

/-- **Narrower windows.** -/
structure NarrowingLaws (w : DirectWindow) (range : AddressRange) (start : UInt64) : Prop where
  /-- A restricted window has the common part of the ranges. -/
  restrict_range : (w.restrict range).map DirectWindow.range = w.range.intersect range
  /-- There is none exactly when the ranges do not overlap. -/
  restrict_none : w.restrict range = none ↔ w.range.overlaps range = false
  /-- It covers the addresses in the range, and each keeps its place. -/
  restrict_pointers : ∀ v, w.restrict range = some v →
    ∀ a, v.pointerAt a = if a ∈ range then w.pointerAt a else none
  /-- The start can be raised exactly to an address of the window or to the one past its end. -/
  raise_iff : (w.raiseStart start).1 = true ↔
    w.range.start ≤ start ∧ start.toNat ≤ w.range.last.toNat + 1
  /-- The window then has the new start and the old end. -/
  raise_range : (w.raiseStart start).1 = true →
    (w.raiseStart start).2.range.start = start ∧
      (w.raiseStart start).2.range.last = w.range.last
  /-- It no longer covers what is below, and each address above keeps its place. -/
  raise_pointers : (w.raiseStart start).1 = true →
    ∀ a, (w.raiseStart start).2.pointerAt a = if start ≤ a then w.pointerAt a else none
  /-- A refusal leaves the window as it is. -/
  raise_refused : (w.raiseStart start).1 = false → (w.raiseStart start).2 = w

/-- **Windows elsewhere.** -/
structure MovingLaws (w : DirectWindow) (offset : UInt64) : Prop where
  /-- A window moves up as its range does, and fails to as its range does. -/
  up_range : (w.shiftUp offset).map DirectWindow.range = w.range.shiftUp offset
  /-- The address so much further up has the place that the address had. -/
  up_pointers : ∀ v, w.shiftUp offset = .ok v →
    ∀ a, v.pointerAt a = if offset ≤ a then w.pointerAt (a - offset) else none
  /-- A window moves down as its range does, and fails to as its range does. -/
  down_range : (w.shiftDown offset).map DirectWindow.range = w.range.shiftDown offset
  /-- The address so much further down has the place that the address had. -/
  down_pointers : ∀ v, w.shiftDown offset = .ok v →
    ∀ a, v.pointerAt a = if a ≤ a + offset then w.pointerAt (a + offset) else none

/-- **The union of two windows.** -/
structure MergingLaws (v w : DirectWindow) : Prop where
  /-- Which of the two comes first does not matter. -/
  comm : v.merge w = w.merge v
  /-- The union covers the addresses of both and no others. -/
  covers : ∀ a, a ∈ (v.merge w).range ↔ a ∈ v.range ∨ a ∈ w.range
  /-- Every address of the one keeps its place. -/
  left : ∀ a ∈ v.range, (v.merge w).pointerAt a = v.pointerAt a
  /-- Every address of the other keeps its place. -/
  right : ∀ a ∈ w.range, (v.merge w).pointerAt a = w.pointerAt a

/-! ### Narrower windows -/

/-- **A window that maps as another does at some addresses** has the place of the other there. -/
theorem pointerAt_eq_of_maps {P : UInt64 → Prop} [DecidablePred P] {f : UInt64 → UInt64}
    (permission : v.permission = w.permission)
    (maps : ∀ a q p, v.Maps a q p ↔ P a ∧ w.Maps (f a) q p) (a : UInt64) :
    v.pointerAt a = if P a then w.pointerAt (f a) else none := by
  refine Option.ext fun p => ?_
  rw [pointerAt_eq_some_iff, maps, permission]
  split
  · next kept => rw [pointerAt_eq_some_iff, and_iff_right kept]
  · next dropped => simp [dropped]

theorem map_range_restrict (w : DirectWindow) (range : AddressRange) :
    (w.restrict range).map DirectWindow.range = w.range.intersect range := by
  rw [restrict, Option.map_map]
  exact Option.map_id'

theorem restrict_eq_none_iff_overlaps :
    w.restrict range = none ↔ w.range.overlaps range = false := by
  rw [restrict_eq_none_iff, AddressRange.overlaps_eq_false_iff]

/-- A window that loses the addresses below a start has this start, and the pointer for it. -/
theorem dropBelow_eq_some_iff : w.dropBelow start = some v ↔
    w.range.start ≤ start ∧ v.range.start = start ∧ v.range.last = w.range.last ∧
      v.pointer = w.pointerFor start ∧ v.permission = w.permission := by
  unfold dropBelow
  split
  · next below =>
      simp only [reduceCtorEq, false_iff, not_and]
      exact fun reached => absurd below (UInt64.not_lt.2 reached)
  · next reached =>
      rw [and_iff_right (UInt64.not_lt.1 reached)]
      split
      · next range made =>
          obtain ⟨rfl, last⟩ := AddressRange.ofBounds_eq_ok_iff.1 made
          rw [Option.some.injEq, eq_comm, DirectWindow.ext_iff, AddressRange.ext_iff, last,
            and_assoc]
      · next reversed =>
          simp only [reduceCtorEq, false_iff]
          rintro ⟨rfl, last, -⟩
          rw [← last, AddressRange.ofBounds_eq_ok_iff.2 ⟨rfl, rfl⟩] at reversed
          cases reversed

/-- **In place, or as a window of its own:** the window is replaced by the one without the addresses
below, if there is one. -/
theorem raiseStart_eq (w : DirectWindow) (start : UInt64) :
    w.raiseStart start = (w.dropBelow start).elim (false, w) fun v => (true, v) := by
  unfold raiseStart dropBelow
  simp only [Id.run]
  split
  · rfl
  · cases AddressRange.ofBounds start w.range.last with
    | ok range => rfl
    | error reversed => rfl

/-- The answer says whether there is such a window. -/
theorem fst_raiseStart (w : DirectWindow) (start : UInt64) :
    (w.raiseStart start).1 = (w.dropBelow start).isSome := by
  rw [raiseStart_eq]
  cases w.dropBelow start with
  | none => rfl
  | some v => rfl

/-- If it does, that is the window now. -/
theorem dropBelow_of_raiseStart (done : (w.raiseStart start).1 = true) :
    w.dropBelow start = some (w.raiseStart start).2 := by
  rw [fst_raiseStart] at done
  obtain ⟨v, found⟩ := Option.isSome_iff_exists.1 done
  rw [raiseStart_eq, found, Option.elim_some]

/-- If it does not, the window is as it was. -/
theorem raiseStart_of_refused (refused : (w.raiseStart start).1 = false) :
    (w.raiseStart start).2 = w := by
  rw [fst_raiseStart, Option.isSome_eq_false_iff, Option.isNone_iff_eq_none] at refused
  rw [raiseStart_eq, refused, Option.elim_none]

/-- A start to which a window can be raised is one of its addresses or the one past its end. -/
theorem isSome_dropBelow_iff : (w.dropBelow start).isSome = true ↔
    w.range.start ≤ start ∧ start.toNat ≤ w.range.last.toNat + 1 := by
  rw [Option.isSome_iff_exists, ← AddressRange.ordered_iff]
  constructor
  · rintro ⟨v, found⟩
    obtain ⟨reached, rfl, last, -⟩ := dropBelow_eq_some_iff.1 found
    exact ⟨reached, last ▸ v.range.ordered⟩
  · rintro ⟨reached, ordered⟩
    exact ⟨⟨⟨start, w.range.last, ordered⟩, w.pointerFor start, w.permission⟩,
      dropBelow_eq_some_iff.2 ⟨reached, rfl, rfl, rfl, rfl⟩⟩

/-- A window without the addresses below a start maps the others as before. -/
theorem maps_dropBelow_iff (h : w.dropBelow start = some v) {a : UInt64} {q : Permission}
    {p : HostPointer} : v.Maps a q p ↔ start ≤ a ∧ w.Maps a q p := by
  obtain ⟨reached, rfl, last, pointer, permission⟩ := dropBelow_eq_some_iff.1 h
  have distance : v.range.start - w.range.start + (a - v.range.start) = a - w.range.start := by
    grind
  have same : v.pointerFor a = w.pointerFor a := by
    rw [pointerFor, pointer, pointerFor, HostPointer.advance_advance, distance, pointerFor]
  have inside : a ∈ v.range ↔ v.range.start ≤ a ∧ a ∈ w.range := by
    rw [AddressRange.mem_iff, AddressRange.mem_iff, last]
    constructor
    · rintro ⟨low, high⟩
      exact ⟨low, UInt64.le_trans reached low, high⟩
    · rintro ⟨low, -, high⟩
      exact ⟨low, high⟩
  rw [Maps, Maps, inside, permission, same, and_assoc]

/-- **Narrower windows keep the places of their addresses.** -/
theorem narrowingLaws (w : DirectWindow) (range : AddressRange) (start : UInt64) :
    w.NarrowingLaws range start where
  restrict_range := map_range_restrict w range
  restrict_none := restrict_eq_none_iff_overlaps
  restrict_pointers v found := by
    refine pointerAt_eq_of_maps (permission_of_restrict_eq_some found) fun a q p => ?_
    exact (maps_restrict_iff found).trans and_comm
  raise_iff := by rw [fst_raiseStart, isSome_dropBelow_iff]
  raise_range done := by
    obtain ⟨-, first, final, -⟩ := dropBelow_eq_some_iff.1 (dropBelow_of_raiseStart done)
    exact ⟨first, final⟩
  raise_pointers done := by
    have found := dropBelow_of_raiseStart done
    obtain ⟨-, -, -, -, permission⟩ := dropBelow_eq_some_iff.1 found
    exact pointerAt_eq_of_maps permission fun a q p => maps_dropBelow_iff found
  raise_refused := raiseStart_of_refused

/-! ### Windows elsewhere -/

theorem permission_of_shiftUp_eq_ok (h : w.shiftUp offset = .ok v) :
    v.permission = w.permission := by
  obtain ⟨range, -, rfl⟩ := map_eq_ok_iff.1 h
  rfl

theorem permission_of_shiftDown_eq_ok (h : w.shiftDown offset = .ok v) :
    v.permission = w.permission := by
  obtain ⟨range, -, rfl⟩ := map_eq_ok_iff.1 h
  rfl

/-- **Windows elsewhere keep the places, at the addresses moved along.** -/
theorem movingLaws (w : DirectWindow) (offset : UInt64) : w.MovingLaws offset where
  up_range := by
    rw [shiftUp]
    cases w.range.shiftUp offset <;> rfl
  up_pointers _ moved :=
    pointerAt_eq_of_maps (permission_of_shiftUp_eq_ok moved) fun _ _ _ => maps_shiftUp_iff moved
  down_range := by
    rw [shiftDown]
    cases w.range.shiftDown offset <;> rfl
  down_pointers _ moved :=
    pointerAt_eq_of_maps (permission_of_shiftDown_eq_ok moved) fun _ _ _ =>
      maps_shiftDown_iff moved

/-! ### The union of two windows -/

/-- Windows with the same range, permission and pointers are one. -/
theorem eq_of_pointerFor_eq (range : v.range = w.range) (permission : v.permission = w.permission)
    (aligned : ∀ a, v.pointerFor a = w.pointerFor a) : v = w := by
  refine DirectWindow.ext range ?_ permission
  have first := aligned v.range.start
  rwa [pointerFor_start, range, pointerFor_start] at first

/-- **Which of two mergeable windows comes first does not matter.** -/
theorem merge_comm (h : v.mergeable w = true) : v.merge w = w.merge v := by
  have turned : w.mergeable v = true := mergeable_comm v w ▸ h
  refine eq_of_pointerFor_eq (AddressRange.hull_comm _ _) (mergeable_iff.1 h).1 fun a => ?_
  rw [pointerFor_merge h, pointerFor_merge turned, pointerFor_eq_of_mergeable h]

/-- A part has at its addresses the places of the whole. -/
theorem IsPartOf.pointerAt_eq (h : v.IsPartOf w) {a : UInt64} (inside : a ∈ v.range) :
    w.pointerAt a = v.pointerAt a := by
  rw [pointerAt, pointerAt, if_pos inside, if_pos (h.within a inside), h.aligned]

/-- **The union of mergeable windows keeps the places of both.** -/
theorem mergingLaws (h : v.mergeable w = true) : v.MergingLaws w where
  comm := merge_comm h
  covers _ := mem_range_merge h
  left _ inside := (isPartOf_merge_left h).pointerAt_eq inside
  right _ inside := (isPartOf_merge_right h).pointerAt_eq inside

/-- **No operation on windows changes the host byte behind an address.**  Narrower windows and
windows elsewhere keep it; whether two windows can be merged does not depend on their order, and if
they can, their union keeps it for the addresses of both. -/
theorem backing_kept (v w : DirectWindow) (range : AddressRange) (start offset : UInt64) :
    w.NarrowingLaws range start ∧ w.MovingLaws offset ∧ v.mergeable w = w.mergeable v ∧
      (v.mergeable w = true → v.MergingLaws w) :=
  ⟨narrowingLaws w range start, movingLaws w offset, mergeable_comm v w, mergingLaws⟩

/-- Two windows that overlap, the first of which runs from the last host addresses on to the first:
the union has the places of both. -/
theorem exists_backing_around_zero : ∃ v w : DirectWindow,
    v.mergeable w = true ∧ v.MergingLaws w ∧
      (v.merge w).pointerAt 0x17 = some ⟨none, 0xffffffffffffffff⟩ ∧
      (v.merge w).pointerAt 0x18 = some ⟨none, 0⟩ :=
  ⟨⟨⟨0x10, 0x1f, .inl (by decide)⟩, ⟨none, 0xfffffffffffffff8⟩, .readWrite⟩,
    ⟨⟨0x18, 0x2f, .inl (by decide)⟩, ⟨none, 0⟩, .readWrite⟩,
    by decide, (backing_kept _ _ .full 0 0).2.2.2 (by decide), by decide, by decide⟩

end DirectWindow

end Interconnect
