import Interconnect.Proofs.Range
import Interconnect.Window.Basic

/-!
# Windows as maps

A window stands for the mappings from its addresses to host storage.  Cutting, merging and moving
windows is described here by what happens to these mappings.

## Main Definitions

* `DirectWindow.Maps` — the window backs an address by a host pointer, with a permission
* `DirectWindow.Continues` — two windows are parts of one
* `DirectWindow.IsPartOf` — one window is a part of the other

## Main Statements

* `maps_restrict_iff`, `maps_merge_iff` — the mappings of a part and of a union
* `mergeable_iff_continues`, `mergeable_of_parts` — which windows can be merged
* `maps_shiftUp_iff`, `maps_shiftDown_iff` — the mappings of a window elsewhere
-/

namespace Interconnect

namespace DirectWindow

/-- **The window maps address `a` to the host pointer `p` with permission `q`.** -/
def Maps (w : DirectWindow) (a : UInt64) (q : Permission) (p : HostPointer) : Prop :=
  a ∈ w.range ∧ w.permission = q ∧ w.pointerFor a = p

theorem maps_pointerFor {w : DirectWindow} {a : UInt64} (inside : a ∈ w.range) :
    w.Maps a w.permission (w.pointerFor a) :=
  ⟨inside, rfl, rfl⟩

theorem pointerAt_eq_some_iff {w : DirectWindow} {a : UInt64} {p : HostPointer} :
    w.pointerAt a = some p ↔ w.Maps a w.permission p := by
  unfold pointerAt Maps
  split <;> simp_all

/-! ### Parts -/

/-- **A part maps what the whole maps there.** -/
theorem maps_restrict_iff {w v : DirectWindow} {range : AddressRange}
    (h : w.restrict range = some v) {a : UInt64} {q : Permission} {p : HostPointer} :
    v.Maps a q p ↔ w.Maps a q p ∧ a ∈ range := by
  unfold Maps
  rw [mem_of_restrict_eq_some h, permission_of_restrict_eq_some h,
    pointerFor_of_restrict_eq_some h]
  exact ⟨fun ⟨⟨inside, part⟩, same⟩ => ⟨⟨inside, same⟩, part⟩,
    fun ⟨⟨inside, same⟩, part⟩ => ⟨⟨inside, part⟩, same⟩⟩

theorem restrict_eq_none_iff {w : DirectWindow} {range : AddressRange} :
    w.restrict range = none ↔ ∀ a, a ∈ w.range → a ∉ range := by
  simp only [restrict, Option.map_eq_none_iff, AddressRange.intersect_eq_none_iff]

/-- Every mapping of a window at an address of `range` is one of its part there. -/
theorem exists_maps_restrict_iff {w : DirectWindow} {range : AddressRange} {a : UInt64}
    {q : Permission} {p : HostPointer} :
    (∃ v, w.restrict range = some v ∧ v.Maps a q p) ↔ w.Maps a q p ∧ a ∈ range := by
  constructor
  · rintro ⟨v, found, maps⟩
    exact (maps_restrict_iff found).1 maps
  · rintro ⟨maps, part⟩
    cases found : w.restrict range with
    | none => exact absurd part (restrict_eq_none_iff.1 found a maps.1)
    | some v => exact ⟨v, rfl, (maps_restrict_iff found).2 ⟨maps, part⟩⟩

/-! ### Moves -/

/-- A window that has been moved up maps an address as the window did that far below. -/
theorem maps_shiftUp_iff {w v : DirectWindow} {offset : UInt64} (h : w.shiftUp offset = .ok v)
    {a : UInt64} {q : Permission} {p : HostPointer} :
    v.Maps a q p ↔ offset ≤ a ∧ w.Maps (a - offset) q p := by
  obtain ⟨range, moved, rfl⟩ := map_eq_ok_iff.1 h
  obtain ⟨-, start, -⟩ := AddressRange.shiftUp_eq_ok_iff.1 moved
  have same : a - range.start = a - offset - w.range.start := by
    rw [start]
    grind
  simp only [Maps, pointerFor, AddressRange.mem_shiftUp_iff moved, same, and_assoc]

/-- A window that has been moved down maps an address as the window did that far above. -/
theorem maps_shiftDown_iff {w v : DirectWindow} {offset : UInt64} (h : w.shiftDown offset = .ok v)
    {a : UInt64} {q : Permission} {p : HostPointer} :
    v.Maps a q p ↔ a ≤ a + offset ∧ w.Maps (a + offset) q p := by
  obtain ⟨range, moved, rfl⟩ := map_eq_ok_iff.1 h
  obtain ⟨-, start, -⟩ := AddressRange.shiftDown_eq_ok_iff.1 moved
  have same : a - range.start = a + offset - w.range.start := by
    rw [start]
    grind
  simp only [Maps, pointerFor, AddressRange.mem_shiftDown_iff moved, same, and_assoc]

/-! ### Unions -/

theorem mergeable_iff {v w : DirectWindow} :
    v.mergeable w = true ↔ v.permission = w.permission ∧ v.range.isEmpty = false ∧
      w.range.isEmpty = false ∧
      (v.range.overlaps w.range = true ∨ v.range.connects w.range = true) ∧
      v.pointerFor w.range.start = w.pointer := by
  simp only [mergeable, isEmpty, Bool.and_eq_true, Bool.or_eq_true, Bool.not_eq_true',
    decide_eq_true_eq, and_assoc]

/-- Mergeable windows have one and the same pointer for every address. -/
theorem pointerFor_eq_of_mergeable {v w : DirectWindow} (h : v.mergeable w = true) (a : UInt64) :
    v.pointerFor a = w.pointerFor a := by
  obtain ⟨-, -, -, -, aligned⟩ := mergeable_iff.1 h
  simp only [pointerFor, ← aligned, HostPointer.advance_advance]
  congr 1
  grind

/-- The merged window has that pointer, too. -/
theorem pointerFor_merge {v w : DirectWindow} (h : v.mergeable w = true) (a : UInt64) :
    (v.merge w).pointerFor a = v.pointerFor a := by
  by_cases lower : w.range.start < v.range.start
  · have start : (v.merge w).range.start = w.range.start := by
      simp only [merge, AddressRange.start_hull]
      grind
    rw [pointerFor_eq_of_mergeable h, pointerFor, pointerFor, start]
    simp [merge, lower]
  · have start : (v.merge w).range.start = v.range.start := by
      simp only [merge, AddressRange.start_hull]
      grind
    rw [pointerFor, pointerFor, start]
    simp [merge, lower]

/-- The union of mergeable windows has the addresses of both, and no others. -/
theorem mem_range_merge {v w : DirectWindow} (h : v.mergeable w = true) {a : UInt64} :
    a ∈ (v.merge w).range ↔ a ∈ v.range ∨ a ∈ w.range := by
  obtain ⟨-, leftHolds, rightHolds, touch, -⟩ := mergeable_iff.1 h
  exact AddressRange.mem_hull leftHolds rightHolds touch

/-- **The union of mergeable windows maps what one of them maps.** -/
theorem maps_merge_iff {v w : DirectWindow} (h : v.mergeable w = true) {a : UInt64}
    {q : Permission} {p : HostPointer} :
    (v.merge w).Maps a q p ↔ v.Maps a q p ∨ w.Maps a q p := by
  unfold Maps
  rw [mem_range_merge h, pointerFor_merge h, ← pointerFor_eq_of_mergeable h,
    ← (mergeable_iff.1 h).1]
  simp only [merge, or_and_right]

theorem mergeable_comm (v w : DirectWindow) : v.mergeable w = w.mergeable v := by
  have turn : ∀ {v w : DirectWindow}, v.mergeable w = true → w.mergeable v = true := by
    intro v w h
    obtain ⟨permission, leftHolds, rightHolds, touch, aligned⟩ := mergeable_iff.1 h
    refine mergeable_iff.2 ⟨permission.symm, rightHolds, leftHolds, ?_, ?_⟩
    · rw [AddressRange.overlaps_comm]
      refine touch.imp_right fun meet => ?_
      simpa [AddressRange.connects, or_comm] using meet
    · rw [← pointerFor_eq_of_mergeable h, pointerFor_start]
  rw [Bool.eq_iff_iff]
  exact ⟨turn, turn⟩

theorem isEmpty_merge {v w : DirectWindow} (h : v.mergeable w = true) :
    (v.merge w).isEmpty = false := by
  obtain ⟨-, leftHolds, -⟩ := mergeable_iff.1 h
  rw [AddressRange.isEmpty_eq_false_iff] at leftHolds
  have first : v.Maps v.range.start v.permission (v.pointerFor v.range.start) :=
    maps_pointerFor ⟨UInt64.le_refl _, leftHolds⟩
  obtain ⟨inside, -⟩ := (maps_merge_iff h).2 (.inl first)
  exact AddressRange.isEmpty_eq_false_iff.2 (UInt64.le_trans inside.1 inside.2)

/-- **Two windows are parts of one:** they have the same permission, overlap or touch, and have one
and the same host pointer for every address. -/
structure Continues (v w : DirectWindow) : Prop where
  /-- They serve the same commands. -/
  permission : v.permission = w.permission
  /-- They overlap or touch. -/
  adjoins : v.range.Adjoins w.range
  /-- Their pointers line up with their addresses. -/
  aligned : ∀ a, v.pointerFor a = w.pointerFor a

/-- **Two windows can be merged exactly when they hold an address each and are parts of one.** -/
theorem mergeable_iff_continues {v w : DirectWindow} :
    v.mergeable w = true ↔ v.isEmpty = false ∧ w.isEmpty = false ∧ v.Continues w := by
  constructor
  · intro h
    obtain ⟨permission, leftHolds, rightHolds, touch, -⟩ := mergeable_iff.1 h
    exact ⟨leftHolds, rightHolds, permission, touch, pointerFor_eq_of_mergeable h⟩
  · rintro ⟨leftHolds, rightHolds, permission, adjoins, aligned⟩
    exact mergeable_iff.2 ⟨permission, leftHolds, rightHolds, adjoins,
      (aligned w.range.start).trans w.pointerFor_start⟩

theorem not_continues_of_mergeable {v w : DirectWindow} (leftHolds : v.isEmpty = false)
    (rightHolds : w.isEmpty = false) (apart : v.mergeable w = false) : ¬ v.Continues w := by
  intro continues
  rw [mergeable_iff_continues.2 ⟨leftHolds, rightHolds, continues⟩] at apart
  cases apart

/-- **One window is a part of the other.** -/
structure IsPartOf (v w : DirectWindow) : Prop where
  /-- Its addresses are addresses of the other. -/
  within : ∀ a ∈ v.range, a ∈ w.range
  /-- It serves the same commands. -/
  permission : v.permission = w.permission
  /-- It has the same pointers. -/
  aligned : ∀ a, v.pointerFor a = w.pointerFor a

theorem IsPartOf.refl (w : DirectWindow) : w.IsPartOf w :=
  ⟨fun _ inside => inside, rfl, fun _ => rfl⟩

theorem IsPartOf.trans {u v w : DirectWindow} (h : u.IsPartOf v) (h' : v.IsPartOf w) :
    u.IsPartOf w :=
  ⟨fun a inside => h'.within a (h.within a inside), h.permission.trans h'.permission,
    fun a => (h.aligned a).trans (h'.aligned a)⟩

theorem start_mem {w : DirectWindow} (holds : w.isEmpty = false) : w.range.start ∈ w.range :=
  ⟨UInt64.le_refl _, AddressRange.isEmpty_eq_false_iff.1 holds⟩

/-- A window with a part that holds an address holds one itself. -/
theorem IsPartOf.holds {v w : DirectWindow} (h : v.IsPartOf w) (holds : v.isEmpty = false) :
    w.isEmpty = false := by
  have first := h.within _ (start_mem holds)
  exact AddressRange.isEmpty_eq_false_iff.2 (UInt64.le_trans first.1 first.2)

theorem isPartOf_of_restrict {w v : DirectWindow} {range : AddressRange}
    (h : w.restrict range = some v) : v.IsPartOf w :=
  ⟨fun _ inside => ((mem_of_restrict_eq_some h).1 inside).1, permission_of_restrict_eq_some h,
    pointerFor_of_restrict_eq_some h⟩

theorem isEmpty_of_restrict {w v : DirectWindow} {range : AddressRange}
    (h : w.restrict range = some v) : v.isEmpty = false := by
  cases hollow : v.isEmpty with
  | false => rfl
  | true =>
      have nowhere := AddressRange.isEmpty_eq_true_iff.1 hollow
      have apart : w.restrict range = none := by
        refine restrict_eq_none_iff.2 fun a whole part => ?_
        exact nowhere a ((mem_of_restrict_eq_some h).2 ⟨whole, part⟩)
      rw [h] at apart
      cases apart

/-- What is merged is a part of the union. -/
theorem isPartOf_merge_left {v w : DirectWindow} (h : v.mergeable w = true) :
    v.IsPartOf (v.merge w) :=
  ⟨fun _ inside => (mem_range_merge h).2 (.inl inside), rfl, fun a => (pointerFor_merge h a).symm⟩

theorem isPartOf_merge_right {v w : DirectWindow} (h : v.mergeable w = true) :
    w.IsPartOf (v.merge w) := by
  refine ⟨fun _ inside => (mem_range_merge h).2 (.inr inside), ?_, fun a => ?_⟩
  · exact (mergeable_iff.1 h).1.symm
  · rw [pointerFor_merge h, pointerFor_eq_of_mergeable h]

/-- Windows of which parts can be merged can be merged themselves. -/
theorem mergeable_of_parts {v w whole other : DirectWindow} (left : v.IsPartOf whole)
    (right : w.IsPartOf other) (h : v.mergeable w = true) : whole.mergeable other = true := by
  obtain ⟨leftHolds, rightHolds, permission, adjoins, aligned⟩ := mergeable_iff_continues.1 h
  refine mergeable_iff_continues.2 ⟨left.holds leftHolds, right.holds rightHolds, ?_⟩
  refine ⟨?_, adjoins.mono leftHolds rightHolds left.within right.within, fun a => ?_⟩
  · rw [← left.permission, permission, right.permission]
  · rw [← left.aligned, aligned, right.aligned]

end DirectWindow

end Interconnect
