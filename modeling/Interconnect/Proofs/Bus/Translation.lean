import Interconnect.Proofs.Bus.Map
import Interconnect.Proofs.Withdrawal.Exact

/-!
# There and back through a bus

A bus carries ranges down to the targets behind it, and the ranges that they withdraw and the
windows that they offer up to its own addresses.  The two ways are inverse to each other, wherever a
target is shown and however much of what comes up is visible: no sum runs past the end of the
address space, and no difference below its start.

## Main Definitions

* `BusOver.LeadsInto` — an address of the bus is routed into a range of the target behind a mapping
* `BusOver.Translates` — ranges that go down, and withdrawn ranges and windows that come up, agree

## Main Statements

* `Mapping.toNat_behind` — the address behind another, in natural numbers
* `Mapping.exists_mem_image_rebase_iff`, `Mapping.image_rebase_of_toTarget` — what a withdrawn range
  is on the bus
* `Mapping.exists_shift_of_restrict`, `BusOver.Ordered.pointerAt_toBus`,
  `BusOver.Ordered.toBus_eq_none_iff` — what a window is on the bus
* `BusOver.Ordered.translates_of_mem` — all of that together, for every mapping of a bus
* `BusOver.route_eq_none_of_outside` — what lies in no mapping is not routed
-/

namespace Interconnect

universe u

namespace AddressRange

/-- A range that holds an address is known by the addresses that it holds. -/
theorem eq_of_mem_iff {r s : AddressRange} {a : UInt64} (holds : a ∈ r)
    (same : ∀ b, b ∈ r ↔ b ∈ s) : r = s := by
  have within : r.start ≤ r.last := UInt64.le_trans holds.1 holds.2
  have there := (same a).1 holds
  have within' : s.start ≤ s.last := UInt64.le_trans there.1 there.2
  have low := (same r.start).1 ⟨UInt64.le_refl _, within⟩
  have high := (same r.last).1 ⟨within, UInt64.le_refl _⟩
  have low' := (same s.start).2 ⟨UInt64.le_refl _, within'⟩
  have high' := (same s.last).2 ⟨within', UInt64.le_refl _⟩
  exact AddressRange.ext (UInt64.le_antisymm low'.1 low.1) (UInt64.le_antisymm high.2 high'.2)

end AddressRange

namespace Mapping

variable {m : Mapping} {a : UInt64}

/-! ### Down to the target -/

/-- **The address behind another lies as far above the target's first shown address as the other
above the start of the mapping.**  The sum is one of natural numbers. -/
theorem toNat_behind (inside : a ∈ m.range) :
    (m.behind a).toNat = a.toNat - m.range.start.toNat + m.offset.toNat := by
  have below : m.offset.toNat + (m.range.size - 1) < UInt64.size :=
    (fits_iff m.ordered m.offset).1 m.fits
  have low := UInt64.le_iff_toNat_le.1 inside.1
  have high := UInt64.le_iff_toNat_le.1 inside.2
  rw [behind, UInt64.toNat_add, UInt64.toNat_sub_of_le _ _ inside.1]
  simp only [AddressRange.size, UInt64.size] at below
  omega

/-- A range inside the mapping goes to the range between the addresses behind its ends. -/
theorem mem_toTarget_iff {range place : AddressRange} (ordered : range.start ≤ range.last)
    (contains : m.range.contains range = true) (moved : m.toTarget range = some place)
    (inside : a ∈ m.range) : m.behind a ∈ place ↔ a ∈ range := by
  obtain ⟨place, moved', start, last⟩ := m.toTarget_eq_some ordered contains
  cases Option.some.inj (moved.symm.trans moved')
  have first := AddressRange.mem_of_contains contains ⟨UInt64.le_refl _, ordered⟩
  have final := AddressRange.mem_of_contains contains ⟨ordered, UInt64.le_refl _⟩
  have here := toNat_behind inside
  have low : place.start.toNat = _ := (congrArg UInt64.toNat start).trans (toNat_behind first)
  have high : place.last.toNat = _ := (congrArg UInt64.toNat last).trans (toNat_behind final)
  simp only [AddressRange.mem_iff, UInt64.le_iff_toNat_le] at inside first final ⊢
  omega

/-! ### Withdrawals -/

/-- The rebase of a mapping has a place for every address that is shown. -/
theorem fits_rebase (m : Mapping) : m.rebase.Fits where
  ordered := m.fits
  within := by
    have ordered := UInt64.le_iff_toNat_le.1 m.ordered
    have far := m.range.last.toNat_lt
    have below : m.offset.toNat + (m.range.size - 1) < UInt64.size :=
      (fits_iff m.ordered m.offset).1 m.fits
    simp only [rebase, visible, AddressRange.size, UInt64.toNat_add,
      UInt64.toNat_sub_of_le _ _ m.ordered, UInt64.size] at below ⊢
    omega

/-- Every shown address lies behind the one at the same distance from the start of the mapping. -/
theorem behind_of_shown {b : UInt64} (shown : b ∈ m.visible) :
    m.range.start + (b - m.offset) ∈ m.range ∧ m.behind (m.range.start + (b - m.offset)) = b := by
  have fits := m.fits
  have ordered := m.ordered
  simp only [behind, AddressRange.mem_iff, start_visible, last_visible] at shown ⊢
  grind

/-- **A withdrawn range is on the bus what lies behind it:** the addresses of the mapping behind
which the target's address is withdrawn. -/
theorem exists_mem_image_rebase_iff {x : AddressRange} :
    (∃ image, m.rebase.image x = some image ∧ a ∈ image) ↔ a ∈ m.range ∧ m.behind a ∈ x := by
  constructor
  · intro moved
    obtain ⟨place, withdrawn, shown, rfl⟩ := (Rebase.exists_mem_image_iff m.fits_rebase).1 moved
    obtain ⟨inside, back⟩ := behind_of_shown shown
    exact ⟨inside, back.symm ▸ withdrawn⟩
  · rintro ⟨inside, withdrawn⟩
    exact exists_image_rebase inside withdrawn

/-- **What a range is routed to comes back as the very range.** -/
theorem image_rebase_of_toTarget {range place : AddressRange} (ordered : range.start ≤ range.last)
    (contains : m.range.contains range = true) (moved : m.toTarget range = some place) :
    m.rebase.image place = some range := by
  have within : ∀ b ∈ range, b ∈ m.range := fun b => AddressRange.mem_of_contains contains
  have first : range.start ∈ range := ⟨UInt64.le_refl _, ordered⟩
  have behind := (mem_toTarget_iff ordered contains moved (within _ first)).2 first
  obtain ⟨image, back, holds⟩ := exists_mem_image_rebase_iff.2 ⟨within _ first, behind⟩
  have mem : ∀ b, b ∈ image ↔ b ∈ m.range ∧ m.behind b ∈ place := by
    intro b
    rw [← exists_mem_image_rebase_iff, back]
    simp
  rw [back, AddressRange.eq_of_mem_iff holds fun b => ?_]
  rw [mem]
  constructor
  · rintro ⟨inside, there⟩
    exact (mem_toTarget_iff ordered contains moved inside).1 there
  · exact fun inside =>
      ⟨within b inside, (mem_toTarget_iff ordered contains moved (within b inside)).2 inside⟩

/-! ### Windows -/

/-- **The visible part of a window can be moved up to the bus:** neither step of the move fails. -/
theorem exists_shift_of_restrict {w part : DirectWindow}
    (shown : w.restrict m.visible = some part) :
    ∃ distance v, part.shiftDown m.offset = .ok distance ∧
      distance.shiftUp m.range.start = .ok v ∧ m.toBus w = some v := by
  have within : ∀ b ∈ part.range, b ∈ m.visible := fun b inside =>
    ((DirectWindow.mem_of_restrict_eq_some shown).1 inside).2
  have first := DirectWindow.start_mem (DirectWindow.isEmpty_of_restrict shown)
  obtain ⟨distance, image, down, up⟩ := exists_moved within first
  have down' : part.shiftDown m.offset = .ok { part with range := distance } :=
    map_eq_ok_iff.2 ⟨distance, down, rfl⟩
  have up' : DirectWindow.shiftUp { part with range := distance } m.range.start =
      .ok { part with range := image } :=
    map_eq_ok_iff.2 ⟨image, up, rfl⟩
  refine ⟨_, _, down', up', ?_⟩
  simp only [toBus, shown, down', up', Except.toOption, Option.bind_eq_bind, Option.bind_some]

theorem permission_toBus {w v : DirectWindow} (moved : m.toBus w = some v) :
    v.permission = w.permission := by
  obtain ⟨part, shown, moved⟩ := Option.bind_eq_some_iff.1 moved
  obtain ⟨distance, down, up⟩ := Option.bind_eq_some_iff.1 moved
  rw [toOption_eq_some_iff] at down up
  obtain ⟨_, -, raised⟩ := map_eq_ok_iff.1 up
  obtain ⟨_, -, lowered⟩ := map_eq_ok_iff.1 down
  have same := DirectWindow.permission_of_restrict_eq_some shown
  rw [← raised, ← same, ← lowered]

/-- **A window is lost on the way only if nothing of it is shown.** -/
theorem toBus_eq_none_iff {w : DirectWindow} :
    m.toBus w = none ↔ ∀ a ∈ m.range, m.behind a ∉ w.range := by
  constructor
  · intro lost a inside there
    cases shown : w.restrict m.visible with
    | none =>
        obtain ⟨-, -, behind⟩ := mem_range_iff.1 inside
        exact DirectWindow.restrict_eq_none_iff.1 shown _ there behind
    | some part =>
        obtain ⟨-, v, -, -, moved⟩ := exists_shift_of_restrict shown
        rw [moved] at lost
        cases lost
  · intro apart
    have hidden : w.restrict m.visible = none := by
      refine DirectWindow.restrict_eq_none_iff.2 fun b inside shown => ?_
      obtain ⟨within, back⟩ := behind_of_shown shown
      exact apart _ within (back.symm ▸ inside)
    simp only [toBus, hidden, Option.bind_eq_bind, Option.bind_none]

end Mapping

namespace BusOver

variable {I : IntervalMap Mapping} [I.Sound] {b : BusOver I} {m : Mapping} {a : UInt64}

/-- **Address `a` of the bus is routed into `x`,** a range of the target behind mapping `m`. -/
def LeadsInto (b : BusOver I) (m : Mapping) (x : AddressRange) (a : UInt64) : Prop :=
  ∃ place ∈ x, b.route (.single a) = some (m, .single place)

theorem Ordered.leadsInto_iff (h : b.Ordered) (shown : m ∈ b.mappings) {x : AddressRange} :
    b.LeadsInto m x a ↔ a ∈ m.range ∧ m.behind a ∈ x := by
  constructor
  · rintro ⟨place, inside, routed⟩
    obtain ⟨-, within, same⟩ := h.route_single_eq_some_iff.1 routed
    cases congrArg AddressRange.start same
    exact ⟨within, inside⟩
  · rintro ⟨within, inside⟩
    exact ⟨_, inside, h.route_single_eq_some_iff.2 ⟨shown, within, rfl⟩⟩

/-- **A window on the bus has the pointer of an address that the target's window has of the address
it is routed to.** -/
theorem Ordered.pointerAt_toBus (h : b.Ordered) (shown : m ∈ b.mappings) {w v : DirectWindow}
    (moved : m.toBus w = some v) {p : HostPointer} :
    v.pointerAt a = some p ↔
      ∃ place, b.route (.single a) = some (m, .single place) ∧ w.pointerAt place = some p := by
  rw [DirectWindow.pointerAt_eq_some_iff, Mapping.maps_toBus_iff moved,
    Mapping.permission_toBus moved, ← DirectWindow.pointerAt_eq_some_iff]
  constructor
  · rintro ⟨within, mapped⟩
    exact ⟨_, h.route_single_eq_some_iff.2 ⟨shown, within, rfl⟩, mapped⟩
  · rintro ⟨place, routed, mapped⟩
    obtain ⟨-, within, same⟩ := h.route_single_eq_some_iff.1 routed
    cases congrArg AddressRange.start same
    exact ⟨within, mapped⟩

/-- **A window covers on the bus what is routed into it.** -/
theorem Ordered.mem_toBus_iff (h : b.Ordered) (shown : m ∈ b.mappings) {w v : DirectWindow}
    (moved : m.toBus w = some v) : a ∈ v.range ↔ b.LeadsInto m w.range a := by
  rw [h.leadsInto_iff shown]
  constructor
  · intro inside
    obtain ⟨within, there, -⟩ :=
      (Mapping.maps_toBus_iff moved).1 (DirectWindow.maps_pointerFor inside)
    exact ⟨within, there⟩
  · rintro ⟨within, there⟩
    exact ((Mapping.maps_toBus_iff moved).2
      ⟨within, DirectWindow.maps_pointerFor there⟩).1

theorem Ordered.toBus_eq_none_iff (h : b.Ordered) (shown : m ∈ b.mappings) {w : DirectWindow} :
    m.toBus w = none ↔ ∀ a, ¬ b.LeadsInto m w.range a := by
  rw [Mapping.toBus_eq_none_iff]
  exact forall_congr' fun a => by rw [h.leadsInto_iff shown, not_and]

/-- **What the target withdraws is on the bus what is routed into it.** -/
theorem Ordered.exists_mem_image_iff (h : b.Ordered) (shown : m ∈ b.mappings) {x : AddressRange} :
    (∃ image, m.rebase.image x = some image ∧ a ∈ image) ↔ b.LeadsInto m x a := by
  rw [Mapping.exists_mem_image_rebase_iff, h.leadsInto_iff shown]

/-- **A range inside a mapping is routed as far above the target's first shown address as it lies
above the start of the mapping,** and what it is routed to comes back as the range. -/
theorem Ordered.exists_route_and_back (h : b.Ordered) (shown : m ∈ b.mappings)
    {range : AddressRange} (ordered : range.start ≤ range.last)
    (contains : m.range.contains range = true) :
    ∃ place, b.route range = some (m, place) ∧
      place.start.toNat = range.start.toNat - m.range.start.toNat + m.offset.toNat ∧
      place.last.toNat = range.last.toNat - m.range.start.toNat + m.offset.toNat ∧
      m.rebase.image place = some range := by
  obtain ⟨place, routed, start, last⟩ := h.exists_route_of_contains shown ordered contains
  obtain ⟨-, -, moved⟩ := of_route_eq_some routed
  have first := AddressRange.mem_of_contains contains ⟨UInt64.le_refl _, ordered⟩
  have final := AddressRange.mem_of_contains contains ⟨ordered, UInt64.le_refl _⟩
  exact ⟨place, routed, start ▸ Mapping.toNat_behind first, last ▸ Mapping.toNat_behind final,
    Mapping.image_rebase_of_toTarget ordered contains moved⟩

/-- **What goes down through a mapping and what comes up through it agree,** and no step of either
fails. -/
structure Translates (b : BusOver I) (m : Mapping) : Prop where
  /-- A range of the mapping is routed to the range at the same distance from the target's first
  shown address, and a withdrawal of that range is one of the very range it came from. -/
  routed : ∀ range : AddressRange, range.start ≤ range.last → m.range.contains range = true →
    ∃ place, b.route range = some (m, place) ∧
      place.start.toNat = range.start.toNat - m.range.start.toNat + m.offset.toNat ∧
      place.last.toNat = range.last.toNat - m.range.start.toNat + m.offset.toNat ∧
      m.rebase.image place = some range
  /-- Any range that is withdrawn is on the bus what is routed into it. -/
  withdrawn : ∀ x a,
    (∃ image, m.rebase.image x = some image ∧ a ∈ image) ↔ b.LeadsInto m x a
  /-- A window is lost only if nothing is routed into it. -/
  hidden : ∀ w, m.toBus w = none ↔ ∀ a, ¬ b.LeadsInto m w.range a
  /-- What is visible of a window can be moved. -/
  moved : ∀ w part, w.restrict m.visible = some part → ∃ distance v,
    part.shiftDown m.offset = .ok distance ∧ distance.shiftUp m.range.start = .ok v ∧
      m.toBus w = some v
  /-- A window covers on the bus what is routed into it, and has the pointer of an address that it
  has at the target of the address that is routed to. -/
  offered : ∀ w v, m.toBus w = some v → v.permission = w.permission ∧
    (∀ a, a ∈ v.range ↔ b.LeadsInto m w.range a) ∧
    ∀ a p, v.pointerAt a = some p ↔
      ∃ place, b.route (.single a) = some (m, .single place) ∧ w.pointerAt place = some p

/-- **A bus whose mappings do not overlap translates alike in both directions.** -/
theorem Ordered.translates_of_mem (h : b.Ordered) (shown : m ∈ b.mappings) : b.Translates m where
  routed := fun _ ordered contains => h.exists_route_and_back shown ordered contains
  withdrawn := fun _ _ => h.exists_mem_image_iff shown
  hidden := fun _ => h.toBus_eq_none_iff shown
  moved := fun _ _ visible => Mapping.exists_shift_of_restrict visible
  offered := fun _ _ moved => ⟨Mapping.permission_toBus moved, fun _ => h.mem_toBus_iff shown moved,
    fun _ _ => h.pointerAt_toBus shown moved⟩

/-! ### What reaches a target -/

/-- **A range that lies in no mapping is not routed.** -/
theorem route_eq_none_of_outside {range : AddressRange}
    (outside : ∀ m ∈ b.mappings, m.range.contains range = false) : b.route range = none := by
  cases routed : b.route range with
  | none => rfl
  | some found =>
      obtain ⟨m, place⟩ := found
      obtain ⟨shown, contains, -⟩ := of_route_eq_some routed
      rw [outside _ shown] at contains
      cases contains

variable {σ : Type u} {targets : TargetId → Target σ} {range place : AddressRange}

omit [I.Sound] in
/-- A range that is not routed is answered as by nothing, whatever the targets are. -/
theorem target_of_unrouted (lost : b.route range = none) (attributes : Attributes) (data : Bytes)
    (w : World σ) :
    (b.target targets).read range attributes data w = (.addressError, data, w) ∧
      (b.target targets).write range attributes data w = (.addressError, w) ∧
      (b.target targets).window range attributes w = (none, w) := by
  refine ⟨?_, ?_, ?_⟩ <;> simp only [target, lost]

omit [I.Sound] in
/-- A window is asked for at the target, and what the target offers is moved up. -/
theorem window_of_routed (routed : b.route range = some (m, place)) (attributes : Attributes)
    (w : World σ) :
    (b.target targets).window range attributes w =
      (((targets m.target).window place attributes w).1.bind m.toBus,
        ((targets m.target).window place attributes w).2) := by
  simp only [target, routed]

end BusOver

end Interconnect
