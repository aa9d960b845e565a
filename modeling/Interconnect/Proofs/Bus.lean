import Mathlib.Data.List.Pairwise
import Interconnect.Bus.Basic
import Interconnect.Proofs.Bus.Interval
import Interconnect.Proofs.Window.Basic

/-!
# Addresses behind a bus

Which target address lies behind an address of a bus, and how windows, withdrawn ranges and accesses
keep to that.  What a bus shows is read off the list of its mappings, whatever interval map it keeps
them in.

## Main Definitions

* `Mapping.behind` — the target's address behind one of the bus
* `BusOver.Ordered` — no two mappings of a bus overlap, and each is kept at its range

## Main Statements

* `Mapping.maps_toBus_iff` — a window on the bus maps what the target's window maps behind it
* `Mapping.exists_image_rebase` — a withdrawn range takes its addresses up to the bus
* `BusOver.Ordered.of_map_eq_ok`, `BusOver.Ordered.of_unmap_eq_ok` — what is new or gone
* `BusOver.Ordered.find?_eq_some_iff`, `BusOver.Ordered.route_single_eq_some_iff` — where an address
  is routed to
-/

namespace Interconnect

namespace Mapping

/-- **The target's address behind an address of the bus.** -/
def behind (m : Mapping) (a : UInt64) : UInt64 := a - m.range.start + m.offset

theorem of_make_eq_ok {range : AddressRange} {offset : UInt64} {target : TargetId} {m : Mapping}
    (h : make range offset target = .ok m) :
    m.range = range ∧ m.offset = offset ∧ m.target = target := by
  unfold make at h
  split at h
  · split at h
    · cases h
      exact ⟨rfl, rfl, rfl⟩
    · cases h
  · cases h

/-- The addresses of the mapping are those that move to shown ones without wrapping. -/
theorem mem_range_iff {m : Mapping} {a : UInt64} :
    a ∈ m.range ↔ m.range.start ≤ a ∧ a - m.range.start ≤ a - m.range.start + m.offset ∧
      m.behind a ∈ m.visible := by
  have ordered := m.ordered
  have fits := m.fits
  simp only [behind, AddressRange.mem_iff, start_visible, last_visible]
  grind

/-- Addresses of a mapping keep their order on the way to the target. -/
theorem behind_le_behind {m : Mapping} {a b : UInt64} (low : a ∈ m.range) (high : b ∈ m.range)
    (ordered : a ≤ b) : m.behind a ≤ m.behind b := by
  have fits := m.fits
  simp only [behind, AddressRange.mem_iff] at low high ⊢
  grind

/-- **A window on the bus maps an address as the target's window maps the one behind it.** -/
theorem maps_toBus_iff {m : Mapping} {w v : DirectWindow} (h : m.toBus w = some v) {a : UInt64}
    {q : Permission} {p : HostPointer} :
    v.Maps a q p ↔ a ∈ m.range ∧ w.Maps (m.behind a) q p := by
  obtain ⟨part, restricted, h⟩ := Option.bind_eq_some_iff.1 h
  obtain ⟨distance, down, up⟩ := Option.bind_eq_some_iff.1 h
  rw [toOption_eq_some_iff] at down up
  rw [DirectWindow.maps_shiftUp_iff up, DirectWindow.maps_shiftDown_iff down,
    DirectWindow.maps_restrict_iff restricted, ← behind]
  constructor
  · rintro ⟨above, exact, maps, shown⟩
    exact ⟨mem_range_iff.2 ⟨above, exact, shown⟩, maps⟩
  · rintro ⟨inside, maps⟩
    obtain ⟨above, exact, shown⟩ := mem_range_iff.1 inside
    exact ⟨above, exact, maps, shown⟩

/-- Whatever part of the shown addresses can be moved up to the bus. -/
theorem exists_moved {m : Mapping} {part : AddressRange}
    (within : ∀ b ∈ part, b ∈ m.visible) {b : UInt64} (holds : b ∈ part) :
    ∃ distance image, part.shiftDown m.offset = .ok distance ∧
      distance.shiftUp m.range.start = .ok image := by
  have ordered := m.ordered
  have fits := m.fits
  have nonempty : part.start ≤ part.last := UInt64.le_trans holds.1 holds.2
  have low := within part.start ⟨UInt64.le_refl _, nonempty⟩
  have high := within part.last ⟨nonempty, UInt64.le_refl _⟩
  simp only [AddressRange.mem_iff, start_visible, last_visible] at low high
  let distance : AddressRange :=
    ⟨part.start - m.offset, part.last - m.offset, .inl (by grind)⟩
  let image : AddressRange :=
    ⟨part.start - m.offset + m.range.start, part.last - m.offset + m.range.start,
      .inl (by grind)⟩
  exact ⟨distance, image, AddressRange.shiftDown_eq_ok_iff.2 ⟨⟨by grind, by grind⟩, rfl, rfl⟩,
    AddressRange.shiftUp_eq_ok_iff.2 ⟨⟨by grind, by grind⟩, rfl, rfl⟩⟩

/-- **A range that the target withdraws takes its addresses up to the bus.** -/
theorem exists_image_rebase {m : Mapping} {a : UInt64} (inside : a ∈ m.range)
    {range : AddressRange} (withdrawn : m.behind a ∈ range) :
    ∃ image, m.rebase.image range = some image ∧ a ∈ image := by
  obtain ⟨above, exact, shown⟩ := mem_range_iff.1 inside
  cases met : m.visible.intersect range with
  | none => exact absurd withdrawn (AddressRange.intersect_eq_none_iff.1 met _ shown)
  | some part =>
      have here : m.behind a ∈ part :=
        (AddressRange.mem_of_intersect_eq_some met).2 ⟨shown, withdrawn⟩
      have within : ∀ b ∈ part, b ∈ m.visible := fun b inPart =>
        ((AddressRange.mem_of_intersect_eq_some met).1 inPart).1
      obtain ⟨distance, image, down, up⟩ := exists_moved within here
      refine ⟨image, ?_, ?_⟩
      · simp [Rebase.image, rebase, met, down, up, Except.toOption]
      · rw [AddressRange.mem_shiftUp_iff up, AddressRange.mem_shiftDown_iff down]
        exact ⟨above, exact, here⟩

/-- A single address inside the mapping is carried to the one behind it. -/
theorem toTarget_single {m : Mapping} {a : UInt64} (inside : a ∈ m.range) :
    m.toTarget (.single a) = some (.single (m.behind a)) := by
  have contains : m.range.contains (.single a) = true := AddressRange.contains_single_iff.2 inside
  obtain ⟨place, moved, start, last⟩ := m.toTarget_eq_some (UInt64.le_refl a) contains
  rw [moved]
  congr 1
  exact AddressRange.ext start last

/-- Two mappings have no address in common. -/
def Apart (m n : Mapping) : Prop := m.range.overlaps n.range = false

instance : Std.Symm Apart where
  symm := fun m n apart => (AddressRange.overlaps_comm n.range m.range).trans apart

end Mapping

namespace BusOver

variable {I : IntervalMap Mapping} [I.Sound] {b : BusOver I}

/-- **Every mapping is kept at the interval of its range, and no two overlap.** -/
structure Ordered (b : BusOver I) : Prop where
  /-- The key of a mapping is the interval of its range. -/
  keyed : ∀ e ∈ I.entries b.ports, e.1 = e.2.range.span
  /-- No two mappings overlap. -/
  apart : b.mappings.Pairwise Mapping.Apart

/-! ### The list of the mappings -/

theorem mappings_ofHandle (handle : HandleId) : (ofHandle handle : BusOver I).mappings = [] := by
  rw [mappings, ofHandle, IntervalMap.Sound.entries_empty, List.map_nil]

omit [I.Sound] in
theorem ordered_of_mappings_eq_nil (hollow : b.mappings = []) : b.Ordered where
  keyed := by
    rw [List.map_eq_nil_iff.1 hollow]
    exact fun _ absent => absurd absent List.not_mem_nil
  apart := by
    rw [hollow]
    exact .nil

omit [I.Sound] in
/-- A mapping is found at the interval of its range. -/
theorem Ordered.mem_mappings_iff (h : b.Ordered) {m : Mapping} :
    m ∈ b.mappings ↔ (m.range.span, m) ∈ I.entries b.ports := by
  constructor
  · intro shown
    obtain ⟨⟨key, m⟩, entry, rfl⟩ := List.mem_map.1 shown
    have same : key = m.range.span := h.keyed _ entry
    exact same ▸ entry
  · exact fun entry => List.mem_map.2 ⟨_, entry, rfl⟩

/-- **The mapping of an address is the first in the list whose range includes it.** -/
theorem Ordered.find?_eq (h : b.Ordered) (a : UInt64) :
    b.find? a = b.mappings.find? fun m => m.range.includes a := by
  have same : ∀ e ∈ I.entries b.ports, e.1.includes (position a) = e.2.range.includes a :=
    fun e entry => by rw [h.keyed e entry, AddressRange.includes_span]
  rw [find?, IntervalMap.Sound.holding, List.filter_congr same, List.head?_filter, mappings,
    List.find?_map]
  rfl

theorem mem_of_find?_eq_some {a : UInt64} {m : Mapping} (found : b.find? a = some m) :
    m ∈ b.mappings := by
  rw [find?, IntervalMap.Sound.holding, List.head?_filter] at found
  obtain ⟨e, first, rfl⟩ := Option.map_eq_some_iff.1 found
  exact List.mem_map_of_mem (List.mem_of_find?_eq_some first)

/-- **The mapping in the way of a range is the first in the list that overlaps it.** -/
theorem Ordered.meeting_eq (h : b.Ordered) {range : AddressRange} (holds : range.isEmpty = false) :
    (I.meeting b.ports range.span).head?.map Prod.snd =
      b.mappings.find? fun n => n.range.overlaps range := by
  have same : ∀ e ∈ I.entries b.ports, e.1.meets range.span = e.2.range.overlaps range := by
    intro e entry
    have nonempty : e.2.range.isEmpty = false := AddressRange.isEmpty_eq_false_iff.2 e.2.ordered
    rw [h.keyed e entry, AddressRange.meets_span nonempty holds]
  rw [IntervalMap.Sound.meeting _ _ (AddressRange.holds_span_iff.2 holds), List.filter_congr same,
    List.head?_filter, mappings, List.find?_map]
  rfl

/-! ### Mapping -/

/-- What a call to map gives, by whether the mapping can be made and which it would overlap. -/
theorem Ordered.accept_eq (h : b.Ordered) (range : AddressRange) (offset : UInt64)
    (target : TargetId) :
    b.accept range offset target =
      match Mapping.make range offset target with
      | .error fault => .error fault
      | .ok m =>
        match b.mappings.find? fun n => n.range.overlaps range with
        | some existing => .error (.mapConflict range existing.range)
        | none => .ok m := by
  unfold accept
  cases made : Mapping.make range offset target with
  | error fault => rfl
  | ok m =>
      obtain ⟨rfl, -, -⟩ := Mapping.of_make_eq_ok made
      have nonempty : m.range.isEmpty = false := AddressRange.isEmpty_eq_false_iff.2 m.ordered
      rw [← h.meeting_eq nonempty]
      cases (I.meeting b.ports m.range.span).head? <;> rfl

/-- **What is admitted is made as it was asked for,** over addresses that are free. -/
theorem Ordered.of_accept_eq_ok (h : b.Ordered) {range : AddressRange} {offset : UInt64}
    {target : TargetId} {m : Mapping} (admitted : b.accept range offset target = .ok m) :
    (m.range = range ∧ m.offset = offset ∧ m.target = target) ∧
      ∀ n ∈ b.mappings, n.range.overlaps m.range = false := by
  rw [h.accept_eq] at admitted
  split at admitted
  · cases admitted
  · next made =>
      split at admitted
      · cases admitted
      · next free =>
          cases admitted
          obtain ⟨rfl, rfl, rfl⟩ := Mapping.of_make_eq_ok made
          exact ⟨⟨rfl, rfl, rfl⟩, by simpa using free⟩

omit [I.Sound] in
@[simp] theorem handle_insert (m : Mapping) : (b.insert m).handle = b.handle := rfl

/-- A mapping over free addresses replaces no other. -/
theorem Ordered.mem_entries_insert_iff (h : b.Ordered) {m : Mapping}
    (free : ∀ n ∈ b.mappings, n.range.overlaps m.range = false) {e : Span × Mapping} :
    e ∈ I.entries (b.insert m).ports ↔ e = (m.range.span, m) ∨ e ∈ I.entries b.ports := by
  have nonempty : m.range.isEmpty = false := AddressRange.isEmpty_eq_false_iff.2 m.ordered
  refine (IntervalMap.Sound.insert _ _ _ (AddressRange.holds_span_iff.2 nonempty) e).trans ?_
  refine or_congr_right (and_iff_left_of_imp fun entry same => ?_)
  -- a mapping at the same interval would be in the way
  rw [h.keyed e entry, AddressRange.span_inj] at same
  have first : m.range.start ∈ m.range := ⟨UInt64.le_refl _, m.ordered⟩
  have apart := free e.2 (List.mem_map_of_mem entry)
  exact AddressRange.overlaps_eq_false_iff.1 apart _ (same ▸ first) first

/-- **A mapping over free addresses comes to those that are there.** -/
theorem Ordered.mem_mappings_insert_iff (h : b.Ordered) {m : Mapping}
    (free : ∀ n ∈ b.mappings, n.range.overlaps m.range = false) {n : Mapping} :
    n ∈ (b.insert m).mappings ↔ n = m ∨ n ∈ b.mappings := by
  simp only [mappings, List.mem_map, h.mem_entries_insert_iff free]
  constructor
  · rintro ⟨e, rfl | entry, rfl⟩
    · exact .inl rfl
    · exact .inr ⟨e, entry, rfl⟩
  · rintro (rfl | ⟨e, entry, rfl⟩)
    · exact ⟨_, .inl rfl, rfl⟩
    · exact ⟨e, .inr entry, rfl⟩

theorem Ordered.insert (h : b.Ordered) {m : Mapping}
    (free : ∀ n ∈ b.mappings, n.range.overlaps m.range = false) : (b.insert m).Ordered where
  keyed := by
    intro e entry
    rcases (h.mem_entries_insert_iff free).1 entry with rfl | old
    · rfl
    · exact h.keyed e old
  apart := by
    have different := IntervalMap.Ascending.nodup (IntervalMap.Sound.ascending (b.insert m).ports)
    refine List.pairwise_map.2 (different.imp_of_mem fun {e f} entry entry' other => ?_)
    rcases (h.mem_entries_insert_iff free).1 entry with rfl | old
    · rcases (h.mem_entries_insert_iff free).1 entry' with rfl | old'
      · exact absurd rfl other
      · exact symm (free f.2 (List.mem_map_of_mem old'))
    · rcases (h.mem_entries_insert_iff free).1 entry' with rfl | old'
      · exact free e.2 (List.mem_map_of_mem old)
      · refine h.apart.forall (List.mem_map_of_mem old) (List.mem_map_of_mem old') fun same => ?_
        exact other (Prod.ext (by rw [h.keyed e old, h.keyed f old', same]) same)

/-- **What is new after a mapping has been made:** the mapping, over addresses that were free. -/
theorem Ordered.of_map_eq_ok (h : b.Ordered) {after : BusOver I} {range : AddressRange}
    {offset : UInt64} {target : TargetId} {m : Mapping}
    (made : b.map range offset target = (.ok m, after)) :
    (m.range = range ∧ m.offset = offset ∧ m.target = target) ∧ after.Ordered ∧
      after.handle = b.handle ∧ ∀ n, n ∈ after.mappings ↔ n = m ∨ n ∈ b.mappings := by
  unfold map at made
  cases admitted : b.accept range offset target with
  | error fault =>
      rw [admitted] at made
      cases made
  | ok m =>
      rw [admitted] at made
      cases made
      obtain ⟨asked, free⟩ := h.of_accept_eq_ok admitted
      exact ⟨asked, h.insert free, rfl, fun n => h.mem_mappings_insert_iff free⟩

/-! ### Unmapping -/

/-- **What a removal leaves:** the mappings of all other ranges. -/
theorem Ordered.of_remove (h : b.Ordered) {range : AddressRange} (holds : range.isEmpty = false) :
    ({ b with ports := (I.remove b.ports range.span).2 } : BusOver I).Ordered ∧
      ({ b with ports := (I.remove b.ports range.span).2 } : BusOver I).mappings =
        b.mappings.filter fun m => m.range ≠ range := by
  have left := IntervalMap.Sound.entries_remove b.ports range.span
    (AddressRange.holds_span_iff.2 holds)
  have listed : ({ b with ports := (I.remove b.ports range.span).2 } : BusOver I).mappings =
      b.mappings.filter fun m => m.range ≠ range := by
    rw [mappings, left, mappings, List.filter_map]
    congr 1
    refine List.filter_congr fun e entry => ?_
    simp [h.keyed e entry, AddressRange.span_inj]
  refine ⟨⟨fun e entry => ?_, ?_⟩, listed⟩
  · exact h.keyed e (List.mem_filter.1 (left ▸ entry)).1
  · rw [listed]
    exact h.apart.sublist List.filter_sublist

/-- A removal gives the mapping of exactly the range, if there is one. -/
theorem Ordered.remove_eq_some_iff (h : b.Ordered) {range : AddressRange}
    (holds : range.isEmpty = false) {m : Mapping} :
    (I.remove b.ports range.span).1 = some m ↔ m ∈ b.mappings ∧ m.range = range := by
  rw [IntervalMap.Sound.remove _ _ _ (AddressRange.holds_span_iff.2 holds)]
  constructor
  · intro entry
    have same : range = m.range := AddressRange.span_inj.1 (h.keyed _ entry)
    exact ⟨List.mem_map_of_mem (f := Prod.snd) entry, same.symm⟩
  · rintro ⟨shown, rfl⟩
    exact h.mem_mappings_iff.1 shown

/-- **What is gone after a mapping has ended:** the mapping of exactly that range. -/
theorem Ordered.of_unmap_eq_ok (h : b.Ordered) {after : BusOver I} {range : AddressRange}
    {m : Mapping} (ended : b.unmap range = (.ok m, after)) :
    (m ∈ b.mappings ∧ m.range = range) ∧ after.Ordered ∧ after.handle = b.handle ∧
      ∀ n, n ∈ after.mappings ↔ n ∈ b.mappings ∧ n.range ≠ range := by
  unfold unmap at ended
  split at ended
  · cases ended
  · next nonempty =>
      rw [Bool.not_eq_true] at nonempty
      obtain ⟨ordered, listed⟩ := h.of_remove nonempty
      cases removed : I.remove b.ports range.span with
      | mk found ports =>
          rw [removed] at ended ordered listed
          cases found with
          | none => cases ended
          | some m =>
              cases ended
              refine ⟨(h.remove_eq_some_iff nonempty).1 (by rw [removed]), ordered, rfl,
                fun n => ?_⟩
              rw [listed, List.mem_filter, decide_eq_true_iff]

/-! ### Routing -/

/-- **The mapping of an address is the one that shows it.** -/
theorem Ordered.find?_eq_some_iff (h : b.Ordered) {a : UInt64} {m : Mapping} :
    b.find? a = some m ↔ m ∈ b.mappings ∧ a ∈ m.range := by
  rw [h.find?_eq]
  constructor
  · intro found
    exact ⟨List.mem_of_find?_eq_some found, by simpa using List.find?_some found⟩
  · rintro ⟨shown, inside⟩
    cases found : b.mappings.find? fun m => m.range.includes a with
    | none =>
        rw [List.find?_eq_none] at found
        exact absurd (AddressRange.includes_eq_true_iff.2 inside) (found m shown)
    | some n =>
        have other : a ∈ n.range := by simpa using List.find?_some found
        by_cases same : m = n
        · rw [same]
        · have apart : m.Apart n := h.apart.forall shown (List.mem_of_find?_eq_some found) same
          exact absurd other (AddressRange.overlaps_eq_false_iff.1 apart a inside)

/-- A whole range is routed to a mapping that shows all of it. -/
theorem of_route_eq_some {range : AddressRange} {m : Mapping} {place : AddressRange}
    (h : b.route range = some (m, place)) :
    m ∈ b.mappings ∧ m.range.contains range = true ∧ m.toTarget range = some place := by
  obtain ⟨n, found, h⟩ := Option.bind_eq_some_iff.1 h
  split at h
  · next inside =>
      obtain ⟨moved, target, h⟩ := Option.bind_eq_some_iff.1 h
      cases h
      exact ⟨mem_of_find?_eq_some found, inside, target⟩
  · cases h

/-- **A single address is routed to the one behind it.** -/
theorem Ordered.route_single_eq_some_iff (h : b.Ordered) {a : UInt64} {m : Mapping}
    {place : AddressRange} :
    b.route (.single a) = some (m, place) ↔
      m ∈ b.mappings ∧ a ∈ m.range ∧ place = .single (m.behind a) := by
  constructor
  · intro routed
    obtain ⟨shown, contains, moved⟩ := of_route_eq_some routed
    have inside := AddressRange.contains_single_iff.1 contains
    rw [Mapping.toTarget_single inside] at moved
    exact ⟨shown, inside, (Option.some.inj moved).symm⟩
  · rintro ⟨shown, inside, rfl⟩
    have found : b.find? (AddressRange.single a).start = some m :=
      h.find?_eq_some_iff.2 ⟨shown, inside⟩
    simp [route, found, AddressRange.contains_single_iff.2 inside, Mapping.toTarget_single inside]

/-- **A range inside a mapping is routed to the one behind it.** -/
theorem Ordered.exists_route_of_contains (h : b.Ordered) {m : Mapping}
    (shown : m ∈ b.mappings) {range : AddressRange} (ordered : range.start ≤ range.last)
    (contains : m.range.contains range = true) :
    ∃ place, b.route range = some (m, place) ∧ place.start = m.behind range.start ∧
      place.last = m.behind range.last := by
  have inside : range.start ∈ m.range := by
    simp only [AddressRange.contains, Bool.and_eq_true, AddressRange.includes_eq_true_iff]
      at contains
    exact contains.1
  have found : b.find? range.start = some m := h.find?_eq_some_iff.2 ⟨shown, inside⟩
  obtain ⟨place, moved, start, last⟩ := m.toTarget_eq_some ordered contains
  exact ⟨place, by simp [route, found, contains, moved], start, last⟩

/-- **A range that runs past the end of its mapping is not routed at all.** -/
theorem Ordered.route_eq_none_of_not_contains (h : b.Ordered) {m : Mapping}
    (shown : m ∈ b.mappings) {range : AddressRange} (inside : range.start ∈ m.range)
    (beyond : m.range.contains range = false) : b.route range = none := by
  have found : b.find? range.start = some m := h.find?_eq_some_iff.2 ⟨shown, inside⟩
  simp [route, found, beyond]

end BusOver

end Interconnect
