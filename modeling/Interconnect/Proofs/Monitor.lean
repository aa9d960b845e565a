import Interconnect.Monitor
import Interconnect.Proofs.Window.Basic

/-!
# Reservations and the windows around them

What accesses do to the reservations that stand, and why a carved window meets none of them.

## Main Statements

* `mem_reservations_of_apply` — where a reservation that stands after an access comes from
* `overlaps_eq_false_of_carve` — a carved window meets no reservation
* `maps_of_carve` — a carved window is a part of the window that it was carved from
-/

namespace Interconnect

namespace Monitor

theorem holds_eq_true_iff {m : Monitor} {owner : Owner} {range : AddressRange} :
    m.holds owner range = true ↔
      ∃ r ∈ m.reservations, r.owner = owner ∧ r.range.overlaps range = true := by
  simp [holds]

/-! ### Accesses -/

/-- An access that is not exclusive is always admitted, and breaks what it writes to. -/
theorem apply_of_not_exclusive (m : Monitor) (range : AddressRange) (command : Command)
    (owner : Owner) :
    m.apply ⟨range, command, owner, false⟩ =
      some (if command = .write then m.breakRange range else m) := by
  cases command <;> simp [apply, permits]

/-- A write that meets no reservation breaks none. -/
theorem breakRange_eq_self {m : Monitor} {range : AddressRange}
    (apart : ∀ r ∈ m.reservations, r.range.overlaps range = false) : m.breakRange range = m := by
  have kept : (m.reservations.filter fun r => !r.range.overlaps range) = m.reservations :=
    List.filter_eq_self.2 fun r stands => by simp [apart r stands]
  rw [breakRange, kept]

/-- **A reservation that stands after an access stood before it or was made by it.** -/
theorem mem_reservations_of_apply {m after : Monitor} {access : Access}
    (h : m.apply access = some after) {r : Reservation} (stands : r ∈ after.reservations) :
    (r ∈ m.reservations ∧ (access.command = .write → r.range.overlaps access.range = false)) ∨
      (access.exclusive = true ∧ access.command = .read ∧ r = ⟨access.owner, access.range⟩) := by
  obtain ⟨range, command, owner, exclusive⟩ := access
  unfold apply at h
  split at h
  · cases command with
    | read =>
        cases exclusive with
        | false =>
            cases h
            exact .inl ⟨stands, by simp⟩
        | true =>
            cases h
            rw [if_pos rfl, reservations_reserve, List.mem_append, List.mem_singleton] at stands
            exact stands.imp (fun old => ⟨old, by simp⟩) (fun new => ⟨rfl, rfl, new⟩)
    | write =>
        cases h
        obtain ⟨old, apart⟩ := mem_breakRange.1 stands
        exact .inl ⟨old, fun _ => apart⟩
    | ignore =>
        cases h
        exact .inl ⟨stands, by simp⟩
  · cases h

/-! ### Carving -/

theorem isFree_iff {m : Monitor} {a : UInt64} :
    m.isFree a = true ↔ ∀ r ∈ m.reservations, a ∉ r.range := by
  simp [isFree, AddressRange.includes]

/-- Choosing the lowest of some addresses gives one of them. -/
private theorem mem_of_foldl_lowest (addresses : List UInt64) (best : Option UInt64) {a : UInt64}
    (h : addresses.foldl (fun best a => match best with
      | none => some a
      | some b => if a < b then some a else some b) best = some a) :
    a ∈ addresses ∨ best = some a := by
  induction addresses generalizing best with
  | nil => exact .inr h
  | cons b rest ih =>
      rw [List.foldl_cons] at h
      rcases ih _ h with inRest | chosen
      · exact .inl (List.mem_cons_of_mem b inRest)
      · cases best with
        | none =>
            cases chosen
            exact .inl List.mem_cons_self
        | some c =>
            dsimp only at chosen
            split at chosen
            · cases chosen
              exact .inl List.mem_cons_self
            · exact .inr chosen

theorem isFree_of_lowestFree {m : Monitor} {range : AddressRange} {a : UInt64}
    (h : m.lowestFree range = some a) : a ∈ range ∧ m.isFree a = true := by
  rcases mem_of_foldl_lowest _ _ h with candidate | absent
  · have fit := (List.mem_filter.1 candidate).2
    rwa [Bool.and_eq_true, AddressRange.includes_eq_true_iff] at fit
  · cases absent

/-- Narrowing by one reservation only takes away, and leaves none of the reservation's addresses if
the pivot is not among them. -/
private theorem narrow_spec (pivot low high : UInt64) (r : Reservation) :
    low ≤ (narrow pivot (low, high) r).1 ∧ (narrow pivot (low, high) r).2 ≤ high ∧
      (pivot ∉ r.range → r.range.isEmpty = false →
        r.range.last < (narrow pivot (low, high) r).1 ∨
          (narrow pivot (low, high) r).2 < r.range.start) := by
  simp only [narrow, AddressRange.mem_iff, AddressRange.isEmpty_eq_false_iff]
  refine ⟨?_, ?_, ?_⟩
  · grind
  · grind
  · grind

private theorem foldl_narrow_spec (pivot : UInt64) (reservations : List Reservation)
    (bounds : UInt64 × UInt64) :
    bounds.1 ≤ (reservations.foldl (narrow pivot) bounds).1 ∧
      (reservations.foldl (narrow pivot) bounds).2 ≤ bounds.2 ∧
      ∀ r ∈ reservations, pivot ∉ r.range → r.range.isEmpty = false →
        r.range.last < (reservations.foldl (narrow pivot) bounds).1 ∨
          (reservations.foldl (narrow pivot) bounds).2 < r.range.start := by
  induction reservations generalizing bounds with
  | nil => exact ⟨UInt64.le_refl _, UInt64.le_refl _, fun r mem => absurd mem List.not_mem_nil⟩
  | cons s rest ih =>
      obtain ⟨low, high⟩ := bounds
      obtain ⟨lowStep, highStep, apart⟩ := narrow_spec pivot low high s
      obtain ⟨lowRest, highRest, apartRest⟩ := ih (narrow pivot (low, high) s)
      rw [List.foldl_cons]
      refine ⟨UInt64.le_trans lowStep lowRest, UInt64.le_trans highRest highStep, ?_⟩
      intro r mem outside holds
      rcases List.mem_cons.1 mem with rfl | inRest
      · refine (apart outside holds).imp ?_ ?_
        · exact fun below => UInt64.lt_of_lt_of_le below lowRest
        · exact fun above => UInt64.lt_of_le_of_lt highRest above
      · exact apartRest r inRest outside holds

/-- A carved window is the restriction of the window to some range without a reserved address. -/
theorem exists_restrict_of_carve {m : Monitor} {access : Access} {w v : DirectWindow}
    (h : m.carve access w = some v) :
    ∃ part, w.restrict part = some v ∧ ∀ r ∈ m.reservations, part.overlaps r.range = false := by
  unfold carve at h
  dsimp only at h
  obtain ⟨pivot, found, h⟩ := Option.bind_eq_some_iff.1 h
  have free := isFree_iff.1 (isFree_of_lowestFree found).2
  obtain ⟨-, -, apart⟩ := foldl_narrow_spec pivot m.reservations (w.start, w.last)
  split at h
  · next part made =>
      obtain ⟨start, last⟩ := AddressRange.ofBounds_eq_ok_iff.1 made
      refine ⟨part, h, fun r stands => ?_⟩
      rw [AddressRange.overlaps_eq_false_iff]
      intro a inPart inReserved
      have holds : r.range.isEmpty = false :=
        AddressRange.isEmpty_eq_false_iff.2 (UInt64.le_trans inReserved.1 inReserved.2)
      rw [AddressRange.mem_iff, start, last] at inPart
      rw [AddressRange.mem_iff] at inReserved
      -- the pivot is free, so every reservation ends below the part or starts above it
      rcases apart r stands (free r stands) holds with below | above
      · grind
      · grind
  · cases h

/-- **A carved window meets no reservation.** -/
theorem overlaps_eq_false_of_carve {m : Monitor} {access : Access} {w v : DirectWindow}
    (h : m.carve access w = some v) {r : Reservation} (stands : r ∈ m.reservations) :
    v.range.overlaps r.range = false := by
  obtain ⟨part, restricted, apart⟩ := exists_restrict_of_carve h
  rw [AddressRange.overlaps_eq_false_iff]
  intro a inside
  exact AddressRange.overlaps_eq_false_iff.1 (apart r stands) a
    ((DirectWindow.mem_of_restrict_eq_some restricted).1 inside).2

/-- **A carved window is a part of the window that it was carved from.** -/
theorem maps_of_carve {m : Monitor} {access : Access} {w v : DirectWindow}
    (h : m.carve access w = some v) {a : UInt64} {q : Permission} {p : HostPointer}
    (maps : v.Maps a q p) : w.Maps a q p := by
  obtain ⟨part, restricted, -⟩ := exists_restrict_of_carve h
  exact ((DirectWindow.maps_restrict_iff restricted).1 maps).1

end Monitor

end Interconnect
