import Mathlib.Order.Interval.Set.OrdConnected
import Mathlib.Algebra.Order.Group.Nat
import Mathlib.Algebra.Order.Interval.Set.Monoid
import Mathlib.Data.Set.Lattice
import Interconnect.Proofs.Range
import Interconnect.Word

/-!
# The algebra of ranges is that of sets

A range stands for a set of numbers, the addresses in it.  Every operation on ranges is one on these
sets, up to both ends of the address space; and the bounds that it computes with the arithmetic of
64-bit words are bounds that the checked constructor accepts.

## Main Definitions

* `AddressRange.addresses` — the addresses of a range, as numbers
* `Remainder.Leaves` — the pieces of a remainder are the parts of a set
* `AddressRange.SetLaws`, `AddressRange.IntervalLaws`, `AddressRange.ShiftLaws` — what the
  operations do with the sets

## Main Statements

* `setLaws`, `intervalLaws`, `shiftLaws` — the laws hold, group by group
* `set_algebra` — all of them

### Empty ranges

An empty range has no address, but it has a place.  Common parts, remainders and moves only see the
set; what is said of covers and of neighbours looks at bounds, and is therefore said of ranges that
hold an address.
-/

namespace Interconnect

namespace AddressRange

/-! ### The addresses of a range -/

/-- **The addresses of a range, as numbers.** -/
def addresses (r : AddressRange) : Set ℕ := {n | ∃ a ∈ r, a.toNat = n}

theorem toNat_mem_addresses {r : AddressRange} {a : UInt64} : a.toNat ∈ r.addresses ↔ a ∈ r := by
  constructor
  · rintro ⟨b, inside, same⟩
    exact UInt64.toNat_inj.1 same ▸ inside
  · exact fun inside => ⟨a, inside, rfl⟩

/-- The addresses are those from one bound to the other. -/
theorem addresses_eq_Icc (r : AddressRange) :
    r.addresses = Set.Icc r.start.toNat r.last.toNat := by
  ext n
  constructor
  · rintro ⟨a, inside, rfl⟩
    exact ⟨UInt64.le_iff_toNat_le.1 inside.1, UInt64.le_iff_toNat_le.1 inside.2⟩
  · rintro ⟨low, high⟩
    have small : n < UInt64.size := Nat.lt_of_le_of_lt high r.last.toNat_lt
    have same : (UInt64.ofNat n).toNat = n := UInt64.toNat_ofNat_of_lt' small
    refine ⟨UInt64.ofNat n, ?_, same⟩
    rw [mem_iff, UInt64.le_iff_toNat_le, UInt64.le_iff_toNat_le, same]
    exact ⟨low, high⟩

/-- A range that holds just the addresses of a part of another has this part as its addresses. -/
theorem addresses_eq_of_mem {t r : AddressRange} {part : Set ℕ} (within : part ⊆ r.addresses)
    (same : ∀ a, a ∈ t ↔ a.toNat ∈ part) : t.addresses = part := by
  ext n
  constructor
  · rintro ⟨a, inside, rfl⟩
    exact (same a).1 inside
  · intro inside
    obtain ⟨a, -, rfl⟩ := within inside
    exact toNat_mem_addresses.2 ((same a).2 inside)

/-- Ranges have an address in common exactly if the sets have. -/
theorem inter_addresses_nonempty_iff {r s : AddressRange} :
    (r.addresses ∩ s.addresses).Nonempty ↔ ∃ a, a ∈ r ∧ a ∈ s := by
  constructor
  · rintro ⟨n, ⟨a, inLeft, rfl⟩, inRight⟩
    exact ⟨a, inLeft, toNat_mem_addresses.1 inRight⟩
  · rintro ⟨a, inLeft, inRight⟩
    exact ⟨a.toNat, toNat_mem_addresses.2 inLeft, toNat_mem_addresses.2 inRight⟩

end AddressRange

/-! ### The laws -/

/-- **The pieces of a remainder are the parts of a set:** each holds an address, they ascend, no two
of them overlap or touch, and together they have the addresses of the set. -/
structure Remainder.Leaves (rest : Remainder) (left : Set ℕ) : Prop where
  /-- Every piece holds an address; so it is no range with reversed bounds, either. -/
  holds : ∀ piece ∈ rest.pieces, piece.isEmpty = false
  /-- The pieces stand in ascending order. -/
  ascending : rest.pieces.Pairwise fun low high => low.isBelow high = true
  /-- There is a gap between them. -/
  apart : rest.pieces.Pairwise fun low high => ¬ low.Adjoins high
  /-- They have the addresses of the set and no others. -/
  together : ⋃ piece ∈ rest.pieces, piece.addresses = left

namespace AddressRange

variable {r s t : AddressRange} {k : UInt64}

/-- **Common parts, cuts and covers,** of any two ranges. -/
structure SetLaws (r s : AddressRange) : Prop where
  /-- There is no common part exactly when no address is in both ranges. -/
  intersect_none : r.intersect s = none ↔ r.addresses ∩ s.addresses = ∅
  /-- A common part has the higher start and the lower end, which are the bounds of a range. -/
  intersect_bounds : ∀ t, r.intersect s = some t →
    ofBounds (max r.start s.start) (min r.last s.last) = .ok t
  /-- It has the common addresses. -/
  intersect_some : ∀ t, r.intersect s = some t → t.addresses = r.addresses ∩ s.addresses
  /-- The bounds of a piece that a cut leaves are those of the range, or end right below the cut, or
  start right above it; they are the bounds of a range, too. -/
  subtract_bounds : ∀ piece ∈ (r.subtract s).pieces,
    ofBounds r.start (s.start - 1) = .ok piece ∨ ofBounds (s.last + 1) r.last = .ok piece ∨
      ofBounds r.start r.last = .ok piece
  /-- A cut leaves the addresses that are not cut out. -/
  subtract : (r.subtract s).Leaves (r.addresses \ s.addresses)
  /-- A cover has the lower start and the higher end, which are the bounds of a range. -/
  hull_bounds : ofBounds (min r.start s.start) (max r.last s.last) = .ok (r.hull s)

/-- **Relations and covers,** of two ranges that hold an address each. -/
structure IntervalLaws (r s : AddressRange) : Prop where
  /-- Ranges overlap exactly when they share an address. -/
  overlaps : r.overlaps s = true ↔ (r.addresses ∩ s.addresses).Nonempty
  /-- A range contains another exactly when it has all its addresses. -/
  contains : r.contains s = true ↔ s.addresses ⊆ r.addresses
  /-- Ranges connect exactly when they share no address and leave none out between them. -/
  connects : r.connects s = true ↔
    r.addresses ∩ s.addresses = ∅ ∧ (r.addresses ∪ s.addresses).OrdConnected
  /-- The cover is the smallest interval with the addresses of both. -/
  hull : IsLeast {i : Set ℕ | i.OrdConnected ∧ r.addresses ∪ s.addresses ⊆ i} (r.hull s).addresses

/-- **Moves,** of a range by `k` addresses. -/
structure ShiftLaws (r : AddressRange) (k : UInt64) : Prop where
  /-- A range can be moved up exactly if both bounds stay below 2⁶⁴. -/
  up_iff : (∃ t, r.shiftUp k = .ok t) ↔
    r.start.toNat + k.toNat < 2 ^ 64 ∧ r.last.toNat + k.toNat < 2 ^ 64
  /-- The new bounds are the bounds of a range. -/
  up_bounds : ∀ t, r.shiftUp k = .ok t → ofBounds (r.start + k) (r.last + k) = .ok t
  /-- Both bounds are `k` higher. -/
  up_moves : ∀ t, r.shiftUp k = .ok t →
    t.start.toNat = r.start.toNat + k.toNat ∧ t.last.toNat = r.last.toNat + k.toNat
  /-- So is every address. -/
  up_addresses : ∀ t, r.shiftUp k = .ok t → t.addresses = (· + k.toNat) '' r.addresses
  /-- Moving down again gives the range. -/
  down_up : ∀ t, r.shiftUp k = .ok t → t.shiftDown k = .ok r
  /-- A range that is moved down has the bounds of a range, too. -/
  down_bounds : ∀ t, r.shiftDown k = .ok t → ofBounds (r.start - k) (r.last - k) = .ok t

/-! ### Common parts, cuts and covers -/

theorem intersect_eq_none_iff_addresses :
    r.intersect s = none ↔ r.addresses ∩ s.addresses = ∅ := by
  rw [intersect_eq_none_iff, ← Set.not_nonempty_iff_eq_empty, inter_addresses_nonempty_iff]
  simp

theorem ofBounds_of_intersect_eq_some (h : r.intersect s = some t) :
    ofBounds (max r.start s.start) (min r.last s.last) = .ok t := by
  unfold intersect at h
  split at h
  · obtain rfl := Option.some.inj h
    exact ofBounds_eq_ok_iff.2 ⟨rfl, rfl⟩
  · cases h

theorem addresses_of_intersect_eq_some (h : r.intersect s = some t) :
    t.addresses = r.addresses ∩ s.addresses := by
  refine addresses_eq_of_mem Set.inter_subset_left fun a => ?_
  rw [mem_of_intersect_eq_some h, Set.mem_inter_iff, toNat_mem_addresses, toNat_mem_addresses]

/-- **The bounds of the pieces that a cut leaves** are bounds of ranges. -/
theorem ofBounds_of_mem_pieces_subtract {piece : AddressRange}
    (left : piece ∈ (r.subtract s).pieces) :
    ofBounds r.start (s.start - 1) = .ok piece ∨ ofBounds (s.last + 1) r.last = .ok piece ∨
      ofBounds r.start r.last = .ok piece := by
  rcases cases_of_mem_pieces_subtract left with below | above | ⟨rfl, -⟩
  · refine .inl (ofBounds_eq_ok_iff.2 ?_)
    unfold partBelow at below
    split at below
    · obtain rfl := Option.some.inj below
      exact ⟨rfl, rfl⟩
    · cases below
  · refine .inr (.inl (ofBounds_eq_ok_iff.2 ?_))
    unfold partAbove at above
    split at above
    · obtain rfl := Option.some.inj above
      exact ⟨rfl, rfl⟩
    · cases above
  · exact .inr (.inr (ofBounds_eq_ok_iff.2 ⟨rfl, rfl⟩))

/-- The pieces that a cut leaves are pairwise related if two pieces on either side of it are. -/
theorem pairwise_pieces_subtract {related : AddressRange → AddressRange → Prop}
    (sides : ∀ low high, r.subtract s = .two low high → related low high) :
    (r.subtract s).pieces.Pairwise related := by
  cases rest : r.subtract s with
  | nothing => exact .nil
  | one piece => exact List.pairwise_singleton _ _
  | two low high => exact List.pairwise_pair.2 (sides low high rest)

/-- **A cut leaves the addresses that are not cut out.** -/
theorem leaves_subtract (r s : AddressRange) :
    (r.subtract s).Leaves (r.addresses \ s.addresses) where
  holds _ left := isEmpty_of_mem_pieces_subtract left
  ascending := pairwise_pieces_subtract fun low high both => by
    have gap := gap_of_subtract both
    rw [isBelow, decide_eq_true_eq, UInt64.lt_iff_toNat_lt]
    omega
  apart := pairwise_pieces_subtract fun _ _ both => not_adjoins_of_subtract both
  together := by
    ext n
    rw [Set.mem_iUnion₂]
    constructor
    · rintro ⟨piece, left, a, inside, rfl⟩
      obtain ⟨whole, uncut⟩ := mem_pieces_subtract.1 ⟨piece, left, inside⟩
      exact ⟨toNat_mem_addresses.2 whole, fun cut => uncut (toNat_mem_addresses.1 cut)⟩
    · rintro ⟨⟨a, whole, rfl⟩, uncut⟩
      obtain ⟨piece, left, inside⟩ :=
        mem_pieces_subtract.2 ⟨whole, fun cut => uncut (toNat_mem_addresses.2 cut)⟩
      exact ⟨piece, left, toNat_mem_addresses.2 inside⟩

/-- **Common parts, cuts and covers are those of the sets.** -/
theorem setLaws (r s : AddressRange) : r.SetLaws s where
  intersect_none := intersect_eq_none_iff_addresses
  intersect_bounds _ found := ofBounds_of_intersect_eq_some found
  intersect_some _ found := addresses_of_intersect_eq_some found
  subtract_bounds _ left := ofBounds_of_mem_pieces_subtract left
  subtract := leaves_subtract r s
  hull_bounds := ofBounds_eq_ok_iff.2 ⟨rfl, rfl⟩

/-! ### Relations -/

theorem overlaps_iff_addresses :
    r.overlaps s = true ↔ (r.addresses ∩ s.addresses).Nonempty := by
  rw [overlaps_iff, inter_addresses_nonempty_iff]

theorem contains_iff_addresses (holds : s.isEmpty = false) :
    r.contains s = true ↔ s.addresses ⊆ r.addresses := by
  rw [isEmpty_eq_false_iff] at holds
  constructor
  · rintro within _ ⟨a, inside, rfl⟩
    exact toNat_mem_addresses.2 (mem_of_contains within inside)
  · intro within
    have first : s.start ∈ r :=
      toNat_mem_addresses.1 (within (toNat_mem_addresses.2 ⟨UInt64.le_refl _, holds⟩))
    have final : s.last ∈ r :=
      toNat_mem_addresses.1 (within (toNat_mem_addresses.2 ⟨holds, UInt64.le_refl _⟩))
    simp [contains, first, final]

/-- Ranges of which one starts right above the other share no address and leave none out. -/
theorem ordConnected_of_follows (leftHolds : r.isEmpty = false) (rightHolds : s.isEmpty = false)
    (follows : s.start.toNat = r.last.toNat + 1) :
    r.addresses ∩ s.addresses = ∅ ∧ (r.addresses ∪ s.addresses).OrdConnected := by
  rw [isEmpty_eq_false_iff, UInt64.le_iff_toNat_le] at leftHolds rightHolds
  rw [addresses_eq_Icc, addresses_eq_Icc]
  constructor
  · ext n
    simp only [Set.mem_inter_iff, Set.mem_Icc, Set.mem_empty_iff_false, iff_false]
    omega
  · have whole : Set.Icc r.start.toNat r.last.toNat ∪ Set.Icc s.start.toNat s.last.toNat =
        Set.Icc r.start.toNat s.last.toNat := by
      ext n
      simp only [Set.mem_union, Set.mem_Icc]
      omega
    rw [whole]
    exact Set.ordConnected_Icc

/-- Of ranges that leave no address out, one above the other starts right above it. -/
theorem follows_of_ordConnected (leftHolds : r.isEmpty = false) (rightHolds : s.isEmpty = false)
    (above : r.last < s.start) (filled : (r.addresses ∪ s.addresses).OrdConnected) :
    s.start.toNat = r.last.toNat + 1 := by
  rw [isEmpty_eq_false_iff] at leftHolds rightHolds
  rw [UInt64.lt_iff_toNat_lt] at above
  have inLeft : r.last.toNat ∈ r.addresses := toNat_mem_addresses.2 ⟨leftHolds, UInt64.le_refl _⟩
  have inRight : s.start.toNat ∈ s.addresses :=
    toNat_mem_addresses.2 ⟨UInt64.le_refl _, rightHolds⟩
  -- the number after the end of the one lies between them, so it is an address of the other
  have between : r.last.toNat + 1 ∈ r.addresses ∪ s.addresses :=
    filled.out (.inl inLeft) (.inr inRight) ⟨Nat.le_succ _, above⟩
  rw [addresses_eq_Icc, addresses_eq_Icc, Set.mem_union, Set.mem_Icc, Set.mem_Icc] at between
  omega

/-- **Ranges connect exactly when they share no address and leave none out between them.** -/
theorem connects_iff_addresses (leftHolds : r.isEmpty = false) (rightHolds : s.isEmpty = false) :
    r.connects s = true ↔
      r.addresses ∩ s.addresses = ∅ ∧ (r.addresses ∪ s.addresses).OrdConnected := by
  rw [connects_iff]
  constructor
  · rintro (follows | follows)
    · exact ordConnected_of_follows leftHolds rightHolds follows
    · rw [Set.inter_comm, Set.union_comm]
      exact ordConnected_of_follows rightHolds leftHolds follows
  · rintro ⟨disjoint, filled⟩
    have apart : r.overlaps s = false := by
      rw [← Bool.not_eq_true, overlaps_iff_addresses, disjoint]
      exact Set.not_nonempty_empty
    rcases (overlaps_eq_false_iff_of_holds (isEmpty_eq_false_iff.1 leftHolds)
      (isEmpty_eq_false_iff.1 rightHolds)).1 apart with above | below
    · exact .inl (follows_of_ordConnected leftHolds rightHolds above filled)
    · rw [Set.union_comm] at filled
      exact .inr (follows_of_ordConnected rightHolds leftHolds below filled)

/-! ### Covers -/

/-- The cover reaches from the lower start to the higher end. -/
theorem addresses_hull (r s : AddressRange) : (r.hull s).addresses =
    Set.Icc (min r.start.toNat s.start.toNat) (max r.last.toNat s.last.toNat) := by
  rw [addresses_eq_Icc, ← UInt64.toNat_min, ← UInt64.toNat_max]
  rfl

/-- **The cover is the smallest interval with the addresses of both.** -/
theorem isLeast_hull (leftHolds : r.isEmpty = false) (rightHolds : s.isEmpty = false) :
    IsLeast {i : Set ℕ | i.OrdConnected ∧ r.addresses ∪ s.addresses ⊆ i}
      (r.hull s).addresses := by
  rw [isEmpty_eq_false_iff, UInt64.le_iff_toNat_le] at leftHolds rightHolds
  rw [addresses_hull, addresses_eq_Icc, addresses_eq_Icc]
  constructor
  · refine ⟨Set.ordConnected_Icc, fun n inside => ?_⟩
    simp only [Set.mem_union, Set.mem_Icc] at inside ⊢
    omega
  · rintro i ⟨filled, within⟩
    -- both ends of the cover are bounds of ranges that hold an address
    have low : min r.start.toNat s.start.toNat ∈ i := by
      refine within ?_
      simp only [Set.mem_union, Set.mem_Icc]
      omega
    have high : max r.last.toNat s.last.toNat ∈ i := by
      refine within ?_
      simp only [Set.mem_union, Set.mem_Icc]
      omega
    exact filled.out low high

/-- **Relations and covers of ranges that hold addresses are those of the sets.** -/
theorem intervalLaws (leftHolds : r.isEmpty = false) (rightHolds : s.isEmpty = false) :
    r.IntervalLaws s where
  overlaps := overlaps_iff_addresses
  contains := contains_iff_addresses rightHolds
  connects := connects_iff_addresses leftHolds rightHolds
  hull := isLeast_hull leftHolds rightHolds

/-! ### Moves -/

theorem exists_shiftUp_iff : (∃ t, r.shiftUp k = .ok t) ↔
    r.start.toNat + k.toNat < 2 ^ 64 ∧ r.last.toNat + k.toNat < 2 ^ 64 := by
  have room : ∀ a : UInt64, a ≤ a + k ↔ a.toNat + k.toNat < 2 ^ 64 := fun _ => Word.le_add_iff
  rw [← room, ← room]
  constructor
  · rintro ⟨t, moved⟩
    exact (shiftUp_eq_ok_iff.1 moved).1
  · intro fits
    exact ⟨_, dif_pos fits⟩

/-- Both bounds of a range that is moved up are higher by as much. -/
theorem toNat_of_shiftUp_eq_ok (h : r.shiftUp k = .ok t) :
    t.start.toNat = r.start.toNat + k.toNat ∧ t.last.toNat = r.last.toNat + k.toNat := by
  obtain ⟨fits, start, last⟩ := shiftUp_eq_ok_iff.1 h
  rw [Word.le_add_iff, Word.le_add_iff, UInt64.size] at fits
  rw [start, last, UInt64.toNat_add, UInt64.toNat_add]
  omega

theorem addresses_of_shiftUp_eq_ok (h : r.shiftUp k = .ok t) :
    t.addresses = (· + k.toNat) '' r.addresses := by
  obtain ⟨start, last⟩ := toNat_of_shiftUp_eq_ok h
  rw [addresses_eq_Icc, addresses_eq_Icc, start, last, Set.image_add_const_Icc]

theorem shiftDown_of_shiftUp_eq_ok (h : r.shiftUp k = .ok t) : t.shiftDown k = .ok r := by
  obtain ⟨-, start, last⟩ := shiftUp_eq_ok_iff.1 h
  obtain ⟨startAt, lastAt⟩ := toNat_of_shiftUp_eq_ok h
  refine shiftDown_eq_ok_iff.2 ⟨?_, ?_, ?_⟩
  · rw [UInt64.le_iff_toNat_le, UInt64.le_iff_toNat_le]
    omega
  · rw [start, UInt64.add_sub_cancel]
  · rw [last, UInt64.add_sub_cancel]

/-- **Moves are those of the sets.** -/
theorem shiftLaws (r : AddressRange) (k : UInt64) : r.ShiftLaws k where
  up_iff := exists_shiftUp_iff
  up_bounds _ moved := ofBounds_eq_ok_iff.2 (shiftUp_eq_ok_iff.1 moved).2
  up_moves _ moved := toNat_of_shiftUp_eq_ok moved
  up_addresses _ moved := addresses_of_shiftUp_eq_ok moved
  down_up _ moved := shiftDown_of_shiftUp_eq_ok moved
  down_bounds _ moved := ofBounds_eq_ok_iff.2 (shiftDown_eq_ok_iff.1 moved).2

/-- **The operations on ranges are the algebra of sets of addresses,** whatever the ranges and the
distance; relations and covers are those of the sets if both ranges hold an address. -/
theorem set_algebra (r s : AddressRange) (k : UInt64) :
    r.SetLaws s ∧ (r.isEmpty = false → s.isEmpty = false → r.IntervalLaws s) ∧ r.ShiftLaws k :=
  ⟨setLaws r s, intervalLaws, shiftLaws r k⟩

/-- The two halves of the address space: they connect, and their cover is the smallest interval with
the addresses of both. -/
theorem exists_halves : ∃ r s : AddressRange, r.isEmpty = false ∧ s.isEmpty = false ∧
    r.connects s = true ∧ r.hull s = full ∧ r.IntervalLaws s :=
  ⟨⟨0, 0x7fffffffffffffff, .inl (by decide)⟩,
    ⟨0x8000000000000000, 0xffffffffffffffff, .inl (by decide)⟩, rfl, rfl, by decide, by decide,
    (set_algebra _ _ 0).2.1 rfl rfl⟩

end AddressRange

end Interconnect
