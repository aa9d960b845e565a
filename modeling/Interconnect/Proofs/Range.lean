import Interconnect.Range.Algebra

/-!
# Ranges as sets of addresses

What the operations on ranges say about the addresses in them.  Everything above this module argues
with membership, so that empty ranges and the ends of the address space are met here and nowhere
else.

## Main Statements

* `connects_iff`, `adjoins_iff`, `Adjoins.mono` — ranges that touch, or overlap or touch
* `mem_hull`, `mem_pieces_subtract` — the addresses of a cover and of what a cut leaves
* `isEmpty_of_mem_pieces_subtract`, `gap_of_subtract`, `not_adjoins_of_subtract` — the pieces that
  a cut leaves hold addresses and do not touch
* `mem_shiftUp_iff`, `mem_shiftDown_iff` — the addresses of a moved range
* `ofBounds_eq_ok_iff`, `ofBounds_eq_error_iff` — when two bounds make a range, and which
* `ofSize_eq_ok_iff`, `ofSize_eq_error_iff` — when a start and a size make a range, and which
-/

namespace Interconnect

universe u v w

/-- A checked result that has been mapped comes from one that has not. -/
theorem map_eq_ok_iff {ε : Type u} {α : Type v} {β : Type w} {f : α → β} {x : Except ε α} {b : β} :
    x.map f = .ok b ↔ ∃ a, x = .ok a ∧ f a = b := by
  cases x <;> simp [Except.map]

theorem map_eq_error_iff {ε : Type u} {α : Type v} {β : Type w} {f : α → β} {x : Except ε α}
    {e : ε} : x.map f = .error e ↔ x = .error e := by
  cases x <;> simp [Except.map]

theorem toOption_eq_some_iff {ε : Type u} {α : Type v} {x : Except ε α} {a : α} :
    x.toOption = some a ↔ x = .ok a := by
  cases x <;> simp [Except.toOption]

namespace AddressRange

/-! ### Emptiness and overlap -/

theorem isEmpty_eq_true_iff {r : AddressRange} : r.isEmpty = true ↔ ∀ a, a ∉ r := by
  simp only [isEmpty, decide_eq_true_eq, mem_iff]
  constructor
  · intro reversed a
    grind
  · intro nowhere
    have := nowhere r.start
    grind

theorem overlaps_eq_false_iff {r s : AddressRange} :
    r.overlaps s = false ↔ ∀ a, a ∈ r → a ∉ s := by
  rw [← Bool.not_eq_true, overlaps_iff]
  simp

/-- Of two ranges that hold addresses but none in common, one ends below the start of the other. -/
theorem overlaps_eq_false_iff_of_holds {r s : AddressRange} (left : r.start ≤ r.last)
    (right : s.start ≤ s.last) :
    r.overlaps s = false ↔ r.last < s.start ∨ s.last < r.start := by
  rw [← Bool.not_eq_true]
  simp only [overlaps, isEmpty, Bool.and_eq_true, Bool.not_eq_true', decide_eq_true_eq,
    decide_eq_false_iff_not]
  grind

theorem overlaps_comm (r s : AddressRange) : r.overlaps s = s.overlaps r := by
  rw [Bool.eq_iff_iff, overlaps_iff, overlaps_iff]
  exact ⟨fun ⟨a, inLeft, inRight⟩ => ⟨a, inRight, inLeft⟩,
    fun ⟨a, inRight, inLeft⟩ => ⟨a, inLeft, inRight⟩⟩

theorem mem_of_contains {r s : AddressRange} (h : r.contains s = true) {a : UInt64}
    (inside : a ∈ s) : a ∈ r := by
  simp only [contains, Bool.and_eq_true, includes_eq_true_iff, mem_iff] at h inside ⊢
  exact ⟨UInt64.le_trans h.1.1 inside.1, UInt64.le_trans inside.2 h.2.2⟩

theorem contains_single_iff {r : AddressRange} {a : UInt64} :
    r.contains (single a) = true ↔ a ∈ r := by
  simp [contains, single]

/-- The two ranges overlap, or one ends right below the start of the other. -/
def Adjoins (r s : AddressRange) : Prop := r.overlaps s = true ∨ r.connects s = true

/-- One range ends right below the start of the other.  The successor of an end is that of a number,
so it does not wrap. -/
theorem connects_iff {r s : AddressRange} :
    r.connects s = true ↔
      s.start.toNat = r.last.toNat + 1 ∨ r.start.toNat = s.last.toNat + 1 := by
  have follows : ∀ a b : UInt64, a ≠ 0 - 1 ∧ a + 1 = b ↔ b.toNat = a.toNat + 1 := by
    intro a b
    have := a.toNat_lt
    have := b.toNat_lt
    rw [← UInt64.toNat_inj, ne_eq, ← UInt64.toNat_inj, UInt64.toNat_add,
      show (0 - 1 : UInt64).toNat = 2 ^ 64 - 1 from rfl, UInt64.toNat_one]
    omega
  simp only [connects, Bool.and_eq_true, Bool.or_eq_true, decide_eq_true_eq, beq_iff_eq, follows]

/-- Two ranges overlap or touch exactly when neither starts beyond the successor of the other's
end. -/
theorem adjoins_iff {r s : AddressRange} (leftHolds : r.isEmpty = false)
    (rightHolds : s.isEmpty = false) :
    r.Adjoins s ↔
      r.start.toNat ≤ s.last.toNat + 1 ∧ s.start.toNat ≤ r.last.toNat + 1 := by
  rw [isEmpty_eq_false_iff, UInt64.le_iff_toNat_le] at leftHolds rightHolds
  simp only [Adjoins, connects_iff, overlaps, isEmpty, Bool.and_eq_true, Bool.not_eq_true',
    decide_eq_true_eq, decide_eq_false_iff_not, UInt64.lt_iff_toNat_lt, UInt64.le_iff_toNat_le]
  omega

/-- Ranges of which parts overlap or touch do so themselves. -/
theorem Adjoins.mono {r s whole other : AddressRange} (h : r.Adjoins s)
    (leftHolds : r.isEmpty = false) (rightHolds : s.isEmpty = false)
    (left : ∀ a ∈ r, a ∈ whole) (right : ∀ a ∈ s, a ∈ other) : whole.Adjoins other := by
  obtain ⟨low, high⟩ := (adjoins_iff leftHolds rightHolds).1 h
  rw [isEmpty_eq_false_iff] at leftHolds rightHolds
  have leftStart := left r.start ⟨UInt64.le_refl _, leftHolds⟩
  have leftLast := left r.last ⟨leftHolds, UInt64.le_refl _⟩
  have rightStart := right s.start ⟨UInt64.le_refl _, rightHolds⟩
  have rightLast := right s.last ⟨rightHolds, UInt64.le_refl _⟩
  refine (adjoins_iff ?_ ?_).2 ?_
  · exact isEmpty_eq_false_iff.2 (UInt64.le_trans leftStart.1 leftStart.2)
  · exact isEmpty_eq_false_iff.2 (UInt64.le_trans rightStart.1 rightStart.2)
  · simp only [mem_iff, UInt64.le_iff_toNat_le] at leftStart leftLast rightStart rightLast
    omega

/-! ### Cover and cut -/

/-- The cover of two ranges that overlap or touch holds nothing else. -/
theorem mem_hull {r s : AddressRange} (leftHolds : r.isEmpty = false)
    (rightHolds : s.isEmpty = false) (touch : r.overlaps s = true ∨ r.connects s = true)
    {a : UInt64} : a ∈ r.hull s ↔ a ∈ r ∨ a ∈ s := by
  rw [isEmpty_eq_false_iff] at leftHolds rightHolds
  simp only [overlaps, connects, isEmpty] at touch
  simp only [mem_iff, hull]
  grind

theorem mem_of_partBelow_eq_some {r cut piece : AddressRange} (h : r.partBelow cut = some piece)
    {a : UInt64} : a ∈ piece ↔ r.start ≤ a ∧ a < cut.start := by
  unfold partBelow at h
  split at h
  · cases h
    simp only [mem_iff]
    grind
  · cases h

theorem mem_of_partAbove_eq_some {r cut piece : AddressRange} (h : r.partAbove cut = some piece)
    {a : UInt64} : a ∈ piece ↔ cut.last < a ∧ a ≤ r.last := by
  unfold partAbove at h
  split at h
  · cases h
    simp only [mem_iff]
    grind
  · cases h

theorem partBelow_eq_none_iff {r cut : AddressRange} :
    r.partBelow cut = none ↔ cut.start ≤ r.start := by
  unfold partBelow
  split <;> simp_all

theorem partAbove_eq_none_iff {r cut : AddressRange} :
    r.partAbove cut = none ↔ r.last ≤ cut.last := by
  unfold partAbove
  split <;> simp_all

/-- The pieces on both sides of a cut that meets the range hold what the cut does not. -/
private theorem mem_sides {r cut : AddressRange} (meet : r.overlaps cut = true) {a : UInt64} :
    (∃ piece ∈ (r.partBelow cut).toList ++ (r.partAbove cut).toList, a ∈ piece) ↔
      a ∈ r ∧ a ∉ cut := by
  have below : (∃ piece ∈ (r.partBelow cut).toList, a ∈ piece) ↔
      r.start ≤ a ∧ a < cut.start := by
    cases found : r.partBelow cut with
    | none =>
        have := partBelow_eq_none_iff.1 found
        simp only [Option.toList_none, List.not_mem_nil, false_and, exists_false, false_iff]
        grind
    | some piece => simpa using mem_of_partBelow_eq_some found
  have above : (∃ piece ∈ (r.partAbove cut).toList, a ∈ piece) ↔
      cut.last < a ∧ a ≤ r.last := by
    cases found : r.partAbove cut with
    | none =>
        have := partAbove_eq_none_iff.1 found
        simp only [Option.toList_none, List.not_mem_nil, false_and, exists_false, false_iff]
        grind
    | some piece => simpa using mem_of_partAbove_eq_some found
  simp only [List.mem_append, or_and_right, exists_or, below, above]
  obtain ⟨b, inLeft, inRight⟩ := overlaps_iff.1 meet
  simp only [mem_iff] at inLeft inRight ⊢
  grind

/-- **A cut leaves exactly the addresses that are not in it.** -/
theorem mem_pieces_subtract {r cut : AddressRange} {a : UInt64} :
    (∃ piece ∈ (r.subtract cut).pieces, a ∈ piece) ↔ a ∈ r ∧ a ∉ cut := by
  unfold subtract
  split
  · next meet =>
      rw [← mem_sides meet]
      cases r.partBelow cut <;> cases r.partAbove cut <;> simp
  · next apart =>
      have apart := overlaps_eq_false_iff.1 (Bool.not_eq_true _ ▸ apart)
      split
      · next hollow =>
          have nowhere := isEmpty_eq_true_iff.1 hollow a
          simp [nowhere]
      · simpa using apart a

/-- The piece below a cut holds an address and ends right below the cut. -/
theorem of_partBelow_eq_some {r cut piece : AddressRange} (h : r.partBelow cut = some piece) :
    piece.isEmpty = false ∧ piece.last.toNat + 1 = cut.start.toNat := by
  unfold partBelow at h
  split at h
  · next lower =>
      cases h
      rw [isEmpty_eq_false_iff]
      refine ⟨by grind, ?_⟩
      rw [UInt64.toNat_sub_of_le _ _ (by grind), UInt64.toNat_one]
      rw [UInt64.lt_iff_toNat_lt] at lower
      omega
  · cases h

/-- The piece above a cut holds an address and starts right above the cut. -/
theorem of_partAbove_eq_some {r cut piece : AddressRange} (h : r.partAbove cut = some piece) :
    piece.isEmpty = false ∧ piece.start.toNat = cut.last.toNat + 1 := by
  unfold partAbove at h
  split at h
  · next higher =>
      cases h
      rw [isEmpty_eq_false_iff]
      refine ⟨by grind, ?_⟩
      rw [UInt64.lt_iff_toNat_lt] at higher
      have := r.last.toNat_lt
      rw [UInt64.toNat_add, UInt64.toNat_one]
      omega
  · cases h

/-- A piece that a cut leaves is the part below it, or the part above it, or the whole of a range
that it does not meet. -/
theorem cases_of_mem_pieces_subtract {r cut piece : AddressRange}
    (left : piece ∈ (r.subtract cut).pieces) :
    r.partBelow cut = some piece ∨ r.partAbove cut = some piece ∨
      piece = r ∧ r.isEmpty = false := by
  unfold subtract at left
  split at left
  · cases below : r.partBelow cut with
    | none =>
        cases above : r.partAbove cut with
        | none => simp [below, above] at left
        | some high =>
            simp only [below, above, Remainder.pieces_one, List.mem_singleton] at left
            exact .inr (.inl (congrArg some left.symm))
    | some low =>
        cases above : r.partAbove cut with
        | none =>
            simp only [below, above, Remainder.pieces_one, List.mem_singleton] at left
            exact .inl (congrArg some left.symm)
        | some high =>
            simp only [below, above, Remainder.pieces_two, List.mem_cons, List.not_mem_nil,
              or_false] at left
            rcases left with rfl | rfl
            · exact .inl rfl
            · exact .inr (.inl rfl)
  · split at left
    · cases left
    · next holds => exact .inr (.inr ⟨List.mem_singleton.1 left, Bool.not_eq_true _ ▸ holds⟩)

/-- A cut leaves no piece without an address. -/
theorem isEmpty_of_mem_pieces_subtract {r cut piece : AddressRange}
    (left : piece ∈ (r.subtract cut).pieces) : piece.isEmpty = false := by
  rcases cases_of_mem_pieces_subtract left with below | above | ⟨rfl, holds⟩
  · exact (of_partBelow_eq_some below).1
  · exact (of_partAbove_eq_some above).1
  · exact holds

/-- Between the piece below a cut and the piece above it there is the cut. -/
theorem gap_of_subtract {r cut low high : AddressRange} (h : r.subtract cut = .two low high) :
    low.last.toNat + 1 < high.start.toNat := by
  unfold subtract at h
  split at h
  · next meet =>
      obtain ⟨b, -, inCut⟩ := overlaps_iff.1 meet
      have holds : cut.start.toNat ≤ cut.last.toNat :=
        UInt64.le_iff_toNat_le.1 (UInt64.le_trans inCut.1 inCut.2)
      split at h
      · cases h
      · cases h
      · cases h
      · next below above =>
          cases h
          have ends := (of_partBelow_eq_some below).2
          have starts := (of_partAbove_eq_some above).2
          omega
  · split at h <;> cases h

/-- The piece below a cut and the piece above it neither overlap nor touch. -/
theorem not_adjoins_of_subtract {r cut low high : AddressRange}
    (h : r.subtract cut = .two low high) : ¬ low.Adjoins high := by
  have both : ∀ piece ∈ (r.subtract cut).pieces, piece.isEmpty = false := fun _ left =>
    isEmpty_of_mem_pieces_subtract left
  rw [h, Remainder.pieces_two] at both
  have gap := gap_of_subtract h
  rw [adjoins_iff (both low (by simp)) (both high (by simp))]
  omega

/-! ### Moved ranges -/

theorem mem_shiftUp_iff {r s : AddressRange} {offset : UInt64} (h : r.shiftUp offset = .ok s)
    {a : UInt64} : a ∈ s ↔ offset ≤ a ∧ a - offset ∈ r := by
  obtain ⟨⟨startFits, lastFits⟩, start, last⟩ := shiftUp_eq_ok_iff.1 h
  simp only [mem_iff, start, last]
  grind

theorem mem_shiftDown_iff {r s : AddressRange} {offset : UInt64} (h : r.shiftDown offset = .ok s)
    {a : UInt64} : a ∈ s ↔ a ≤ a + offset ∧ a + offset ∈ r := by
  obtain ⟨⟨startFits, lastFits⟩, start, last⟩ := shiftDown_eq_ok_iff.1 h
  simp only [mem_iff, start, last]
  grind

/-! ### Ranges of given bounds or size -/

theorem ofBounds_eq_ok_iff {start last : UInt64} {r : AddressRange} :
    ofBounds start last = .ok r ↔ r.start = start ∧ r.last = last := by
  unfold ofBounds
  split
  · simp only [Except.ok.injEq, AddressRange.ext_iff]
    exact ⟨fun h => ⟨h.1.symm, h.2.symm⟩, fun h => ⟨h.1.symm, h.2.symm⟩⟩
  · next reversed =>
      simp only [reduceCtorEq, false_iff]
      rintro ⟨rfl, rfl⟩
      exact reversed r.ordered

/-- Bounds make a range unless the last lies more than one below the start. -/
theorem ordered_iff {start last : UInt64} :
    start ≤ last ∨ start = last + 1 ↔ start.toNat ≤ last.toNat + 1 := by
  have := start.toNat_lt
  have := last.toNat_lt
  rw [UInt64.le_iff_toNat_le, ← UInt64.toNat_inj, UInt64.toNat_add, UInt64.toNat_one]
  omega

/-- Bounds that make no range are named in the error. -/
theorem ofBounds_eq_error_iff {start last : UInt64} {error : RangeError} :
    ofBounds start last = .error error ↔
      last.toNat + 1 < start.toNat ∧ error = .invalid start last := by
  unfold ofBounds
  split
  · next ordered =>
      have := ordered_iff.1 ordered
      simp only [reduceCtorEq, false_iff]
      omega
  · next reversed =>
      rw [ordered_iff] at reversed
      simp only [Except.error.injEq, Nat.not_le.1 reversed, true_and]
      exact eq_comm

/-- **A start and a size make a range exactly when its last address exists.** -/
theorem ofSize_eq_ok_iff {start : UInt64} {size : Nat} (positive : size ≠ 0) {r : AddressRange} :
    ofSize start size = .ok r ↔
      start.toNat + (size - 1) < UInt64.size ∧ r.start = start ∧
        r.last.toNat = start.toNat + (size - 1) := by
  unfold ofSize
  rw [if_neg positive]
  split
  · next fits =>
      have last : (start + UInt64.ofNat (size - 1)).toNat = start.toNat + (size - 1) := by
        rw [UInt64.toNat_add, UInt64.toNat_ofNat']
        simp only [UInt64.size] at fits
        omega
      simp only [Except.ok.injEq, AddressRange.ext_iff, fits, true_and, ← UInt64.toNat_inj, last]
      exact ⟨fun h => ⟨h.1.symm, h.2.symm⟩, fun h => ⟨h.1.symm, h.2.symm⟩⟩
  · next wraps => simp [wraps]

/-- **A start and a size make no range** when the addresses would run past the last. -/
theorem ofSize_eq_error_iff {start : UInt64} {size : Nat} (positive : size ≠ 0)
    {error : RangeError} :
    ofSize start size = .error error ↔
      UInt64.size ≤ start.toNat + (size - 1) ∧ error = .overflow start start (size - 1) := by
  unfold ofSize
  rw [if_neg positive]
  split
  · next fits =>
      simp only [reduceCtorEq, false_iff]
      omega
  · next beyond =>
      simp only [Except.error.injEq, Nat.not_lt.1 beyond, true_and]
      exact eq_comm

/-- It holds that many addresses from the start on. -/
theorem mem_iff_of_ofSize_eq_ok {start : UInt64} {size : Nat} {r : AddressRange}
    (made : ofSize start size = .ok r) (positive : size ≠ 0) {a : UInt64} :
    a ∈ r ↔ start.toNat ≤ a.toNat ∧ a.toNat < start.toNat + size := by
  obtain ⟨-, first, last⟩ := (ofSize_eq_ok_iff positive).1 made
  rw [mem_iff, UInt64.le_iff_toNat_le, UInt64.le_iff_toNat_le, first, last]
  omega

/-- A range that is made from a size holds an address. -/
theorem start_le_last_of_ofSize_eq_ok {start : UInt64} {size : Nat} {r : AddressRange}
    (made : ofSize start size = .ok r) (positive : size ≠ 0) : r.start ≤ r.last := by
  obtain ⟨-, rfl, last⟩ := (ofSize_eq_ok_iff positive).1 made
  rw [UInt64.le_iff_toNat_le, last]
  exact Nat.le_add_right _ _

/-- Ranges that do not overlap lie one behind the other. -/
theorem le_or_le_of_overlaps_eq_false {a b : UInt64} {n k : Nat} {r s : AddressRange}
    (made : ofSize a n = .ok r) (made' : ofSize b k = .ok s) (positive : n ≠ 0) (positive' : k ≠ 0)
    (apart : r.overlaps s = false) :
    a.toNat + n ≤ b.toNat ∨ b.toNat + k ≤ a.toNat := by
  obtain ⟨-, rfl, last⟩ := (ofSize_eq_ok_iff positive).1 made
  obtain ⟨-, rfl, last'⟩ := (ofSize_eq_ok_iff positive').1 made'
  rw [overlaps_eq_false_iff] at apart
  have left := apart r.start
  have right := apart s.start
  simp only [mem_iff, UInt64.le_iff_toNat_le, last, last'] at left right
  omega

theorem size_of_ofSize_eq_ok {start : UInt64} {size : Nat} {r : AddressRange}
    (h : ofSize start size = .ok r) : r.size = size := by
  by_cases positive : size = 0
  · subst positive
    unfold ofSize at h
    rw [if_pos rfl] at h
    split at h
    · cases h
    · next away =>
        cases h
        simp only [AddressRange.size]
        have : start.toNat ≠ 0 := fun zero => away (UInt64.toNat_inj.1 zero)
        rw [UInt64.toNat_sub_of_le _ _ (by grind)]
        simp only [UInt64.toNat_one]
        omega
  · obtain ⟨-, rfl, last⟩ := (ofSize_eq_ok_iff positive).1 h
    simp only [AddressRange.size, last]
    omega

end AddressRange

end Interconnect
