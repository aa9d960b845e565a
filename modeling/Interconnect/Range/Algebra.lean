import Interconnect.Range.Basic

/-!
# The algebra of address ranges

The operations that make ranges out of ranges, each with the lemma that says which addresses the
result holds.

## Main Definitions

* `intersect`, `hull`, `subtract` — common part, smallest cover, what a cut leaves
* `Remainder` — the none, one or two pieces that a cut leaves
* `shiftUp`, `shiftDown` — the same range at other addresses, if it fits there
-/

namespace Interconnect

namespace AddressRange

/-! ### Common part and cover -/

/-- The addresses that both ranges hold, if there are any. -/
def intersect (r s : AddressRange) : Option AddressRange :=
  if h : r.overlaps s = true then
    some ⟨if r.start ≤ s.start then s.start else r.start,
      if r.last ≤ s.last then r.last else s.last, by
      simp only [overlaps, isEmpty, Bool.and_eq_true, Bool.not_eq_true', decide_eq_true_eq,
        decide_eq_false_iff_not] at h
      grind⟩
  else none

/-- **The smallest range that covers both.**  Nothing distinguishes empty ranges here: their bounds
take part like those of any other. -/
def hull (r s : AddressRange) : AddressRange :=
  ⟨if r.start ≤ s.start then r.start else s.start, if r.last ≤ s.last then s.last else r.last, by
    have := r.ordered; have := s.ordered; grind⟩

theorem start_hull (r s : AddressRange) :
    (r.hull s).start = if r.start ≤ s.start then r.start else s.start := rfl

theorem last_hull (r s : AddressRange) :
    (r.hull s).last = if r.last ≤ s.last then s.last else r.last := rfl

theorem hull_comm (r s : AddressRange) : r.hull s = s.hull r := by
  ext <;> simp only [start_hull, last_hull] <;> grind

theorem mem_of_intersect_eq_some {r s t : AddressRange} (h : r.intersect s = some t) {a : UInt64} :
    a ∈ t ↔ a ∈ r ∧ a ∈ s := by
  unfold intersect at h
  split at h
  · cases h
    simp only [mem_iff]
    grind
  · cases h

theorem intersect_eq_none_iff {r s : AddressRange} :
    r.intersect s = none ↔ ∀ a, a ∈ r → a ∉ s := by
  unfold intersect
  split
  · next meet =>
      obtain ⟨a, inLeft, inRight⟩ := overlaps_iff.1 meet
      simp only [reduceCtorEq, false_iff]
      exact fun apart => apart a inLeft inRight
  · next apart =>
      simp only [true_iff]
      exact fun a inLeft inRight => apart (overlaps_iff.2 ⟨a, inLeft, inRight⟩)

end AddressRange

/-! ### Cuts -/

/-- What remains of a range after another has been cut out of it. -/
inductive Remainder where
  /-- Nothing remains. -/
  | nothing
  /-- One piece remains. -/
  | one (piece : AddressRange)
  /-- A piece remains on either side of the cut. -/
  | two (low high : AddressRange)
deriving DecidableEq

namespace Remainder

/-- The pieces in ascending order. -/
def pieces : Remainder → List AddressRange
  | nothing => []
  | one piece => [piece]
  | two low high => [low, high]

@[simp] theorem pieces_nothing : nothing.pieces = [] := rfl

@[simp] theorem pieces_one (piece : AddressRange) : (one piece).pieces = [piece] := rfl

@[simp] theorem pieces_two (low high : AddressRange) : (two low high).pieces = [low, high] := rfl

end Remainder

namespace AddressRange

/-- The part of `r` below the start of `cut`. -/
def partBelow (r cut : AddressRange) : Option AddressRange :=
  if h : r.start < cut.start then some ⟨r.start, cut.start - 1, .inl (by grind)⟩ else none

/-- The part of `r` above the end of `cut`. -/
def partAbove (r cut : AddressRange) : Option AddressRange :=
  if h : cut.last < r.last then some ⟨cut.last + 1, r.last, .inl (by grind)⟩ else none

/-- **What remains of `r` once `cut` is taken out.**  A cut that meets no address of `r` leaves `r`
as it is, and an empty range leaves nothing in any case. -/
def subtract (r cut : AddressRange) : Remainder :=
  if r.overlaps cut then
    match r.partBelow cut, r.partAbove cut with
    | none, none => .nothing
    | some piece, none => .one piece
    | none, some piece => .one piece
    | some low, some high => .two low high
  else if r.isEmpty then .nothing else .one r

/-! ### Moving a range -/

/-- The range `offset` addresses further up.  A sum has not wrapped exactly when it is no smaller
than its first term. -/
def shiftUp (r : AddressRange) (offset : UInt64) : Except RangeError AddressRange :=
  if h : r.start ≤ r.start + offset ∧ r.last ≤ r.last + offset then
    .ok ⟨r.start + offset, r.last + offset, by have := r.ordered; grind⟩
  else .error (.overflow r.start r.last offset.toNat)

/-- The range `offset` addresses further down. -/
def shiftDown (r : AddressRange) (offset : UInt64) : Except RangeError AddressRange :=
  if h : offset ≤ r.start ∧ offset ≤ r.last then
    .ok ⟨r.start - offset, r.last - offset, by have := r.ordered; grind⟩
  else .error (.underflow r.start r.last offset.toNat)

theorem shiftUp_eq_ok_iff {r s : AddressRange} {offset : UInt64} :
    r.shiftUp offset = .ok s ↔ (r.start ≤ r.start + offset ∧ r.last ≤ r.last + offset) ∧
      s.start = r.start + offset ∧ s.last = r.last + offset := by
  unfold shiftUp
  split
  · next fits =>
      simp only [Except.ok.injEq, AddressRange.ext_iff, fits, and_self, true_and]
      grind
  · next wraps => simp [wraps]

theorem shiftDown_eq_ok_iff {r s : AddressRange} {offset : UInt64} :
    r.shiftDown offset = .ok s ↔ (offset ≤ r.start ∧ offset ≤ r.last) ∧
      s.start = r.start - offset ∧ s.last = r.last - offset := by
  unfold shiftDown
  split
  · next fits =>
      simp only [Except.ok.injEq, AddressRange.ext_iff, fits, and_self, true_and]
      grind
  · next wraps => simp [wraps]

end AddressRange

end Interconnect
