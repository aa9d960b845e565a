/-!
# Address ranges

An interconnect speaks of inclusive intervals of 64-bit addresses.  This module holds the type, the
ways to build a value of it, and the questions that can be asked of one or two of them; the
operations whose result is again a range are in `Interconnect.Range.Algebra`.

## Main Definitions

* `AddressRange` — the interval from `start` to `last`, both included
* `AddressRange.ofBounds`, `AddressRange.ofSize` — the checked constructors
* `RangeError` — why a range cannot be built
* `overlaps`, `contains`, `connects` — the relations between two ranges

### Empty ranges

A range that ends one below its start is empty.  At address zero there is no such end, so an empty
range sits at any address but zero, and the whole address space is the range from zero to the
highest address.  Whether a bound equals the successor of another is asked with 64-bit arithmetic,
where the successor of the highest address is zero: that case is the whole address space again, so
it does no harm.
-/

namespace Interconnect

/-- Why a range cannot be built, moved or read. -/
inductive RangeError where
  /-- The last address lies more than one below the start. -/
  | invalid (start last : UInt64)
  /-- Moving the bounds up by `offset` leaves the address space. -/
  | overflow (start last : UInt64) (offset : Nat)
  /-- Moving the bounds down by `offset` leaves the address space. -/
  | underflow (start last : UInt64) (offset : Nat)
  /-- The text does not denote a range. -/
  | unreadable (text : String)
deriving DecidableEq, Repr

/-- **An inclusive interval of addresses.**  The only reversed bounds that are allowed are those of
an empty range, whose last address is the one before its start. -/
@[ext] structure AddressRange where
  /-- The lowest address. -/
  start : UInt64
  /-- The highest address. -/
  last : UInt64
  /-- The bounds are in order, or describe an empty range. -/
  ordered : start ≤ last ∨ start = last + 1
deriving DecidableEq

namespace AddressRange

/-- An address is in a range when it lies between its bounds. -/
instance : Membership UInt64 AddressRange where
  mem r a := r.start ≤ a ∧ a ≤ r.last

theorem mem_iff {r : AddressRange} {a : UInt64} : a ∈ r ↔ r.start ≤ a ∧ a ≤ r.last := Iff.rfl

instance (r : AddressRange) (a : UInt64) : Decidable (a ∈ r) :=
  inferInstanceAs (Decidable (r.start ≤ a ∧ a ≤ r.last))

/-! ### Construction -/

/-- The range with the given bounds. -/
def ofBounds (start last : UInt64) : Except RangeError AddressRange :=
  if h : start ≤ last ∨ start = last + 1 then .ok ⟨start, last, h⟩
  else .error (.invalid start last)

/-- **The range of `size` addresses from `start` on.**  Of no addresses at all it is the empty range
just below `start`, which does not exist at address zero. -/
def ofSize (start : UInt64) (size : Nat) : Except RangeError AddressRange :=
  if size = 0 then
    if start = 0 then .error (.invalid start (0 - 1))
    else .ok ⟨start, start - 1, .inr (by grind)⟩
  else if h : start.toNat + (size - 1) < UInt64.size then
    .ok ⟨start, start + UInt64.ofNat (size - 1), .inl (by
      rw [UInt64.le_iff_toNat_le, UInt64.toNat_add, UInt64.toNat_ofNat']
      simp only [UInt64.size] at h
      omega)⟩
  else .error (.overflow start start (size - 1))

/-- The range that holds the one address `a`. -/
def single (a : UInt64) : AddressRange := ⟨a, a, .inl (UInt64.le_refl a)⟩

/-- The whole address space. -/
def full : AddressRange := ⟨0, 0 - 1, .inl (by decide)⟩

instance : Inhabited AddressRange := ⟨full⟩

/-! ### Questions about one range -/

/-- A range without an address. -/
def isEmpty (r : AddressRange) : Bool := r.last < r.start

/-- The number of addresses in the range. -/
def size (r : AddressRange) : Nat := r.last.toNat + 1 - r.start.toNat

/-- The number of addresses as a 64-bit word; that of the whole address space does not fit and is
given as the greatest word. -/
def length (r : AddressRange) : UInt64 := UInt64.ofNat (min r.size (UInt64.size - 1))

/-- Whether `a` lies in the range. -/
def includes (r : AddressRange) (a : UInt64) : Bool := a ∈ r

@[simp] theorem includes_eq_true_iff {r : AddressRange} {a : UInt64} :
    r.includes a = true ↔ a ∈ r := by simp [includes]

/-! ### Questions about two ranges -/

/-- **Both bounds of `s` lie in `r`.**  For a range that is not empty this says that every address
of `s` is in `r`. -/
def contains (r s : AddressRange) : Bool := r.includes s.start && r.includes s.last

/-- The ranges have an address in common. -/
def overlaps (r s : AddressRange) : Bool :=
  !r.isEmpty && !s.isEmpty && decide (r.start ≤ s.last) && decide (s.start ≤ r.last)

/-- One range ends right below the start of the other. -/
def connects (r s : AddressRange) : Bool :=
  (r.last ≠ 0 - 1 && r.last + 1 == s.start) || (s.last ≠ 0 - 1 && s.last + 1 == r.start)

/-- `r` ends below the start of `s`. -/
def isBelow (r s : AddressRange) : Bool := r.last < s.start

/-- `r` starts above the end of `s`. -/
def isAbove (r s : AddressRange) : Bool := s.last < r.start

/-- Ranges are ordered by their starts, and those with one start by their ends. -/
instance : Ord AddressRange where
  compare r s := (compare r.start s.start).then (compare r.last s.last)

/-! ### Membership in the basic ranges -/

@[simp] theorem mem_single {a b : UInt64} : b ∈ single a ↔ b = a := by
  simp only [mem_iff, single]
  grind

@[simp] theorem mem_full (a : UInt64) : a ∈ full := by
  simp only [mem_iff, full]
  grind

theorem isEmpty_eq_false_iff {r : AddressRange} : r.isEmpty = false ↔ r.start ≤ r.last := by
  simp [isEmpty]

/-- Two ranges overlap exactly when some address is in both. -/
theorem overlaps_iff {r s : AddressRange} : r.overlaps s = true ↔ ∃ a, a ∈ r ∧ a ∈ s := by
  simp only [overlaps, isEmpty, Bool.and_eq_true, Bool.not_eq_true', decide_eq_true_eq,
    decide_eq_false_iff_not, mem_iff]
  constructor
  · intro h
    by_cases first : r.start ≤ s.start
    · exact ⟨s.start, by grind⟩
    · exact ⟨r.start, by grind⟩
  · rintro ⟨a, inLeft, inRight⟩
    grind

end AddressRange

end Interconnect
