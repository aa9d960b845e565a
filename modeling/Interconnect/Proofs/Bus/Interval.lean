import Interconnect.Bus.Interval
import Interconnect.Proofs.Range

/-!
# What is known of interval maps

The laws of an ordered map whose keys are half-open intervals, and how inclusive ranges of addresses
are seen through such keys: nothing is lost on the way, not even at the last address of all.

## Main Definitions

* `IntervalMap.Sound` — the laws

## Main Statements

* `AddressRange.span_inj`, `AddressRange.includes_span`, `AddressRange.meets_span` — ranges as
  intervals
* `IntervalMap.sound_sorted` — the sorted list meets the laws
-/

namespace Interconnect

/-! ### Ranges as intervals -/

theorem toNat_position (a : UInt64) : (position a).toNat = a.toNat := by
  have small := a.toNat_lt
  rw [position, BitVec.toNat_setWidth, UInt64.toNat_toBitVec, Nat.mod_eq_of_lt (by omega)]

theorem position_le_iff {a b : UInt64} : position a ≤ position b ↔ a ≤ b := by
  rw [BitVec.le_def, toNat_position, toNat_position, UInt64.le_iff_toNat_le]

/-- **The position above an address is no address that has wrapped,** even above the last. -/
theorem toNat_position_add_one (a : UInt64) : (position a + 1).toNat = a.toNat + 1 := by
  have small := a.toNat_lt
  have one : (1 : Position).toNat = 1 := rfl
  rw [BitVec.toNat_add, toNat_position, one, Nat.mod_eq_of_lt (by omega)]

theorem position_lt_add_one_iff {a b : UInt64} : position a < position b + 1 ↔ a ≤ b := by
  rw [BitVec.lt_def, toNat_position, toNat_position_add_one, UInt64.le_iff_toNat_le,
    Nat.lt_succ_iff]

namespace AddressRange

variable {r s : AddressRange}

/-- A range is known by its interval. -/
theorem span_inj : r.span = s.span ↔ r = s := by
  constructor
  · intro same
    have first := congrArg (fun k => k.first.toNat) same
    have limit := congrArg (fun k => k.limit.toNat) same
    simp only [span, toNat_position, toNat_position_add_one, Nat.add_right_cancel_iff]
      at first limit
    exact AddressRange.ext (UInt64.toNat_inj.1 first) (UInt64.toNat_inj.1 limit)
  · rintro rfl
    rfl

/-- A range that holds an address has an interval that holds its position. -/
theorem holds_span_iff : r.span.Holds ↔ r.isEmpty = false := by
  rw [Span.Holds, span, position_lt_add_one_iff, isEmpty_eq_false_iff]

@[simp] theorem includes_span {a : UInt64} : r.span.includes (position a) = r.includes a := by
  rw [Bool.eq_iff_iff, Span.includes, Bool.and_eq_true, decide_eq_true_iff, decide_eq_true_iff,
    span, position_le_iff, position_lt_add_one_iff, includes_eq_true_iff, mem_iff]

/-- Ranges that touch do not meet: the interval of the one ends where that of the other starts. -/
theorem meets_span (holds : r.isEmpty = false) (holds' : s.isEmpty = false) :
    r.span.meets s.span = r.overlaps s := by
  rw [Bool.eq_iff_iff, Span.meets, Bool.and_eq_true, decide_eq_true_iff, decide_eq_true_iff,
    span, span, position_lt_add_one_iff, position_lt_add_one_iff]
  simp [overlaps, holds, holds']

/-- Of two ranges that do not overlap, the one with the lower interval ends below the other. -/
theorem last_lt_of_below (holds : r.isEmpty = false) (holds' : s.isEmpty = false)
    (apart : r.overlaps s = false) (below : r.span.Below s.span) : r.last < s.start := by
  rw [isEmpty_eq_false_iff] at holds holds'
  have start : r.start ≤ s.start := by
    rw [← position_le_iff]
    rcases below with lower | ⟨same, -⟩
    · exact BitVec.le_of_lt lower
    · exact BitVec.le_of_eq same
  rcases (overlaps_eq_false_iff_of_holds holds holds').1 apart with first | second
  · exact first
  · exact absurd (UInt64.le_trans start holds') (UInt64.not_le.2 second)

end AddressRange

/-! ### The laws -/

namespace IntervalMap

/-- **What is known of an interval map.**  Its entries ascend, with no key twice, and it finds
exactly those that meet an interval or hold a position, in order.  An entry is set or removed at an
interval that holds anything, and no other entry changes. -/
class Sound {V : Type} (I : IntervalMap V) : Prop where
  /-- A new map has no entries. -/
  entries_empty : I.entries I.empty = []
  /-- The entries ascend. -/
  ascending : ∀ m, Ascending (I.entries m)
  /-- The entries that meet an interval. -/
  meeting : ∀ m k, k.Holds → I.meeting m k = (I.entries m).filter fun e => e.1.meets k
  /-- The entries that hold a position. -/
  holding : ∀ m p, I.holding m p = (I.entries m).filter fun e => e.1.includes p
  /-- An entry is set. -/
  insert : ∀ m k v, k.Holds → ∀ e,
    e ∈ I.entries (I.insert m k v) ↔ e = (k, v) ∨ e ∈ I.entries m ∧ e.1 ≠ k
  /-- An entry is removed. -/
  remove : ∀ m k v, k.Holds → ((I.remove m k).1 = some v ↔ (k, v) ∈ I.entries m)
  /-- No other entry is removed. -/
  entries_remove : ∀ m k, k.Holds →
    I.entries (I.remove m k).2 = (I.entries m).filter fun e => e.1 ≠ k

variable {V : Type}

/-- Of every key there is one value. -/
theorem Ascending.eq_of_mem {entries : List (Span × V)} (ascending : Ascending entries) {k : Span}
    {v w : V} (one : (k, v) ∈ entries) (two : (k, w) ∈ entries) : v = w := by
  have irreflexive : ¬ k.Below k := by grind [Span.Below]
  induction entries with
  | nil => cases one
  | cons e rest ih =>
      obtain ⟨above, later⟩ := List.pairwise_cons.1 ascending
      rcases List.mem_cons.1 one with rfl | behind
      · rcases List.mem_cons.1 two with same | behind
        · cases same
          rfl
        · exact (irreflexive (above _ behind)).elim
      · rcases List.mem_cons.1 two with rfl | behind'
        · exact (irreflexive (above _ behind)).elim
        · exact ih later behind behind'

theorem Ascending.nodup {entries : List (Span × V)} (ascending : Ascending entries) :
    entries.Nodup :=
  ascending.imp fun {e f} below same => by grind [Span.Below]

/-! ### The sorted list -/

/-- **What is in the list after an entry is set.** -/
theorem mem_put_iff {k : Span} {v : V} {entries : List (Span × V)} (ascending : Ascending entries)
    {e : Span × V} : e ∈ put k v entries ↔ e = (k, v) ∨ e ∈ entries ∧ e.1 ≠ k := by
  induction entries with
  | nil => simp [put]
  | cons first rest ih =>
      obtain ⟨above, later⟩ := List.pairwise_cons.1 ascending
      have irreflexive : ¬ k.Below k := by grind [Span.Below]
      unfold put
      split
      · next same =>
          -- what follows has other keys
          have others : ∀ f ∈ rest, f.1 ≠ k := fun f member equal =>
            irreflexive (by simpa [equal, ← same] using above f member)
          grind
      · next other =>
          split
          · next below =>
              have others : ∀ f ∈ rest, f.1 ≠ k := by
                intro f member equal
                have := above f member
                grind [Span.Below]
              grind
          · rw [List.mem_cons, ih later]
            grind

instance sound_sorted : (sorted V).Sound where
  entries_empty := rfl
  ascending := fun m => m.2
  meeting := fun _ _ _ => rfl
  holding := fun _ _ => rfl
  insert := fun m _ _ _ _ => mem_put_iff m.2
  remove := by
    intro m k v _
    show (m.1.find? fun e => e.1 = k).map Prod.snd = some v ↔ (k, v) ∈ m.1
    constructor
    · intro found
      obtain ⟨⟨key, value⟩, first, rfl⟩ := Option.map_eq_some_iff.1 found
      have same : key = k := by simpa using List.find?_some first
      exact same ▸ List.mem_of_find?_eq_some first
    · intro member
      cases first : m.1.find? fun e => e.1 = k with
      | none => exact absurd (decide_eq_true rfl) (List.find?_eq_none.1 first _ member)
      | some e =>
          obtain ⟨key, value⟩ := e
          have same : key = k := by simpa using List.find?_some first
          subst same
          rw [m.2.eq_of_mem (List.mem_of_find?_eq_some first) member]
          rfl
  entries_remove := fun _ _ _ => rfl

end IntervalMap

end Interconnect
