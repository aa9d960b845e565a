import Interconnect.Range.Basic

/-!
# Interval maps

A bus keeps what it shows in an ordered map whose keys are half-open intervals.  Addresses are
widened for that: the end of an interval lies one above its last address, and above the last
address of all there is no 64-bit word.

## Main Definitions

* `Span` — a half-open interval of widened addresses
* `AddressRange.span` — the interval of an inclusive range
* `IntervalMap` — the operations of an ordered map with such keys
* `IntervalMap.sorted` — such a map as a sorted list

### Why the operations are a parameter

What a bus does is written over any `IntervalMap`, so that nothing about it hangs on how the map
keeps its entries.  `IntervalMap.Sound` says what is expected of the operations, and the sorted list
meets it.
-/

namespace Interconnect

/-! ### Half-open intervals -/

/-- An address, with room for the one above the last. -/
abbrev Position := BitVec 128

/-- **A half-open interval:** `limit` is no longer part of it. -/
structure Span where
  /-- The first position. -/
  first : Position
  /-- The position above the last. -/
  limit : Position
deriving DecidableEq

namespace Span

/-- There is a position in the interval. -/
def Holds (s : Span) : Prop := s.first < s.limit

/-- The interval holds a position. -/
def includes (s : Span) (p : Position) : Bool := s.first ≤ p && p < s.limit

/-- Two intervals have a position in common. -/
def meets (s t : Span) : Bool := s.first < t.limit && t.first < s.limit

/-- The order of the keys: by the first position, and then by the end. -/
def Below (s t : Span) : Prop := s.first < t.first ∨ s.first = t.first ∧ s.limit < t.limit

instance (s t : Span) : Decidable (s.Below t) :=
  inferInstanceAs (Decidable (s.first < t.first ∨ s.first = t.first ∧ s.limit < t.limit))

end Span

/-- An address as a position. -/
def position (a : UInt64) : Position := a.toBitVec.setWidth 128

/-- **The interval of an inclusive range.**  It ends one above the last address of the range. -/
def AddressRange.span (r : AddressRange) : Span := ⟨position r.start, position r.last + 1⟩

/-! ### The operations -/

/-- **An ordered map from intervals to values.** -/
structure IntervalMap (V : Type) where
  /-- The maps. -/
  Store : Type
  /-- The map without entries. -/
  empty : Store
  /-- All entries, in order. -/
  entries : Store → List (Span × V)
  /-- The entries that have a position in common with an interval, in order. -/
  meeting : Store → Span → List (Span × V)
  /-- The entries that hold a position, in order. -/
  holding : Store → Position → List (Span × V)
  /-- Sets the value of an interval. -/
  insert : Store → Span → V → Store
  /-- Removes the entry of exactly this interval, and gives its value. -/
  remove : Store → Span → Option V × Store

/-! ### Sorted lists -/

namespace IntervalMap

variable {V : Type}

/-- Sets the value of an interval in a sorted list. -/
def put (k : Span) (v : V) : List (Span × V) → List (Span × V)
  | [] => [(k, v)]
  | e :: rest =>
    if k = e.1 then (k, v) :: rest
    else if k.Below e.1 then (k, v) :: e :: rest
    else e :: put k v rest

theorem eq_or_mem_of_mem_put {k : Span} {v : V} {entries : List (Span × V)} {e : Span × V}
    (member : e ∈ put k v entries) : e = (k, v) ∨ e ∈ entries := by
  induction entries with
  | nil => exact .inl (List.mem_singleton.1 member)
  | cons first rest ih =>
      unfold put at member
      split at member
      · exact (List.mem_cons.1 member).imp_right (List.mem_cons_of_mem _)
      · split at member
        · exact List.mem_cons.1 member
        · rcases List.mem_cons.1 member with rfl | later
          · exact .inr List.mem_cons_self
          · exact (ih later).imp_right (List.mem_cons_of_mem _)

/-- The entries of a sorted list ascend, and no interval is there twice. -/
def Ascending (entries : List (Span × V)) : Prop := entries.Pairwise fun e f => e.1.Below f.1

theorem Ascending.put {entries : List (Span × V)} (ascending : Ascending entries) (k : Span)
    (v : V) : Ascending (put k v entries) := by
  induction entries with
  | nil => exact List.pairwise_singleton _ _
  | cons e rest ih =>
      obtain ⟨above, later⟩ := List.pairwise_cons.1 ascending
      unfold IntervalMap.put
      split
      · next same =>
          exact List.pairwise_cons.2 ⟨fun f member => same ▸ above f member, later⟩
      · next other =>
          split
          · next below =>
              refine List.pairwise_cons.2 ⟨fun f member => ?_, ascending⟩
              rcases List.mem_cons.1 member with rfl | member
              · exact below
              · have := above f member
                grind [Span.Below]
          · next notBelow =>
              refine List.pairwise_cons.2 ⟨fun f member => ?_, ih later⟩
              rcases eq_or_mem_of_mem_put member with rfl | old
              · grind [Span.Below, Span]
              · exact above f old

/-- **An ordered map as a sorted list.** -/
def sorted (V : Type) : IntervalMap V where
  Store := { entries : List (Span × V) // Ascending entries }
  empty := ⟨[], .nil⟩
  entries := fun m => m.1
  meeting := fun m k => m.1.filter fun e => e.1.meets k
  holding := fun m p => m.1.filter fun e => e.1.includes p
  insert := fun m k v => ⟨put k v m.1, m.2.put k v⟩
  remove := fun m k =>
    ((m.1.find? fun e => e.1 = k).map Prod.snd,
      ⟨m.1.filter fun e => e.1 ≠ k, m.2.sublist List.filter_sublist⟩)

instance [DecidableEq V] : DecidableEq (sorted V).Store :=
  inferInstanceAs (DecidableEq { entries : List (Span × V) // Ascending entries })

end IntervalMap

end Interconnect
