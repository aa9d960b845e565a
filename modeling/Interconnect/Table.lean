/-!
# Numbered tables

The parts of an interconnect refer to one another by number: caches, handles, endpoints, storage
blocks.  A `Table` maps such numbers to values, and every other module sees it through `find?`.

## Main Definitions

* `Table` — a finite map from numbers to values
* `Table.insert`, `Table.modify`, `Table.erase` — the updates
* `Table.fresh` — a number that is not in use
-/

namespace Interconnect

universe u

/-- **A finite map from numbers to values**, kept in the order in which the numbers were first
used. -/
structure Table (α : Type u) where
  /-- The entries; of two with the same number the first counts. -/
  entries : List (Nat × α)

namespace Table

variable {α : Type u}

/-- The table without entries. -/
def empty : Table α := ⟨[]⟩

/-- The value with number `k`. -/
def find? (t : Table α) (k : Nat) : Option α := t.entries.lookup k

/-- The numbers in use. -/
def keys (t : Table α) : List Nat := t.entries.map Prod.fst

/-- Sets the value with number `k`, in place if the number is in use and at the end otherwise. -/
def put : List (Nat × α) → Nat → α → List (Nat × α)
  | [], k, v => [(k, v)]
  | (j, w) :: rest, k, v => if k = j then (k, v) :: rest else (j, w) :: put rest k v

/-- Sets the value with number `k`. -/
def insert (t : Table α) (k : Nat) (v : α) : Table α := ⟨put t.entries k v⟩

/-- Applies `f` to the value with number `k`, if there is one. -/
def modify (t : Table α) (k : Nat) (f : α → α) : Table α :=
  match t.find? k with
  | some v => t.insert k (f v)
  | none => t

/-- Removes the value with number `k`. -/
def erase (t : Table α) (k : Nat) : Table α := ⟨t.entries.filter (fun e => e.1 != k)⟩

/-- A number above all that are in use. -/
def fresh (t : Table α) : Nat := t.entries.foldr (fun e n => max (e.1 + 1) n) 0

/-! ### The table seen through `find?` -/

@[simp] theorem find?_empty (k : Nat) : (empty : Table α).find? k = none := rfl

private theorem lookup_cons_eq (l : List (Nat × α)) (i : Nat) (w : α) (j : Nat) :
    ((i, w) :: l).lookup j = if j = i then some w else l.lookup j := by
  by_cases h : j = i
  · simp [h]
  · have : (j == i) = false := beq_eq_false_iff_ne.mpr h
    simp [List.lookup_cons, this, h]

private theorem lookup_put (l : List (Nat × α)) (k : Nat) (v : α) (j : Nat) :
    (put l k v).lookup j = if j = k then some v else l.lookup j := by
  induction l with
  | nil => simp only [put, lookup_cons_eq]
  | cons e rest ih =>
      obtain ⟨i, w⟩ := e
      by_cases hk : k = i
      · simp only [put, hk, if_true, lookup_cons_eq]
        split <;> rfl
      · simp only [put, hk, if_false, lookup_cons_eq, ih]
        grind

@[simp] theorem find?_insert (t : Table α) (k : Nat) (v : α) (j : Nat) :
    (t.insert k v).find? j = if j = k then some v else t.find? j :=
  lookup_put t.entries k v j

theorem find?_insert_self (t : Table α) (k : Nat) (v : α) : (t.insert k v).find? k = some v :=
  (find?_insert t k v k).trans (if_pos rfl)

theorem find?_modify (t : Table α) (k : Nat) (f : α → α) (j : Nat) :
    (t.modify k f).find? j = if j = k then (t.find? k).map f else t.find? j := by
  unfold modify
  split
  · next v found => by_cases h : j = k <;> simp [h, found]
  · next absent => by_cases h : j = k <;> simp [h, absent]

private theorem lookup_filter_ne (l : List (Nat × α)) (k j : Nat) :
    (l.filter (fun e => e.1 != k)).lookup j = if j = k then none else l.lookup j := by
  induction l with
  | nil => simp
  | cons e rest ih =>
      obtain ⟨i, w⟩ := e
      by_cases hi : i = k
      · have dropped : ((i, w) :: rest).filter (fun e => e.1 != k)
            = rest.filter (fun e => e.1 != k) := by simp [hi]
        rw [dropped, ih, lookup_cons_eq]
        grind
      · have kept : ((i, w) :: rest).filter (fun e => e.1 != k)
            = (i, w) :: rest.filter (fun e => e.1 != k) := by simp [hi]
        rw [kept, lookup_cons_eq, lookup_cons_eq, ih]
        grind

@[simp] theorem find?_erase (t : Table α) (k j : Nat) :
    (t.erase k).find? j = if j = k then none else t.find? j :=
  lookup_filter_ne t.entries k j

private theorem put_of_lookup_eq_some {l : List (Nat × α)} {k : Nat} {v : α}
    (found : l.lookup k = some v) : put l k v = l := by
  induction l with
  | nil => cases found
  | cons e rest ih =>
      obtain ⟨j, w⟩ := e
      rw [lookup_cons_eq] at found
      unfold put
      split at found
      · next same =>
          cases found
          rw [if_pos same, same]
      · next other => rw [if_neg other, ih found]

/-- Setting a value that is there already changes nothing. -/
theorem insert_of_find?_eq_some {t : Table α} {k : Nat} {v : α} (found : t.find? k = some v) :
    t.insert k v = t :=
  congrArg Table.mk (put_of_lookup_eq_some found)

/-- Removing a value that is not there changes nothing. -/
theorem erase_of_find?_eq_none {t : Table α} {k : Nat} (absent : t.find? k = none) :
    t.erase k = t := by
  refine congrArg Table.mk (List.filter_eq_self.2 fun e member => ?_)
  obtain ⟨i, w⟩ := e
  have other : i ≠ k := by
    rintro rfl
    have := List.lookup_eq_none_iff.1 absent (i, w) member
    simp at this
  simpa using other

private theorem lookup_eq_none_of_fresh_le (l : List (Nat × α)) (k : Nat)
    (h : l.foldr (fun e n => max (e.1 + 1) n) 0 ≤ k) : l.lookup k = none := by
  induction l with
  | nil => rfl
  | cons e rest ih =>
      obtain ⟨i, w⟩ := e
      simp only [List.foldr_cons, Nat.max_le] at h
      have : k ≠ i := by omega
      rw [lookup_cons_eq, if_neg this, ih h.2]

@[simp] theorem find?_fresh (t : Table α) : t.find? t.fresh = none :=
  lookup_eq_none_of_fresh_le t.entries t.fresh (Nat.le_refl _)

/-- A value that is found is among the entries. -/
theorem mem_entries_of_find? {t : Table α} {k : Nat} {v : α} (h : t.find? k = some v) :
    (k, v) ∈ t.entries := by
  obtain ⟨before, after, entries, -⟩ := List.lookup_eq_some_iff.1 h
  simp [entries]

end Table

end Interconnect
