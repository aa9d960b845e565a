import Interconnect.Proofs.Monitor

/-!
# The largest window without a reserved address

Carving a window takes away no more than it must.  It starts from the lowest address of the access
that nobody has reserved, which a search finds by jumping from reservation to reservation, and
leaves the whole stretch around it up to the next reservations or the ends of the window.

## Main Definitions

* `Monitor.Finds` — the search, turn by turn
* `Monitor.IsLowestFree` — the address that it is after
* `Monitor.IsRoom` — the largest part of a range around an address without a reserved address
* `Monitor.override` — the verdict on a window, and the window afterwards

## Main Statements

* `exists_finds`, `finds_iff` — the search ends, with the lowest free address if there is one
* `exists_isRoom_of_carve` — what is left of a window that holds this address
* `override_keeps_room` — the verdict and the window in every case
-/

namespace Interconnect

/-- The greater of two addresses is one of them. -/
instance maxEqOrAddress : Std.MaxEqOr UInt64 where
  max_eq_or a b := by
    show (if a ≤ b then b else a) = a ∨ (if a ≤ b then b else a) = b
    split
    · exact .inr rfl
    · exact .inl rfl

/-- The addresses that an access stands for: its range, or the start of a range that is empty. -/
def Access.meant (access : Access) : AddressRange :=
  if access.range.isEmpty then .single access.range.start else access.range

theorem Access.holds_meant (access : Access) : access.meant.start ≤ access.meant.last := by
  unfold meant
  split
  · exact UInt64.le_refl _
  · next holds => exact AddressRange.isEmpty_eq_false_iff.1 (eq_false_of_ne_true holds)

namespace Monitor

variable {m : Monitor} {range : AddressRange} {cursor last top a p : UInt64}

theorem isFree_eq_false_iff : m.isFree a = false ↔ ∃ r ∈ m.reservations, a ∈ r.range := by
  rw [← Bool.not_eq_true, isFree_iff]
  simp

/-! ### The search -/

/-- **The address is the lowest of the range that nobody has reserved.** -/
structure IsLowestFree (m : Monitor) (range : AddressRange) (a : UInt64) : Prop where
  /-- It lies in the range. -/
  mem : a ∈ range
  /-- It is free. -/
  free : m.isFree a = true
  /-- Everything below it is reserved. -/
  lowest : ∀ b ∈ range, b < a → m.isFree b = false

/-- A range has one lowest free address at most. -/
theorem IsLowestFree.unique {b : UInt64} (h : m.IsLowestFree range a)
    (h' : m.IsLowestFree range b) : a = b := by
  have notBelow : ∀ {c d : UInt64}, m.IsLowestFree range c → m.IsLowestFree range d → c ≤ d := by
    intro c d lowC lowD
    refine UInt64.not_lt.1 fun below => ?_
    have reserved := lowC.lowest d lowD.mem below
    rw [lowD.free] at reserved
    cases reserved
  exact UInt64.le_antisymm (notBelow h h') (notBelow h' h)

/-- The end of the reservation over an address that reaches furthest, if there is one. -/
def heldUpTo (m : Monitor) (cursor : UInt64) : Option UInt64 :=
  ((m.reservations.filter fun r => r.range.includes cursor).map fun r => r.range.last).max?

/-- **The search for a free address up to `last`,** turn by turn.  It ends at a cursor that is free,
or where a reservation over the cursor reaches the end, and otherwise goes on behind the reservation
that reaches furthest. -/
inductive Finds (m : Monitor) (last : UInt64) : UInt64 → Option UInt64 → Prop
  /-- The cursor is free. -/
  | free {cursor : UInt64} (held : m.heldUpTo cursor = none) : Finds m last cursor (some cursor)
  /-- Everything up to the end is reserved. -/
  | reserved {cursor top : UInt64} (held : m.heldUpTo cursor = some top) (ends : last ≤ top) :
      Finds m last cursor none
  /-- The search goes on behind the reservation. -/
  | jump {cursor top : UInt64} {found : Option UInt64} (held : m.heldUpTo cursor = some top)
      (goesOn : top < last) (rest : Finds m last (top + 1) found) : Finds m last cursor found

theorem heldUpTo_eq_none_iff : m.heldUpTo cursor = none ↔ m.isFree cursor = true := by
  simp only [heldUpTo, List.max?_eq_none_iff, List.map_eq_nil_iff, List.filter_eq_nil_iff,
    AddressRange.includes_eq_true_iff, isFree_iff]

/-- The reservation that reaches furthest holds everything from the cursor to its end. -/
theorem of_heldUpTo (h : m.heldUpTo cursor = some top) :
    cursor ≤ top ∧ (∃ r ∈ m.reservations, r.range.last = top) ∧
      ∀ a, cursor ≤ a → a ≤ top → m.isFree a = false := by
  obtain ⟨r, found, rfl⟩ := List.mem_map.1 (List.max?_mem h)
  obtain ⟨stands, holds⟩ := List.mem_filter.1 found
  obtain ⟨above, below⟩ := AddressRange.mem_iff.1 (AddressRange.includes_eq_true_iff.1 holds)
  refine ⟨below, ⟨r, stands, rfl⟩, fun a from_ upTo => isFree_eq_false_iff.2 ⟨r, stands, ?_⟩⟩
  exact ⟨UInt64.le_trans above from_, upTo⟩

/-- **The search ends,** because each turn brings the cursor nearer to the end. -/
theorem exists_finds (m : Monitor) (last cursor : UInt64) : ∃ found, m.Finds last cursor found := by
  induction left : last.toNat - cursor.toNat using Nat.strongRecOn generalizing cursor with
  | _ n ih =>
      cases held : m.heldUpTo cursor with
      | none => exact ⟨some cursor, .free held⟩
      | some top =>
          by_cases ends : last ≤ top
          · exact ⟨none, .reserved held ends⟩
          · have goesOn : top < last := UInt64.not_le.1 ends
            have behind := (of_heldUpTo held).1
            have nearer : last.toNat - (top + 1).toNat < n := by
              have := last.toNat_lt
              rw [UInt64.le_iff_toNat_le] at behind
              rw [UInt64.lt_iff_toNat_lt] at goesOn
              simp only [UInt64.toNat_add, UInt64.reduceToNat]
              omega
            obtain ⟨found, rest⟩ := ih _ nearer (top + 1) rfl
            exact ⟨found, .jump held goesOn rest⟩

/-- **What the search finds** from a cursor below which nothing is free: the lowest free address, or
that there is none. -/
theorem Finds.spec {found : Option UInt64} (h : m.Finds range.last cursor found)
    (inside : cursor ∈ range) (below : ∀ b ∈ range, b < cursor → m.isFree b = false) :
    (∀ a, found = some a → m.IsLowestFree range a) ∧
      (found = none → ∀ b ∈ range, m.isFree b = false) := by
  induction h with
  | free held =>
      refine ⟨fun a same => ?_, fun none => nomatch none⟩
      cases same
      exact ⟨inside, heldUpTo_eq_none_iff.1 held, below⟩
  | @reserved cursor top held ends =>
      refine ⟨fun a some => (nomatch some), fun _ b mem => ?_⟩
      by_cases before : b < cursor
      · exact below b mem before
      · exact (of_heldUpTo held).2.2 b (UInt64.not_lt.1 before) (UInt64.le_trans mem.2 ends)
  | @jump cursor top found held goesOn rest ih =>
      obtain ⟨behind, -, reserved⟩ := of_heldUpTo held
      refine ih ?_ fun b mem before => ?_
      · rw [AddressRange.mem_iff] at inside ⊢
        grind
      · by_cases early : b < cursor
        · exact below b mem early
        · exact reserved b (UInt64.not_lt.1 early) (by grind)

/-- The search finds an address where it starts or right behind a reservation. -/
theorem Finds.eq_or_exists {found : Option UInt64} (h : m.Finds last cursor found)
    (same : found = some a) : a = cursor ∨ ∃ r ∈ m.reservations, r.range.last + 1 = a := by
  induction h with
  | free held => exact .inl (Option.some.inj same).symm
  | reserved held ends => cases same
  | jump held goesOn rest ih =>
      rcases ih same with rfl | behind
      · obtain ⟨-, ⟨r, stands, rfl⟩, -⟩ := of_heldUpTo held
        exact .inr ⟨r, stands, rfl⟩
      · exact .inr behind

/-- Choosing the lowest of some addresses gives one that none of them is below. -/
private theorem foldl_lowest_eq (addresses : List UInt64) (best : Option UInt64)
    (among : a ∈ addresses ∨ best = some a) (least : ∀ b ∈ addresses, a ≤ b)
    (best_le : ∀ b, best = some b → a ≤ b) :
    addresses.foldl (fun best a => match best with
      | none => some a
      | some b => if a < b then some a else some b) best = some a := by
  induction addresses generalizing best with
  | nil => exact among.resolve_left List.not_mem_nil
  | cons b rest ih =>
      have leB := least b List.mem_cons_self
      rw [List.foldl_cons]
      refine ih _ ?_ (fun c mem => least c (List.mem_cons_of_mem b mem)) ?_
      · cases best with
        | none => simpa [eq_comm, or_comm] using among
        | some c =>
            have leC := best_le c rfl
            dsimp only
            rcases among with mem | same
            · rcases List.mem_cons.1 mem with rfl | inRest
              · right
                grind
              · exact .inl inRest
            · right
              grind
      · intro c chosen
        cases best with
        | none =>
            cases chosen
            exact leB
        | some d =>
            have leD := best_le d rfl
            grind

/-- Of the addresses that are looked at, the lowest free one is chosen. -/
theorem lowestFree_eq_some (h : m.IsLowestFree range a)
    (candidate : a = range.start ∨ ∃ r ∈ m.reservations, r.range.last + 1 = a) :
    m.lowestFree range = some a := by
  refine foldl_lowest_eq _ none (.inl ?_) (fun b mem => ?_) (fun b absent => nomatch absent)
  · rw [List.mem_filter, List.mem_cons, List.mem_map, Bool.and_eq_true,
      AddressRange.includes_eq_true_iff]
    exact ⟨candidate, h.mem, h.free⟩
  · have fit := (List.mem_filter.1 mem).2
    rw [Bool.and_eq_true, AddressRange.includes_eq_true_iff] at fit
    refine UInt64.not_lt.1 fun below => ?_
    rw [h.lowest b fit.1 below] at fit
    exact absurd fit.2 Bool.false_ne_true

/-- **The search from the start of a range ends with the lowest free address,** or with none where
everything is reserved. -/
theorem finds_iff (holds : range.start ≤ range.last) {found : Option UInt64} :
    m.Finds range.last range.start found ↔ found = m.lowestFree range := by
  have start : range.start ∈ range := ⟨UInt64.le_refl _, holds⟩
  have atMost : ∀ found, m.Finds range.last range.start found → found = m.lowestFree range := by
    intro found finds
    obtain ⟨some, none⟩ := finds.spec start fun b mem below =>
      absurd (UInt64.lt_of_lt_of_le below mem.1) (UInt64.lt_irrefl b)
    cases found with
    | some a => exact (lowestFree_eq_some (some a rfl) (finds.eq_or_exists rfl)).symm
    | none =>
        cases lowest : m.lowestFree range with
        | none => rfl
        | some a =>
            obtain ⟨mem, free⟩ := isFree_of_lowestFree lowest
            rw [none rfl a mem] at free
            cases free
  refine ⟨atMost found, ?_⟩
  rintro rfl
  obtain ⟨found, finds⟩ := exists_finds m range.last range.start
  rwa [← atMost found finds]

/-- **The lowest free address of a range is the one that is looked for.** -/
theorem lowestFree_eq_some_iff (holds : range.start ≤ range.last) :
    m.lowestFree range = some a ↔ m.IsLowestFree range a := by
  have start : range.start ∈ range := ⟨UInt64.le_refl _, holds⟩
  obtain ⟨some, none⟩ := ((finds_iff (m := m) holds).2 rfl).spec start fun b mem below =>
    absurd (UInt64.lt_of_lt_of_le below mem.1) (UInt64.lt_irrefl b)
  refine ⟨some a, fun lowest => ?_⟩
  cases found : m.lowestFree range with
  | none =>
      have reserved := none found a lowest.mem
      rw [lowest.free] at reserved
      cases reserved
  | some b => rw [(some b found).unique lowest]

theorem lowestFree_eq_none (reserved : ∀ a ∈ range, m.isFree a = false) :
    m.lowestFree range = none := by
  cases found : m.lowestFree range with
  | none => rfl
  | some a =>
      obtain ⟨mem, free⟩ := isFree_of_lowestFree found
      rw [reserved a mem] at free
      cases free

/-! ### The room around an address -/

/-- **The largest part of `whole` around `p` without a reserved address.** -/
structure IsRoom (m : Monitor) (p : UInt64) (whole part : AddressRange) : Prop where
  /-- It is around the address. -/
  mem : p ∈ part
  /-- It is a part. -/
  within : ∀ a ∈ part, a ∈ whole
  /-- Nothing in it is reserved. -/
  free : ∀ a ∈ part, m.isFree a = true
  /-- No interval of which this holds reaches beyond it. -/
  greatest : ∀ other : AddressRange, p ∈ other → (∀ a ∈ other, a ∈ whole ∧ m.isFree a = true) →
    ∀ a ∈ other, a ∈ part

/-- Narrowing by a reservation keeps every interval around the pivot that has no address in it. -/
theorem narrow_keeps {other : AddressRange} {low high : UInt64} {r : Reservation}
    (pivot : p ∈ other) (holds : r.range.isEmpty = false)
    (apart : ∀ a ∈ other, a ∉ r.range) (from_ : low ≤ other.start) (upTo : other.last ≤ high) :
    (narrow p (low, high) r).1 ≤ other.start ∧ other.last ≤ (narrow p (low, high) r).2 := by
  rw [AddressRange.isEmpty_eq_false_iff] at holds
  have first := apart r.range.start
  have last := apart r.range.last
  simp only [narrow, AddressRange.mem_iff] at pivot first last ⊢
  grind

theorem foldl_narrow_keeps {other : AddressRange} (pivot : p ∈ other)
    (reservations : List Reservation) (holds : ∀ r ∈ reservations, r.range.isEmpty = false)
    (apart : ∀ r ∈ reservations, ∀ a ∈ other, a ∉ r.range) (bounds : UInt64 × UInt64)
    (from_ : bounds.1 ≤ other.start) (upTo : other.last ≤ bounds.2) :
    (reservations.foldl (narrow p) bounds).1 ≤ other.start ∧
      other.last ≤ (reservations.foldl (narrow p) bounds).2 := by
  induction reservations generalizing bounds with
  | nil => exact ⟨from_, upTo⟩
  | cons r rest ih =>
      obtain ⟨low, high⟩ := bounds
      obtain ⟨fromStep, upToStep⟩ := narrow_keeps pivot (holds r List.mem_cons_self)
        (apart r List.mem_cons_self) from_ upTo
      exact ih (fun s mem => holds s (List.mem_cons_of_mem r mem))
        (fun s mem => apart s (List.mem_cons_of_mem r mem)) _ fromStep upToStep

/-! ### Carving -/

/-- **The verdict on a window, and the window afterwards,** which is the carved one if the verdict
is good. -/
def override (m : Monitor) (access : Access) (w : DirectWindow) : Bool × DirectWindow :=
  ((m.carve access w).isSome, (m.carve access w).getD w)

theorem override_eq_true_iff {access : Access} {w v : DirectWindow} :
    m.override access w = (true, v) ↔ m.carve access w = some v := by
  unfold override
  cases m.carve access w with
  | none => simp
  | some u => simp

theorem override_eq_false_iff {access : Access} {w v : DirectWindow} :
    m.override access w = (false, v) ↔ m.carve access w = none ∧ v = w := by
  unfold override
  cases m.carve access w with
  | none => simp [eq_comm]
  | some u => simp

/-- Of a window whose access is reserved altogether nothing is left. -/
theorem carve_eq_none {access : Access} {w : DirectWindow}
    (reserved : ∀ a ∈ access.meant, m.isFree a = false) : m.carve access w = none := by
  have none := lowestFree_eq_none reserved
  rw [Access.meant] at none
  simp only [carve, none, Option.bind_eq_bind, Option.bind_none]

/-- **Of a window that holds the lowest free address of the access, the room around it is left.** -/
theorem exists_isRoom_of_carve {access : Access} {w : DirectWindow}
    (holds : ∀ r ∈ m.reservations, r.range.isEmpty = false)
    (lowest : m.IsLowestFree access.meant p) (inside : p ∈ w.range) :
    ∃ v, m.carve access w = some v ∧ m.IsRoom p w.range v.range := by
  have found := (lowestFree_eq_some_iff access.holds_meant).2 lowest
  have apart : ∀ {other : AddressRange}, (∀ a ∈ other, m.isFree a = true) →
      ∀ r ∈ m.reservations, ∀ a ∈ other, a ∉ r.range :=
    fun free r stands a mem => isFree_iff.1 (free a mem) r stands
  have keeps := fun {other : AddressRange} (pivot : p ∈ other)
      (free : ∀ a ∈ other, m.isFree a = true) =>
    foldl_narrow_keeps pivot m.reservations holds (apart free) (w.start, w.last)
  -- the bounds stay on either side of the pivot, so they make a range around it
  obtain ⟨low, high⟩ := keeps (AddressRange.mem_single.2 rfl)
    (fun a mem => AddressRange.mem_single.1 mem ▸ lowest.free) inside.1 inside.2
  generalize bounds : m.reservations.foldl (narrow p) (w.start, w.last) = narrowed at keeps low high
  obtain ⟨part, made⟩ : ∃ part, AddressRange.ofBounds narrowed.1 narrowed.2 = .ok part :=
    ⟨⟨narrowed.1, narrowed.2, .inl (UInt64.le_trans low high)⟩,
      AddressRange.ofBounds_eq_ok_iff.2 ⟨rfl, rfl⟩⟩
  have mem : ∀ {a}, a ∈ part ↔ narrowed.1 ≤ a ∧ a ≤ narrowed.2 := by
    obtain ⟨start, last⟩ := AddressRange.ofBounds_eq_ok_iff.1 made
    intro a
    rw [AddressRange.mem_iff, start, last]
  have carved : m.carve access w = w.restrict part := by
    rw [Access.meant] at found
    simp only [carve, found, Option.bind_eq_bind, Option.bind_some, bounds, made]
  cases restricted : w.restrict part with
  | none =>
      exact absurd (mem.2 ⟨low, high⟩) (DirectWindow.restrict_eq_none_iff.1 restricted p inside)
  | some v =>
      rw [restricted] at carved
      have mem' := fun {a} => DirectWindow.mem_of_restrict_eq_some restricted (a := a)
      refine ⟨v, carved, mem'.2 ⟨inside, mem.2 ⟨low, high⟩⟩, fun a mem => (mem'.1 mem).1, ?_, ?_⟩
      · intro a inPart
        refine isFree_iff.2 fun r stands reserved => ?_
        exact AddressRange.overlaps_eq_false_iff.1 (overlaps_eq_false_of_carve carved stands) a
          inPart reserved
      · intro other pivot room a inOther
        have first : other.start ∈ other :=
          ⟨UInt64.le_refl _, UInt64.le_trans pivot.1 pivot.2⟩
        have last : other.last ∈ other := ⟨UInt64.le_trans pivot.1 pivot.2, UInt64.le_refl _⟩
        obtain ⟨from_, upTo⟩ := keeps pivot (fun b inside => (room b inside).2)
          (room _ first).1.1 (room _ last).1.2
        exact mem'.2 ⟨(room a inOther).1, mem.2
          ⟨UInt64.le_trans from_ inOther.1, UInt64.le_trans inOther.2 upTo⟩⟩

/-- What is left of a window is a part of it that is not empty. -/
theorem isPartOf_of_carve {access : Access} {w v : DirectWindow} (h : m.carve access w = some v) :
    v.isEmpty = false ∧ v.IsPartOf w := by
  obtain ⟨part, restricted, -⟩ := exists_restrict_of_carve h
  exact ⟨DirectWindow.isEmpty_of_restrict restricted, DirectWindow.isPartOf_of_restrict restricted⟩

/-- **The verdict on a window and the window afterwards.**  The search for the lowest free address
of the access ends, with the outcome that the verdict is founded on.  Where the access is reserved
altogether the window is refused; where the window holds the lowest free address, the room around
that address is left of it.  In any case what is left is a part of the window without a reserved
address, and a refused window stays as it is. -/
theorem override_keeps_room (m : Monitor) (access : Access) (w : DirectWindow)
    (holds : ∀ r ∈ m.reservations, r.range.isEmpty = false) :
    (∀ found, m.Finds access.meant.last access.meant.start found ↔
        found = m.lowestFree access.meant) ∧
      ((∀ a ∈ access.meant, m.isFree a = false) → m.override access w = (false, w)) ∧
      (∀ p, m.IsLowestFree access.meant p → p ∈ w.range →
        ∃ v, m.override access w = (true, v) ∧ m.IsRoom p w.range v.range ∧ v.IsPartOf w) ∧
      (∀ v, m.override access w = (true, v) → v.isEmpty = false ∧ v.IsPartOf w ∧
        ∀ r ∈ m.reservations, v.range.overlaps r.range = false) ∧
      ∀ v, m.override access w = (false, v) → v = w := by
  refine ⟨fun found => finds_iff access.holds_meant, ?_, ?_, ?_, ?_⟩
  · exact fun reserved => override_eq_false_iff.2 ⟨carve_eq_none reserved, rfl⟩
  · intro p lowest inside
    obtain ⟨v, carved, room⟩ := exists_isRoom_of_carve holds lowest inside
    exact ⟨v, override_eq_true_iff.2 carved, room, (isPartOf_of_carve carved).2⟩
  · intro v granted
    have carved := override_eq_true_iff.1 granted
    obtain ⟨some, part⟩ := isPartOf_of_carve carved
    exact ⟨some, part, fun r => overlaps_eq_false_of_carve carved⟩
  · exact fun v refused => (override_eq_false_iff.1 refused).2

/-- Reservations that are nested and touch, made in no order: the search jumps over all of them, and
of the window the part between them and the next one is left. -/
theorem exists_room_behind_chain :
    let m : Monitor := ⟨[⟨1, ⟨0x20, 0x2f, .inl (by decide)⟩⟩, ⟨2, ⟨0x40, 0x4f, .inl (by decide)⟩⟩,
      ⟨2, ⟨0x10, 0x1f, .inl (by decide)⟩⟩, ⟨1, ⟨0x12, 0x14, .inl (by decide)⟩⟩]⟩
    let access : Access := ⟨⟨0x10, 0x33, .inl (by decide)⟩, .read, 3, false⟩
    let w : DirectWindow := ⟨⟨0x8, 0xff, .inl (by decide)⟩, .toBlock 0, .readWrite⟩
    (∀ r ∈ m.reservations, r.range.isEmpty = false) ∧
      ∃ v, m.override access w = (true, v) ∧ m.IsRoom 0x30 w.range v.range := by
  intro m access w
  have holds : ∀ r ∈ m.reservations, r.range.isEmpty = false := by decide
  obtain ⟨-, -, room, -⟩ := override_keeps_room m access w holds
  obtain ⟨v, granted, around, -⟩ := room 0x30
    ((lowestFree_eq_some_iff access.holds_meant).1 (by decide)) (by decide)
  exact ⟨holds, v, granted, around⟩

end Monitor

end Interconnect
