import Interconnect.Proofs.Gate.Streaming

/-!
# Which transactions are marked for a window

A plain transaction is marked for a window as soon as it is prepared, and loses the mark with the
first piece that meets a reservation, or with the first failure.  What it comes down to is told here
by the bytes that the transaction moves: none of them may be reserved when it comes to the gate.

## Main Definitions

* `Transaction.Reaches` — a transaction moves a byte to or from an address

## Main Statements

* `Passage.Course.allowed_iff` — the mark is lost to reservations only
* `Station.directAllowed_iff` — which transactions are marked
* `Station.not_forall_unmarked` — a reserved byte that does not take part is no obstacle

### Why the reservations of the beginning count

A plain write breaks the reservations that it meets, and later pieces do not see them any more.  But
then it has met one, and is not marked whatever the later pieces see.
-/

namespace Interconnect

universe u

variable {σ : Type u}

/-- **A transaction reaches an address** if a byte of a pulse takes part there. -/
def Transaction.Reaches (tx : Transaction) (a : UInt64) : Prop :=
  ∃ place < tx.width, TakesPart tx.byteEnable place ∧ a.toNat = tx.address.toNat + place

theorem Monitor.watches_eq_false_iff {m : Monitor} {range : AddressRange} :
    m.watches range = false ↔ ∀ r ∈ m.reservations, r.range.overlaps range = false := by
  simp [watches]

namespace Passage

variable {T : Target σ}

/-! ### The mark on its way -/

/-- **A piece that meets a reservation takes the mark away.** -/
theorem allowed_turn {p : Passage σ} (plain : p.tx.debug = false) (range : AddressRange)
    (piece : Piece) : (p.turn T range piece).2.tx.directAllowed =
      (p.tx.directAllowed && !p.station.gate.monitor.watches range) := by
  have asked : (p.turn T range piece).2.tx.directAllowed = (p.watch range).tx.directAllowed := by
    rw [turn]
    generalize p.watch range = q
    unfold ask
    dsimp only
    split <;> rfl
  rw [asked, watch, plain, if_neg Bool.false_ne_true]
  dsimp only
  split <;> rfl

namespace Course

variable {pieces : List Piece} {p q : Passage σ} {exchanges : List Exchange}
  {outcome : Except Interruption Response}

/-- A call has the range of its piece. -/
theorem range_call (h : Course T pieces p exchanges outcome q) :
    ∀ e ∈ exchanges, AddressRange.ofSize e.piece.address e.piece.length = .ok e.call.range := by
  induction h with
  | done p => exact nofun
  | onward made moved counted later ih =>
      refine List.forall_mem_cons.2 ⟨?_, ih⟩
      rw [exchange, Transaction.range_call]
      exact made
  | overrun made moved overran =>
      refine List.forall_mem_cons.2 ⟨?_, nofun⟩
      rw [exchange, Transaction.range_call]
      exact made
  | halted made failed =>
      refine List.forall_mem_cons.2 ⟨?_, nofun⟩
      rw [exchange, Transaction.range_call]
      exact made

/-- **A plain transfer keeps its mark exactly if no call meets a reservation** that stands at its
beginning. -/
theorem allowed_iff (h : Course T pieces p exchanges outcome q) (plain : p.tx.debug = false) :
    q.tx.directAllowed = true ↔ p.tx.directAllowed = true ∧
      ∀ e ∈ exchanges, p.station.gate.monitor.watches e.call.range = false := by
  induction h with
  | done p => simp
  | onward made moved counted later ih =>
      rename_i piece rest p q range exchanges outcome
      have same := resembles_turn (T := T) p range piece
      rw [ih (by rwa [tx_count, same.debug_eq]), tx_count, allowed_turn plain,
        List.forall_mem_cons, exchange, Transaction.range_call, monitor_count]
      cases met : p.station.gate.monitor.watches range with
      | true => simp
      | false =>
          -- where nothing is met a write breaks nothing
          have kept : (p.turn T range piece).2.station.gate.monitor = p.station.gate.monitor := by
            rw [monitor_turn, Monitor.breakRange_eq_self (Monitor.watches_eq_false_iff.1 met),
              ite_self]
          simp [kept]
  | overrun made moved overran =>
      rename_i piece rest p range
      rw [tx_count, allowed_turn plain, List.forall_mem_singleton, exchange,
        Transaction.range_call]
      simp
  | halted made failed =>
      rename_i piece rest p range
      rw [allowed_turn plain, List.forall_mem_singleton, exchange, Transaction.range_call]
      simp

end Course

/-- An admitted transaction is marked if it is plain and windows are granted. -/
theorem allowed_of_admission {s : Station σ} {tx : Transaction} {range : AddressRange}
    {prepared p : Passage σ} (preparation : (entering s tx).prepare range = some prepared)
    (h : prepared.admission = .ok (some p)) :
    p.tx.directAllowed = true ↔
      s.gate.config.allowDirect = true ∧ tx.debug = false ∧ tx.exclusive = false := by
  refine ⟨(admitted_of_admission preparation h).allowed, fun ⟨windows, plain, shared⟩ => ?_⟩
  have marked : prepared.tx.directAllowed = true := by
    simp only [prepare, entering, windows, plain, shared, Bool.not_true, Bool.or_self, if_neg,
      Bool.false_eq_true, not_false_eq_true, Option.some.injEq] at preparation
    rw [← preparation]
  rcases admission_cases h with ⟨-, rfl⟩ | ⟨exclusive, -⟩
  · exact marked
  · rw [(pending_prepare preparation).1.resembles.exclusive_eq] at exclusive
    exact absurd (shared.symm.trans exclusive) Bool.false_ne_true

end Passage

namespace Station

variable {T : Target σ} {s : Station σ} {tx : Transaction}

/-! ### The bytes that are moved -/

/-- **The addresses that a transaction reaches are those of its pieces.** -/
theorem reaches_iff (nonempty : tx.data ≠ []) (admits : s.gate.Admits tx) {a : UInt64} :
    tx.Reaches a ↔ ∃ piece ∈ plan tx.address tx.data.length tx.streamingWidth tx.byteEnable,
      piece.address.toNat ≤ a.toNat ∧ a.toNat < piece.address.toNat + piece.length := by
  have width := admits.pulseWidth_eq
  have short := admits.width_le
  have filled : 0 < tx.data.length := List.length_pos_iff.2 nonempty
  have fits : tx.address.toNat + (tx.width - 1) < UInt64.size := by
    have := admits.fits
    omega
  have address {piece : Piece}
      (planned : piece ∈ plan tx.address tx.data.length tx.streamingWidth tx.byteEnable) :
      piece.address.toNat = tx.address.toNat + piece.offset % tx.width := by
    have start := toNat_address_of_mem_plan (by rwa [width]) planned
    rwa [width] at start
  constructor
  · rintro ⟨place, inside, takes, here⟩
    have own : place % tx.width = place := Nat.mod_eq_of_lt inside
    have whole : place < tx.data.length / tx.width * tx.width := by
      rw [Nat.div_mul_cancel admits.width_dvd]
      omega
    rw [← width] at whole
    rw [← own, ← width] at takes
    obtain ⟨before, piece, later, parts, covers, -⟩ :=
      @exists_last_of_takesPart tx.address _ tx.streamingWidth tx.byteEnable _ whole takes
    have planned : piece ∈ plan tx.address tx.data.length tx.streamingWidth tx.byteEnable := by
      rw [parts]
      exact List.mem_append_right _ List.mem_cons_self
    obtain ⟨first, last⟩ := covers
    have start := address planned
    rw [Nat.mod_eq_of_lt (Nat.lt_of_le_of_lt first inside)] at start
    exact ⟨piece, planned, by omega, by omega⟩
  · rintro ⟨piece, planned, low, high⟩
    have start := address planned
    obtain ⟨-, pulse, -⟩ := spec_of_mem_plan planned
    rw [width] at pulse
    have covers : piece.Covers (piece.offset + (a.toNat - piece.address.toNat)) :=
      ⟨Nat.le_add_right _ _, by omega⟩
    have takes := (takesPart_of_covers planned covers).2
    rw [width, covers.mod_eq pulse] at takes
    exact ⟨_, by omega, takes, by omega⟩

/-- **No call meets a reservation exactly if no reserved address is reached,** once the whole plan
has been carried out. -/
theorem unwatched_iff {p q : Passage σ} {exchanges : List Exchange}
    (nonempty : tx.data ≠ []) (admits : s.gate.Admits tx)
    (course : Passage.Course T (plan tx.address tx.data.length tx.streamingWidth tx.byteEnable) p
      exchanges (.ok .ok) q) (m : Monitor) :
    (∀ e ∈ exchanges, m.watches e.call.range = false) ↔
      ∀ r ∈ m.reservations, ∀ a ∈ r.range, ¬ tx.Reaches a := by
  have complete : exchanges.map Exchange.piece =
      plan tx.address tx.data.length tx.streamingWidth tx.byteEnable := course.of_ok.1
  have positive {e : Exchange} (made : e ∈ exchanges) : e.piece.length ≠ 0 :=
    Nat.ne_of_gt (spec_of_mem_plan (complete ▸ List.mem_map_of_mem made)).1
  have inside {e : Exchange} (made : e ∈ exchanges) {a : UInt64} :=
    AddressRange.mem_iff_of_ofSize_eq_ok (course.range_call e made) (positive made) (a := a)
  simp only [reaches_iff nonempty admits, Monitor.watches_eq_false_iff,
    AddressRange.overlaps_eq_false_iff, ← complete, List.mem_map, exists_exists_and_eq_and]
  constructor
  · rintro apart r stands a reserved ⟨e, made, here⟩
    exact apart e made r stands a reserved ((inside made).2 here)
  · rintro free e made r stands a reserved here
    exact free r stands a reserved ⟨e, made, (inside made).1 here⟩

/-! ### Transactions -/

/-- **An admitted transaction is marked if it is plain, windows are granted, it succeeds, and no
reserved address is reached.** -/
theorem marked_iff_of_admits {p : Passage σ} (fresh : tx.response = .incomplete)
    (nonempty : tx.data ≠ []) (moves : tx.command ≠ .ignore) (admits : s.gate.Admits tx)
    (submitted : s.submit T tx = (.ok (), p)) :
    p.tx.directAllowed = true ↔ tx.debug = false ∧ tx.exclusive = false ∧
      s.gate.config.allowDirect = true ∧ p.tx.response = .ok ∧
      ∀ r ∈ s.gate.monitor.reservations, ∀ a ∈ r.range, ¬ tx.Reaches a := by
  rcases exists_course T fresh nonempty moves admits with ⟨-, endless⟩ |
    ⟨range, prepared, p', exchanges, outcome, q, -, preparation, admission, course, finished⟩
  · cases submitted.symm.trans endless
  · rw [submitted] at finished
    cases outcome with
    | error cause => cases finished
    | ok response =>
        obtain rfl := (Prod.mk.inj finished).2
        have admitted := Passage.admitted_of_admission preparation admission
        have hope := Passage.allowed_of_admission preparation admission
        rw [Passage.tx_reward]
        show (q.tx.directAllowed && decide (response = .ok)) = true ↔
          _ ∧ _ ∧ _ ∧ response = .ok ∧ _
        rw [Bool.and_eq_true, decide_eq_true_iff]
        constructor
        · rintro ⟨marked, rfl⟩
          obtain ⟨windows, plain, shared⟩ := hope.1 (course.allowed marked)
          have unmet := ((course.allowed_iff (by rwa [admitted.resembles.debug_eq])).1 marked).2
          rw [admitted.monitor (.inl shared), unwatched_iff nonempty admits course] at unmet
          exact ⟨plain, shared, windows, rfl, unmet⟩
        · rintro ⟨plain, shared, windows, rfl, free⟩
          refine ⟨(course.allowed_iff (by rwa [admitted.resembles.debug_eq])).2
            ⟨hope.2 ⟨windows, plain, shared⟩, ?_⟩, rfl⟩
          rwa [admitted.monitor (.inl shared), unwatched_iff nonempty admits course]

/-- **Every transaction that is answered** is marked on these conditions. -/
theorem marked_iff {p : Passage σ} (submitted : s.submit T tx = (.ok (), p)) :
    p.tx.directAllowed = true ↔ tx.command ≠ .ignore ∧ tx.debug = false ∧ tx.exclusive = false ∧
      s.gate.config.allowDirect = true ∧ p.tx.response = .ok ∧
      ∀ r ∈ s.gate.monitor.reservations, ∀ a ∈ r.range, ¬ tx.Reaches a := by
  rcases submit_cases T s tx with ⟨-, cause, faulty⟩ | ⟨fresh, nonempty, -⟩
  · cases submitted.symm.trans faulty
  · by_cases moves : tx.command = .ignore
    · obtain ⟨after, answered, unmarked⟩ := submit_of_ignore (T := T) (s := s) fresh nonempty moves
      obtain rfl := (Prod.mk.inj (submitted.symm.trans answered)).2
      simp [unmarked, moves]
    · by_cases admits : s.gate.Admits tx
      · exact (marked_iff_of_admits fresh nonempty moves admits submitted).trans
          (and_iff_right moves).symm
      · have refused := submit_of_not_admits (T := T) fresh nonempty moves admits
        obtain rfl := (Prod.mk.inj (submitted.symm.trans refused)).2
        have failed : tx.refused.response ≠ .ok := by
          unfold Transaction.refused
          dsimp only
          split <;> simp
        exact ⟨fun hope => absurd hope Bool.false_ne_true,
          fun ⟨_, _, _, _, succeeds, _⟩ => absurd succeeds failed⟩

/-- Every address that the buffer spans is reached if every byte takes part in one pulse. -/
theorem reaches_of_mem_range {range : AddressRange} (nonempty : tx.data ≠ [])
    (spans : tx.range = .ok range) (unmasked : tx.byteEnable = none)
    (single : tx.width = tx.data.length) {a : UInt64} (inside : a ∈ range) : tx.Reaches a := by
  have positive : tx.data.length ≠ 0 := fun zero => nonempty (List.length_eq_zero_iff.1 zero)
  obtain ⟨low, high⟩ := (AddressRange.mem_iff_of_ofSize_eq_ok spans positive).1 inside
  refine ⟨a.toNat - tx.address.toNat, by omega, fun mask given => ?_, by omega⟩
  rw [unmasked] at given
  cases given

/-- **Which transactions are marked for a window:** plain ones that ask for something, at a gate
that grants windows, if they succeed and no byte of them is reserved.  So a transaction that reaches
a reserved address is never marked, and without a mask and without streaming it is enough that its
range overlaps a reservation.  All this is said of a transaction that is answered; one that is not
costs more than a word can hold, or it waits for ever. -/
theorem directAllowed_iff (T : Target σ) (s : Station σ) (tx : Transaction)
    (fresh : tx.response = .incomplete) (nonempty : tx.data ≠ []) :
    (∃ delivery after t, s.transport T tx = (.ok delivery, after, t) ∧
      (after.directAllowed = true ↔ tx.command ≠ .ignore ∧ tx.debug = false ∧
        tx.exclusive = false ∧ s.gate.config.allowDirect = true ∧ after.response = .ok ∧
        ∀ r ∈ s.gate.monitor.reservations, ∀ a ∈ r.range, ¬ tx.Reaches a) ∧
      (∀ r ∈ s.gate.monitor.reservations, ∀ a ∈ r.range, tx.Reaches a →
        after.directAllowed = false) ∧
      (tx.byteEnable = none → tx.width = tx.data.length → ∀ range, tx.range = .ok range →
        ∀ r ∈ s.gate.monitor.reservations, r.range.overlaps range = true →
          after.directAllowed = false)) ∨
    ((s.transport T tx).1 = .error .overflow ∧
      UInt64.size ≤ s.cost tx (s.submit T tx).2.delivery.accesses) ∨
    ((s.transport T tx).1 = .error .endless ∧ s.Waits tx) := by
  rcases submit_of_fresh T s fresh nonempty with ⟨p, submitted, -⟩ | overran |
    ⟨endless, range, spans, waits⟩
  · have marked := marked_iff submitted
    have reached : ∀ r ∈ s.gate.monitor.reservations, ∀ a ∈ r.range, tx.Reaches a →
        p.tx.directAllowed = false := by
      intro r stands a reserved reaches
      refine Bool.eq_false_iff.2 fun hope => ?_
      obtain ⟨-, -, -, -, -, free⟩ := marked.1 hope
      exact free r stands a reserved reaches
    refine .inl ⟨p.delivery, p.tx, p.station, transport_eq_of_submit submitted, marked, reached, ?_⟩
    intro unmasked single range spans r stands meet
    obtain ⟨a, reserved, inside⟩ := AddressRange.overlaps_iff.1 meet
    exact reached r stands a reserved (reaches_of_mem_range nonempty spans unmasked single inside)
  · have broken : (s.transport T tx).1 = .error .overflow := by
      rw [transport, overran]
      rfl
    exact .inr (.inl ⟨broken, transport_overflow_iff.1 broken⟩)
  · refine .inr (.inr ⟨?_, (prepare_eq_none_iff_waits spans).1 waits⟩)
    rw [transport, endless]
    rfl

/-- A read of two bytes, the second of which is reserved for another. -/
def overlappingRead : Transaction := Transaction.ofData .read 3 [0, 0]

/-- The same read, in which only the first byte takes part. -/
def skippingRead : Transaction := { overlappingRead with byteEnable := some [1, 0] }

/-- **Of two reads over a reservation** the one that leaves the reserved byte out is marked, and the
other is not. -/
theorem exists_marked_beside_reservation :
    ∃ (s : Station Memory) (tx other : Transaction), tx.range = other.range ∧
      s.gate.monitor.reservations ≠ [] ∧
      (s.transport Memory.target tx).2.1.directAllowed = true ∧
      (∀ r ∈ s.gate.monitor.reservations, ∀ a ∈ r.range, ¬ tx.Reaches a) ∧
      (s.transport Memory.target other).2.1.directAllowed = false := by
  have free (tx : Transaction) (shared : tx.exclusive = false)
      (reported : (reservedForOther.transport Memory.target tx).1 ≠ .error .overflow) :
      ¬ (((reservedForOther.transport Memory.target tx).1 = .error .overflow ∧
          UInt64.size ≤ reservedForOther.cost tx
            (reservedForOther.submit Memory.target tx).2.delivery.accesses) ∨
        ((reservedForOther.transport Memory.target tx).1 = .error .endless ∧
          reservedForOther.Waits tx)) := by
    rintro (⟨overran, -⟩ | ⟨-, waits⟩)
    · exact reported overran
    · exact absurd (shared.symm.trans waits.exclusive) Bool.false_ne_true
  obtain ⟨delivery, after, t, passed, marked, -⟩ :=
    (directAllowed_iff Memory.target reservedForOther skippingRead rfl (by decide)).resolve_right
      (free skippingRead rfl (by decide +kernel))
  obtain ⟨delivery', after', t', passed', -, -, overlapping⟩ :=
    (directAllowed_iff Memory.target reservedForOther overlappingRead rfl
      (by decide)).resolve_right (free overlappingRead rfl (by decide +kernel))
  have hope : (reservedForOther.transport Memory.target skippingRead).2.1.directAllowed = true := by
    decide +kernel
  have kept : after.directAllowed = true := by rwa [passed] at hope
  have unmarked := overlapping rfl rfl ⟨3, 4, by decide⟩ rfl ⟨7, ⟨4, 5, by decide⟩⟩
    List.mem_cons_self (by decide)
  exact ⟨reservedForOther, skippingRead, overlappingRead, rfl, by decide, hope,
    (marked.1 kept).2.2.2.2.2, by rw [passed']; exact unmarked⟩

/-- **It is not enough that the range of a transaction overlaps a reservation.** -/
theorem not_forall_unmarked :
    ¬ ∀ (σ : Type) (T : Target σ) (s : Station σ) (tx : Transaction),
      tx.response = .incomplete → tx.data ≠ [] → ∀ range, tx.range = .ok range →
      ∀ r ∈ s.gate.monitor.reservations, r.range.overlaps range = true →
        (s.transport T tx).2.1.directAllowed = false := by
  intro claimed
  have unmarked := claimed Memory Memory.target reservedForOther skippingRead rfl (by decide)
    ⟨3, 4, by decide⟩ rfl ⟨7, ⟨4, 5, by decide⟩⟩ List.mem_cons_self (by decide)
  revert unmarked
  decide +kernel

end Station

end Interconnect
