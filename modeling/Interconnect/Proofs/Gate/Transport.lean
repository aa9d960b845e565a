import Interconnect.Proofs.Gate.Contiguous
import Interconnect.Proofs.Transfer.Patch

/-!
# When a transfer breaks off

A gate makes ranges and cuts slices while a transfer is under way, and either could fail after the
target has been asked.  It turns out that neither ever does.  What may break a transaction off is
that its cost outgrows the report, or that the withdrawal that it waits for never ends; everything
else is a fault from the start, or it is answered.

## Main Definitions

* `Piece.Fits` — a piece that has a range and a slice

## Main Statements

* `fits_of_mem_plan` — every piece of a transfer fits
* `Passage.carryAll_of_fits` — pieces that fit are answered, unless the report runs over
* `Station.submit_of_fresh` — so is a fresh transaction, unless it waits for ever
* `Station.exists_submit` — one that is made in one piece and is not exclusive is always answered
-/

namespace Interconnect

universe u

variable {σ : Type u}

/-! ### Every piece fits -/

/-- **A piece fits a buffer:** it is not empty, its addresses exist, and its slice is there. -/
structure Piece.Fits (piece : Piece) (length : Nat) : Prop where
  /-- It moves some byte. -/
  positive : 0 < piece.length
  /-- Its bytes are in the buffer. -/
  within : piece.offset + piece.length ≤ length
  /-- Its addresses do not run past the last. -/
  spans : ∃ range, AddressRange.ofSize piece.address piece.length = .ok range

/-- **Every piece of a transfer whose buffer spans a range fits the buffer.**  The addresses of a
pulse are the first of those that the buffer spans. -/
theorem fits_of_mem_plan {address : UInt64} {length : Nat} {streamingWidth : Option Nat}
    {byteEnable : Option Bytes} {range : AddressRange}
    (spans : AddressRange.ofSize address length = .ok range) {piece : Piece}
    (h : piece ∈ plan address length streamingWidth byteEnable) : piece.Fits length := by
  obtain ⟨positive, pulse, whole, -⟩ := spec_of_mem_plan h
  have short := pulseWidth_le length streamingWidth
  have within : piece.offset + piece.length ≤ length :=
    Nat.le_trans whole (Nat.div_mul_le_self length _)
  obtain ⟨fits, -⟩ := (AddressRange.ofSize_eq_ok_iff (by omega)).1 spans
  have first := toNat_address_of_mem_plan (by omega) h
  refine ⟨positive, within, ?_⟩
  cases made : AddressRange.ofSize piece.address piece.length with
  | ok range => exact ⟨range, rfl⟩
  | error e =>
      have := ((AddressRange.ofSize_eq_error_iff (Nat.ne_of_gt positive)).1 made).1
      omega

theorem Transaction.plan_fits {tx : Transaction} {range : AddressRange}
    (spans : tx.range = .ok range) :
    ∀ piece ∈ plan tx.address tx.data.length tx.streamingWidth tx.byteEnable,
      piece.Fits tx.data.length :=
  fun _ => fits_of_mem_plan spans

/-! ### What may break off -/

namespace Passage

variable {T : Target σ} {p : Passage σ} {range : AddressRange}

/-- **A piece that fits is answered,** unless it costs more than the report can still hold. -/
theorem carry_of_fits {piece : Piece} (fit : piece.Fits p.tx.data.length) :
    (∃ response, response ≠ .incomplete ∧ (p.carry T piece).1 = .ok response) ∨
      ((p.carry T piece).1 = .error .overflow ∧ p.delivery.cycles ≠ 0) := by
  obtain ⟨-, within, range, made⟩ := fit
  rw [← (p.pending_watch range).resembles.length_eq] at within
  have same : ((p.watch range).ask T range piece).2.delivery = p.delivery := by
    rw [delivery_ask, delivery_watch]
  simp only [carry, made, Nat.not_lt.2 within, if_false]
  generalize (p.watch range).ask T range piece = answer at same ⊢
  obtain ⟨response, q⟩ := answer
  cases response with
  | ok =>
      by_cases free : p.delivery.cycles = 0
      · exact .inl ⟨.ok, by decide, fst_count_of_free piece (by rw [same, free])⟩
      · have counted := fst_count q piece
        split at counted
        · exact .inl ⟨.ok, by decide, counted⟩
        · exact .inr ⟨counted, free⟩
  | incomplete => exact .inl ⟨.addressError, by decide, rfl⟩
  | addressError => exact .inl ⟨.addressError, by decide, rfl⟩
  | commandError => exact .inl ⟨.commandError, by decide, rfl⟩

/-- **Pieces that fit are answered,** unless the report runs over on the way. -/
theorem carryAll_of_fits {pieces : List Piece}
    (fit : ∀ piece ∈ pieces, piece.Fits p.tx.data.length) :
    (∃ response, response ≠ .incomplete ∧ (p.carryAll T pieces).1 = .ok response) ∨
      (p.carryAll T pieces).1 = .error .overflow := by
  induction pieces generalizing p with
  | nil => exact .inl ⟨.ok, by decide, rfl⟩
  | cons piece rest ih =>
      have first := carry_of_fits (T := T) (fit piece List.mem_cons_self)
      rw [carryAll_cons]
      split
      · have same := p.resembles_carry (T := T) piece
        exact ih fun other mem => same.length_eq ▸ fit other (List.mem_cons_of_mem _ mem)
      · exact first.imp id And.left

/-- A pulse of an accepted transaction has a range: it is no longer than the buffer. -/
theorem exists_pulse {config : GateConfig} {tx : Transaction} (accepted : config.accepts tx = true)
    (spans : tx.range = .ok range) (nonempty : tx.data ≠ []) :
    ∃ pulse, AddressRange.ofSize tx.address tx.width = .ok pulse := by
  obtain ⟨positive, short⟩ := width_of_accepts accepted nonempty
  have length : tx.data.length ≠ 0 := by omega
  obtain ⟨fits, -⟩ := (AddressRange.ofSize_eq_ok_iff length).1 spans
  cases made : AddressRange.ofSize tx.address tx.width with
  | ok pulse => exact ⟨pulse, rfl⟩
  | error e =>
      have := ((AddressRange.ofSize_eq_error_iff positive).1 made).1
      omega

/-- So the monitor has its say. -/
theorem exists_admission (accepted : p.station.gate.config.accepts p.tx = true)
    (spans : p.tx.range = .ok range) (nonempty : p.tx.data ≠ []) :
    ∃ verdict, p.admission = .ok verdict := by
  obtain ⟨pulse, made⟩ := exists_pulse accepted spans nonempty
  unfold admission
  rw [made]
  split
  · exact ⟨_, rfl⟩
  · exact ⟨_, rfl⟩

/-- An admitted transaction resembles what it was. -/
theorem resembles_of_admission {q : Passage σ} (h : p.admission = .ok (some q)) :
    p.tx.Resembles q.tx := by
  rcases admission_cases h with ⟨-, rfl⟩ | ⟨-, -, pulse, monitor, -, -, rfl⟩
  · exact .refl q.tx
  · exact .refl p.tx

/-- **An accepted transaction is answered,** unless the report runs over or a withdrawal never
ends. -/
theorem perform_of_accepts (accepted : p.station.gate.config.accepts p.tx = true)
    (spans : p.tx.range = .ok range) (nonempty : p.tx.data ≠ []) :
    (∃ after, p.perform T range = (.ok (), after) ∧ after.tx.response ≠ .incomplete) ∨
      (p.perform T range).1 = .error .overflow ∨
      (p.prepare range = none ∧ p.perform T range = (.error .endless, p)) := by
  rcases perform_cases T p range with endless | ⟨prepared, preparation, outcomes⟩
  · exact .inr (.inr endless)
  · have prepares := (pending_prepare preparation).1
    rcases outcomes with ⟨e, unexamined, -⟩ | ⟨-, refused⟩ | ⟨admitted, outcome, carried, admission,
      moved, ends⟩
    · -- a pulse has a range, so the monitor has its say
      have accepted' : prepared.station.gate.config.accepts prepared.tx = true := by
        rcases prepare_cases preparation with ⟨-, -, count, t, ended, rfl⟩ | ⟨-, allowed, rfl⟩
        · obtain ⟨net, rfl, -⟩ := Station.exists_of_withdraw ended
          exact accepted
        · exact accepted
      obtain ⟨verdict, examined⟩ := exists_admission accepted' (prepares.range_eq.trans spans)
        (prepares.data_eq ▸ nonempty)
      rw [examined] at unexamined
      cases unexamined
    · exact .inl ⟨_, refused, nofun⟩
    · have same := prepares.resembles.trans (resembles_of_admission admission)
      have spans' : admitted.tx.range = .ok range := same.range_eq.trans spans
      have after := resembles_carryAll (T := T) (plan admitted.tx.address admitted.tx.data.length
        admitted.tx.streamingWidth admitted.tx.byteEnable) admitted
      have ended := carryAll_of_fits (T := T) (Transaction.plan_fits spans')
      rw [moved] at after ended
      rcases ends with ⟨cause, rfl, broken⟩ | ⟨response, rfl, concluded⟩
      · rcases ended with ⟨response, -, answered⟩ | overran
        · cases answered
        · cases overran
          exact .inr (.inl (by rw [broken]))
      · have whole : (carried.answer response).tx.range = .ok range :=
          after.range_eq.trans spans'
        refine .inl ⟨_, concluded.trans (conclude_eq whole), ?_⟩
        rw [tx_reward]
        rcases ended with ⟨response', settled, answered⟩ | overran
        · cases answered
          exact settled
        · cases overran

/-- A transfer in one piece is always answered. -/
theorem perform_ne_overflow (contiguous : p.tx.Contiguous) (nonempty : p.tx.data ≠ [])
    (spans : p.tx.range = .ok range) (untouched : p.delivery = .nothing) :
    (p.perform T range).1 ≠ .error .overflow := by
  rcases perform_cases T p range with ⟨-, endless⟩ | ⟨prepared, preparation, outcomes⟩
  · simp [endless]
  · have prepares := (pending_prepare preparation).1
    rcases outcomes with ⟨e, -, broken⟩ | ⟨-, refused⟩ | ⟨admitted, outcome, carried, admission,
      moved, ends⟩
    · simp [broken]
    · simp [refused]
    · have same := prepares.resembles.trans (resembles_of_admission admission)
      have spans' : admitted.tx.range = .ok range := same.range_eq.trans spans
      have free : admitted.delivery.cycles = 0 := by
        rw [delivery_of_admission admission, delivery_of_prepare preparation, untouched]
        rfl
      rw [same.plan_eq, contiguous.plan_eq nonempty, carryAll_singleton] at moved
      rcases ends with ⟨cause, rfl, broken⟩ | ⟨response, rfl, concluded⟩
      · have fit : (⟨p.tx.address, 0, p.tx.data.length⟩ : Piece).Fits admitted.tx.data.length := by
          refine Transaction.plan_fits spans' _ ?_
          rw [same.plan_eq, contiguous.plan_eq nonempty]
          exact List.mem_singleton.2 rfl
        have ended := carry_of_fits (T := T) (p := admitted) fit
        rw [moved] at ended
        rcases ended with ⟨response, -, answered⟩ | ⟨-, charged⟩
        · cases answered
        · exact absurd free charged
      · have whole : (carried.answer response).tx.range = .ok range := by
          have after := resembles_carry (T := T) admitted ⟨p.tx.address, 0, p.tx.data.length⟩
          rw [moved] at after
          exact after.range_eq.trans spans'
        simp [concluded, conclude_eq whole]

end Passage

namespace Station

variable {T : Target σ} {s : Station σ} {tx : Transaction}

/-- **A transaction that is fresh and has a buffer is answered,** unless the report runs over or it
is an exclusive read that waits for ever. -/
theorem submit_of_fresh (T : Target σ) (s : Station σ) (fresh : tx.response = .incomplete)
    (nonempty : tx.data ≠ []) :
    (∃ p, s.submit T tx = (.ok (), p) ∧ p.tx.response ≠ .incomplete) ∨
      (s.submit T tx).1 = .error .overflow ∨
      ((s.submit T tx).1 = .error .endless ∧
        ∃ range, tx.range = .ok range ∧ (Passage.entering s tx).prepare range = none) := by
  rcases submit_cases T s tx with ⟨faulty, -⟩ | ⟨-, -, ⟨response, settled, -, -, answered⟩ |
    ⟨range, spans, -, accepted, performed⟩⟩
  · exact absurd faulty (not_or.2 ⟨not_not_intro fresh, nonempty⟩)
  · exact .inl ⟨_, answered, settled⟩
  · rw [performed]
    rcases Passage.perform_of_accepts (T := T) (p := Passage.entering s tx) accepted spans nonempty
      with passed | overran | ⟨waits, endless⟩
    · exact .inl passed
    · exact .inr (.inl overran)
    · exact .inr (.inr ⟨by rw [endless], range, spans, waits⟩)

/-- **A transaction in one piece that is not exclusive is always answered,** if it is fresh and has
a buffer. -/
theorem exists_submit (T : Target σ) (s : Station σ) (fresh : tx.response = .incomplete)
    (nonempty : tx.data ≠ []) (contiguous : tx.Contiguous) (shared : tx.exclusive = false) :
    ∃ p, s.submit T tx = (.ok (), p) ∧ p.tx.response ≠ .incomplete := by
  rcases submit_of_fresh T s fresh nonempty with answered | overran | ⟨-, range, -, waits⟩
  · exact answered
  · rcases submit_cases T s tx with ⟨-, cause, faulty⟩ | ⟨-, -, ⟨response, -, -, -, answered⟩ |
      ⟨range, spans, -, -, performed⟩⟩
    · simp [faulty] at overran
    · simp [answered] at overran
    · rw [performed] at overran
      exact absurd overran (Passage.perform_ne_overflow (p := Passage.entering s tx)
        ⟨contiguous.unmasked, contiguous.steady⟩ nonempty spans rfl)
  · obtain ⟨-, -, exclusive, -⟩ := Passage.prepare_eq_none_iff.1 waits
    exact absurd (shared.symm.trans exclusive) Bool.false_ne_true

/-- The report on a transaction that is answered. -/
theorem transport_eq_of_submit {p : Passage σ} (h : s.submit T tx = (.ok (), p)) :
    s.transport T tx = (.ok p.delivery, p.tx, p.station) := by
  rw [transport, h]
  rfl

end Station

end Interconnect
