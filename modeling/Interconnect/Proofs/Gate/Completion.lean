import Interconnect.Proofs.Gate.Cycles

/-!
# How a transaction comes to its end

Ranges are made and slices are cut in the middle of a transfer, but neither can fail there.  So a
transaction that is not faulty from the start is answered, with two exceptions: its cost may grow
beyond what a report can hold, and an exclusive read may wait for a withdrawal that goes round
without an end.

## Main Definitions

* `Station.Completes` — the ways in which a transaction may end

## Main Statements

* `Station.transport_completes` — there are no others
* `Station.not_forall_answered` — not every transaction is answered that is not faulty
-/

namespace Interconnect

universe u

variable {σ : Type u}

namespace Station

/-- **The ways in which a transaction may end,** each with the condition on which it does. -/
structure Completes (T : Target σ) (tx : Transaction) (s : Station σ) : Prop where
  /-- It is faulty exactly if it has been answered before or has no buffer. -/
  faulty : (∃ cause, (s.transport T tx).1 = .error (.fault cause)) ↔
    tx.response ≠ .incomplete ∨ tx.data = []
  /-- Then nothing has happened to anything. -/
  untouched : ∀ cause, (s.transport T tx).1 = .error (.fault cause) →
    (s.transport T tx).2 = (tx, s) ∧ s.calls T tx = []
  /-- No range is missing on the way. -/
  spans : ∀ e, (s.transport T tx).1 ≠ .error (.fault (.range e))
  /-- Nor is a slice. -/
  within : ∀ offset length, (s.transport T tx).1 ≠ .error (.noSlice offset length)
  /-- The report runs over exactly if a word cannot hold the cost of what has been carried out. -/
  overruns : (s.transport T tx).1 = .error .overflow ↔
    UInt64.size ≤ s.cost tx (s.submit T tx).2.delivery.accesses
  /-- It waits for ever exactly if the rules accept it and its withdrawal has no end; it has asked
  for nothing then. -/
  waits : (s.transport T tx).1 = .error .endless ↔
    tx.response = .incomplete ∧ tx.data ≠ [] ∧ s.gate.config.accepts tx = true ∧ s.Waits tx
  /-- Every other transaction is answered. -/
  answered : ∀ delivery, (s.transport T tx).1 = .ok delivery →
    (s.transport T tx).2.1.response ∈ [Response.ok, .addressError, .commandError]
  /-- Every call has a slice as long as its range. -/
  slices : ∀ call ∈ s.calls T tx, call.Takes tx

variable {T : Target σ} {s : Station σ} {tx : Transaction}

/-- What is reported is what becomes of the passage. -/
theorem fst_transport_of_submit {outcome : Except Interruption Unit} {p : Passage σ}
    (h : s.submit T tx = (outcome, p)) :
    (s.transport T tx).1 = outcome.map fun _ => p.delivery := by
  rw [transport, h]

/-- **A faulty transaction is given back as it came,** and its fault is not about a range. -/
theorem completes_of_faulty {cause : Fault} (faulty : tx.response ≠ .incomplete ∨ tx.data = [])
    (broken : s.submit T tx = (.error (.fault cause), ⟨tx, .nothing, s⟩)) : s.Completes T tx := by
  have reported : (s.transport T tx).1 = .error (.fault cause) := fst_transport_of_submit broken
  have uncalled : s.calls T tx = [] := by
    rcases submit_cases T.noting s.recorded tx with ⟨-, cause', noted⟩ | ⟨fresh, nonempty, -⟩
    · rw [calls_eq, noted]
      rfl
    · exact absurd faulty (not_or.2 ⟨not_not_intro fresh, nonempty⟩)
  constructor
  case faulty => exact iff_of_true ⟨cause, reported⟩ faulty
  case untouched =>
    intro _ _
    exact ⟨by rw [transport, broken], uncalled⟩
  case spans =>
    rw [reported]
    rintro e ⟨⟩
    -- the two faults of a transaction that is not looked at any further
    unfold submit at broken
    split at broken
    · cases broken
    · next fresh =>
        rw [if_pos (faulty.resolve_left fresh)] at broken
        cases broken
  case within =>
    intro offset length broken
    cases reported.symm.trans broken
  case overruns => exact transport_overflow_iff
  case waits =>
    refine iff_of_false (fun endless => ?_) ?_
    · cases reported.symm.trans endless
    · rintro ⟨fresh, nonempty, -⟩
      exact absurd faulty (not_or.2 ⟨not_not_intro fresh, nonempty⟩)
  case answered =>
    intro delivery answered
    cases reported.symm.trans answered
  case slices => exact fun _ => takes_of_mem_calls

/-- A transaction that is not faulty is answered, or breaks off for one of two reasons. -/
theorem transport_of_fresh (fresh : tx.response = .incomplete) (nonempty : tx.data ≠ []) :
    (∃ p, s.submit T tx = (.ok (), p) ∧ p.tx.response ≠ .incomplete) ∨
      (s.transport T tx).1 = .error .overflow ∨ (s.transport T tx).1 = .error .endless := by
  rcases submit_of_fresh T s fresh nonempty with answered | overran | ⟨endless, -⟩
  · exact .inl answered
  · exact .inr (.inl (transport_eq_overflow_iff.2 overran))
  · exact .inr (.inr (by rw [transport, endless]; rfl))

/-- It is neither a fault nor a slice that stops it. -/
theorem overflow_or_endless_of_fresh (fresh : tx.response = .incomplete) (nonempty : tx.data ≠ [])
    {cause : Interruption} (reported : (s.transport T tx).1 = .error cause) :
    cause = .overflow ∨ cause = .endless := by
  rcases transport_of_fresh (s := s) (T := T) fresh nonempty with ⟨p, answered, -⟩ | overran |
    endless
  · rw [fst_transport_of_submit answered] at reported
    cases reported
  · exact .inl (Except.error.inj (reported.symm.trans overran))
  · exact .inr (Except.error.inj (reported.symm.trans endless))

/-- **It waits for ever** exactly if the rules accept it and the withdrawal before its read has no
end. -/
theorem transport_endless_iff_of_fresh (fresh : tx.response = .incomplete)
    (nonempty : tx.data ≠ []) :
    (s.transport T tx).1 = .error .endless ↔ s.gate.config.accepts tx = true ∧ s.Waits tx := by
  constructor
  · intro endless
    rcases submit_cases T s tx with ⟨-, cause, faulty⟩ | ⟨-, -, ⟨response, -, -, -, answered⟩ |
      ⟨range, spans, -, accepted, performed⟩⟩
    · rw [fst_transport_of_submit faulty] at endless
      cases endless
    · rw [fst_transport_of_submit answered] at endless
      cases endless
    · refine ⟨accepted, ?_⟩
      rcases submit_of_fresh T s fresh nonempty with ⟨p, answered, -⟩ | overran |
        ⟨-, range, spans, waits⟩
      · rw [fst_transport_of_submit answered] at endless
        cases endless
      · cases (transport_eq_overflow_iff.2 overran).symm.trans endless
      · exact (prepare_eq_none_iff_waits spans).1 waits
  · rintro ⟨accepted, waits⟩
    obtain ⟨range, spans, -⟩ := waits.endless
    have moves : tx.command ≠ .ignore := by
      rw [waits.read]
      decide
    have never : (Passage.entering s tx).perform T range =
        (.error .endless, Passage.entering s tx) := by
      rw [Passage.perform, (prepare_eq_none_iff_waits spans).2 waits]
    rw [fst_transport_of_submit
      ((submit_eq_perform T fresh nonempty moves spans accepted).trans never)]
    rfl

/-- **A transaction that is not faulty is answered,** or breaks off for one of two reasons. -/
theorem completes_of_fresh (fresh : tx.response = .incomplete) (nonempty : tx.data ≠ []) :
    s.Completes T tx := by
  have other {cause : Interruption} (reported : (s.transport T tx).1 = .error cause) :=
    overflow_or_endless_of_fresh fresh nonempty reported
  constructor
  case faulty =>
    refine iff_of_false ?_ (not_or.2 ⟨not_not_intro fresh, nonempty⟩)
    rintro ⟨cause, reported⟩
    rcases other reported with h | h <;> cases h
  case untouched =>
    intro cause reported
    rcases other reported with h | h <;> cases h
  case spans =>
    intro e reported
    rcases other reported with h | h <;> cases h
  case within =>
    intro offset length reported
    rcases other reported with h | h <;> cases h
  case overruns => exact transport_overflow_iff
  case waits =>
    rw [transport_endless_iff_of_fresh fresh nonempty]
    exact ⟨fun waits => ⟨fresh, nonempty, waits⟩, fun ⟨_, _, waits⟩ => waits⟩
  case answered =>
    intro delivery reported
    rcases transport_of_fresh fresh nonempty with ⟨p, answered, settled⟩ | overran | endless
    · rw [transport_eq_of_submit answered]
      cases response : p.tx.response with
      | incomplete => exact absurd response settled
      | ok => simp
      | addressError => simp
      | commandError => simp
    · cases reported.symm.trans overran
    · cases reported.symm.trans endless
  case slices => exact fun _ => takes_of_mem_calls

/-- **A transaction comes to its end** in one of a few ways.  It is a fault exactly if it has been
answered before or has no buffer, and then nothing has happened to anything.  Any other is answered,
unless it costs more than a word can hold or waits for ever: no range and no slice is missing while
it is under way, whatever the target does. -/
theorem transport_completes (T : Target σ) (tx : Transaction) (s : Station σ) :
    s.Completes T tx := by
  rcases submit_cases T s tx with ⟨faulty, cause, broken⟩ | ⟨fresh, nonempty, -⟩
  · exact completes_of_faulty faulty broken
  · exact completes_of_fresh fresh nonempty

/-- A read of two pulses from the same two addresses. -/
def doubleRead : Transaction :=
  { Transaction.ofData .read 0 [0, 0, 0, 0] with streamingWidth := some 2 }

/-- A gate before a sink at which a read costs half as many cycles as there are words. -/
def slowPort : Station Sink :=
  { quietPort with gate := { quietPort.gate with
      config := { quietConfig with readLatency := steepConfig.writeLatency } } }

/-- **Not every transaction is answered that is not faulty:** a sink answers two pulses with
success, and then there is no response to them. -/
theorem not_forall_answered :
    ¬ ∀ (σ : Type) (T : Target σ) (s : Station σ) (tx : Transaction),
      ¬ (tx.response ≠ .incomplete ∨ tx.data = []) → tx.exclusive = false →
      ∃ delivery after t, s.transport T tx = (.ok delivery, after, t) ∧
        after.response ≠ .incomplete := by
  intro claimed
  obtain ⟨delivery, after, t, passed, -⟩ :=
    claimed Sink Sink.target slowPort doubleRead (by decide) rfl
  have broken : (slowPort.transport Sink.target doubleRead).1 = .error .overflow := by decide
  rw [passed] at broken
  cases broken

end Station

end Interconnect
