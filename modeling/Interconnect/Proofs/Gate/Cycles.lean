import Interconnect.Proofs.Gate.Burst

/-!
# What a transaction costs

Every piece that is carried out costs the latency of its command, and a debug transaction costs
nothing.  The cost is added up in two places: on the clock of the gate, which stops at the greatest
word, and in the report, which a greater sum breaks off.  Where there is a report, the two agree as
long as the clock has not stopped.

## Main Definitions

* `Station.Charges` — a transaction is reported and charged at its cost

## Main Statements

* `Station.clock_submit` — what a transaction is charged
* `Station.transport_charges` — every transaction is charged at its cost
* `Station.not_forall_cycles_eq_min` — the report does not stop at the greatest word

The cost of a transfer is told by its course (`Passage.Course.overflow_iff`,
`Passage.Course.cycles_eq`, `Passage.Course.clock_eq`).
-/

namespace Interconnect

universe u

variable {σ : Type u}

/-- An admission is free. -/
theorem Passage.clock_of_admission {s : Station σ} {tx : Transaction} {range : AddressRange}
    {prepared p : Passage σ} (preparation : (entering s tx).prepare range = some prepared)
    (h : prepared.admission = .ok (some p)) : p.station.gate.clock = s.gate.clock := by
  have kept : prepared.station.gate.clock = s.gate.clock := by
    rcases prepare_cases preparation with ⟨-, -, count, t, ended, rfl⟩ | ⟨-, allowed, rfl⟩
    · obtain ⟨net, rfl, -⟩ := Station.exists_of_withdraw ended
      rfl
    · rfl
  rcases admission_cases h with ⟨-, rfl⟩ | ⟨-, -, pulse, monitor, -, -, rfl⟩
  · exact kept
  · exact kept

namespace Station

variable {T : Target σ} {s t : Station σ} {tx : Transaction}

/-- **The clock is charged for the pieces that are carried out,** whether or not they are reported,
and stops at the greatest word. -/
theorem clock_submit (T : Target σ) (s : Station σ) (tx : Transaction) :
    (s.submit T tx).2.station.gate.clock.cycles.toNat =
      min (s.gate.clock.cycles.toNat + s.cost tx (s.submit T tx).2.delivery.accesses)
        (UInt64.size - 1) := by
  rcases unmoved_or_course T s tx with ⟨-, undelivered, same⟩ |
    ⟨range, prepared, p, exchanges, outcome, q, preparation, admission, course, submitted⟩
  · have := s.gate.clock.cycles.toNat_lt
    rw [undelivered, same, Delivery.nothing, cost, Nat.zero_mul, UInt64.size]
    omega
  · have admitted := Passage.admitted_of_admission preparation admission
    have clock := course.clock_eq
    rw [cost_congr admitted.config admitted.resembles,
      Passage.clock_of_admission preparation admission] at clock
    rw [submitted, Passage.gate_finish, Passage.accesses_finish, admitted.accesses_eq course, clock]

/-- **A report that is given is the cost of the pieces.** -/
theorem cycles_submit (fits : (s.submit T tx).1 ≠ .error .overflow) :
    (s.submit T tx).2.delivery.cycles.toNat =
      s.cost tx (s.submit T tx).2.delivery.accesses := by
  rcases unmoved_or_course T s tx with ⟨-, undelivered, -⟩ |
    ⟨range, prepared, p, exchanges, outcome, q, preparation, admission, course, submitted⟩
  · rw [undelivered, Delivery.nothing, cost, Nat.zero_mul]
    rfl
  · rw [submitted, Passage.fst_finish] at fits
    have admitted := Passage.admitted_of_admission preparation admission
    have cycles := course.cycles_eq (mt map_eq_error_iff.2 fits)
    rw [submitted, Passage.cycles_finish, Passage.accesses_finish, admitted.accesses_eq course,
      cycles, admitted.cost_eq]

/-- **A transaction is reported and charged at the cost of the pieces that succeeded.** -/
structure Charges (s : Station σ) (tx : Transaction) (accesses : Nat)
    (report : Except Interruption Delivery) (t : Station σ) : Prop where
  /-- The clock is charged the cost, and stops at the greatest word. -/
  charged : t.gate.clock.cycles.toNat =
    min (s.gate.clock.cycles.toNat + s.cost tx accesses) (UInt64.size - 1)
  /-- There is no report exactly if a word cannot hold the cost. -/
  overruns : report = .error .overflow ↔ UInt64.size ≤ s.cost tx accesses
  /-- A report is the cost. -/
  reported : ∀ delivery, report = .ok delivery →
    delivery.accesses = accesses ∧ delivery.cycles.toNat = s.cost tx accesses
  /-- A clock that does not stop moves on by the report. -/
  agrees : ∀ delivery, report = .ok delivery →
    s.gate.clock.cycles.toNat + s.cost tx accesses < UInt64.size →
      t.gate.clock.cycles.toNat = s.gate.clock.cycles.toNat + delivery.cycles.toNat

/-- **Every transaction is charged at its cost.**  The pieces that the target carries out are
counted, and they cost their latency each, on the clock and in the report.  The clock stops at the
greatest word, and the report breaks off where a word cannot hold the cost.  A report that is given
is the exact cost, and it is what the clock has moved on by if the clock has not stopped. -/
theorem transport_charges (T : Target σ) (s : Station σ) (tx : Transaction)
    (fresh : tx.response = .incomplete) (nonempty : tx.data ≠ []) :
    ∃ accesses, s.Charges tx accesses (s.transport T tx).1 (s.transport T tx).2.2 ∧
      (tx.command ≠ .ignore → s.gate.Admits tx → ¬ s.Waits tx →
        ∃ exchanges, s.Follows T tx exchanges (s.transport T tx).1 (s.transport T tx).2.1
          (s.transport T tx).2.2 ∧ accesses = exchanges.countP fun e => e.response = .ok) := by
  refine ⟨(s.submit T tx).2.delivery.accesses, ?_, fun moves admits ends => ?_⟩
  · have charged := clock_submit T s tx
    have reported (delivery : Delivery) (h : (s.transport T tx).1 = .ok delivery) :
        (s.submit T tx).2.delivery = delivery ∧ (s.submit T tx).1 ≠ .error .overflow := by
      obtain ⟨answered, passed, same⟩ := map_eq_ok_iff.1 h
      exact ⟨same, by rw [passed]; exact nofun⟩
    refine ⟨charged, transport_overflow_iff, fun delivery h => ?_, fun delivery h runs => ?_⟩
    · obtain ⟨rfl, fits⟩ := reported delivery h
      exact ⟨rfl, cycles_submit fits⟩
    · obtain ⟨rfl, fits⟩ := reported delivery h
      rw [cycles_submit fits, show (s.transport T tx).2.2 = (s.submit T tx).2.station from rfl,
        charged]
      omega
  · obtain ⟨exchanges, report, after, t, passed, follows⟩ :=
      exists_follows (s := s) T fresh nonempty moves admits ends
    rw [passed]
    exact ⟨exchanges, follows, follows.counted⟩

/-- **A write of two pulses** at a gate where each costs three cycles: six are reported, and the
clock moves on by six. -/
theorem exists_charges_of_two_pulses :
    ∃ (s : Station Sink) (tx : Transaction) (delivery : Delivery) (after : Transaction)
      (t : Station Sink), s.transport Sink.target tx = (.ok delivery, after, t) ∧
        s.Charges tx 2 (.ok delivery) t ∧ delivery.cycles = 6 ∧ t.gate.clock.cycles = 6 := by
  obtain ⟨accesses, charges, -⟩ :=
    transport_charges Sink.target quietPort (burst 0x40) rfl (by decide)
  have report : (quietPort.transport Sink.target (burst 0x40)).1 = .ok ⟨4, 2, 6, none⟩ := by decide
  have clock : (quietPort.transport Sink.target (burst 0x40)).2.2.gate.clock.cycles = 6 := by
    decide
  rw [report] at charges
  obtain ⟨rfl, -⟩ := charges.reported _ rfl
  exact ⟨quietPort, burst 0x40, _, _, _, Prod.ext report rfl, charges, rfl, clock⟩

/-- A gate before a sink at which a write costs half as many cycles as there are words. -/
def steepPort : Station Sink :=
  { quietPort with gate := { quietPort.gate with
      config := { quietConfig with writeLatency := steepConfig.writeLatency } } }

/-- **The report does not stop at the greatest word.**  The clock does after two pulses whose cost a
word cannot hold, and there is no report of them. -/
theorem not_forall_cycles_eq_min :
    ¬ ∀ (σ : Type) (T : Target σ) (s : Station σ) (tx : Transaction),
      tx.response = .incomplete → tx.data ≠ [] → tx.command ≠ .ignore → s.gate.Admits tx →
      tx.exclusive = false →
      ∃ delivery after t, s.transport T tx = (.ok delivery, after, t) ∧
        delivery.cycles.toNat = min (s.cost tx delivery.accesses) (UInt64.size - 1) := by
  intro claimed
  have admits : steepPort.gate.Admits (burst 0x40) :=
    Gate.admits_iff.2 ⟨by decide, by decide, nofun⟩
  obtain ⟨delivery, after, t, passed, -⟩ :=
    claimed Sink Sink.target steepPort (burst 0x40) rfl (by decide) (by decide) admits rfl
  have broken : (steepPort.transport Sink.target (burst 0x40)).1 = .error .overflow := by decide
  rw [passed] at broken
  cases broken

end Station

end Interconnect
