import Interconnect.Proofs.Gate.Course
import Interconnect.Proofs.Withdrawal.Circles

/-!
# What a gate reports

A transaction that a gate admits follows its plan until a piece fails, and both the response and the
report tell how far it has come.  There are two exceptions.  An exclusive read may wait for ever for
its windows to be withdrawn, and a transfer breaks off where its cost is more than a report can
hold.

## Main Definitions

* `Passage.Admitted` — a transaction between its admission and its first piece
* `Passage.finish` — what follows the last piece
* `Station.Waits` — an exclusive read that waits for ever
* `Station.Follows` — a transaction has followed its plan and is reported as it went

## Main Statements

* `Station.exists_course` — a transaction that is admitted has a course
* `Station.follows_of_course` — which is what is reported and left behind
* `Station.follows_plan` — so it follows its plan
-/

namespace Interconnect

universe u

variable {σ : Type u}

namespace Passage

variable {T : Target σ} {p : Passage σ} {range : AddressRange}

/-! ### Before the first piece -/

/-- **A transaction that has been admitted** is the one that came to the gate.  Nothing has been
asked of the target, and only an exclusive transaction has changed the reservations. -/
structure Admitted (s : Station σ) (tx : Transaction) (p : Passage σ) : Prop where
  /-- The transaction asks for the same. -/
  same : ∃ allowed, p.tx = { tx with directAllowed := allowed }
  /-- Nothing has been delivered. -/
  delivery : p.delivery = .nothing
  /-- The target has not been asked. -/
  world : p.station.world = s.world
  /-- The rules are those of the gate. -/
  config : p.station.gate.config = s.gate.config
  /-- The reservations are those of the gate. -/
  monitor : tx.exclusive = false ∨ tx.debug = true → p.station.gate.monitor = s.gate.monitor
  /-- Only a plain transaction may hope for a window, and not at every gate. -/
  allowed : p.tx.directAllowed = true →
    s.gate.config.allowDirect = true ∧ tx.debug = false ∧ tx.exclusive = false

theorem Admitted.resembles {s : Station σ} {tx : Transaction} (h : p.Admitted s tx) :
    tx.Resembles p.tx := by
  obtain ⟨allowed, same⟩ := h.same
  rw [same]
  exact ⟨rfl, rfl⟩

theorem Admitted.data_eq {s : Station σ} {tx : Transaction} (h : p.Admitted s tx) :
    p.tx.data = tx.data := by
  obtain ⟨allowed, same⟩ := h.same
  rw [same]

/-- What the pieces add to the report is all that it will hold. -/
theorem Admitted.cost_eq {s : Station σ} {tx : Transaction} (h : p.Admitted s tx)
    (accesses : Nat) :
    p.delivery.cycles.toNat + p.station.cost p.tx accesses = s.cost tx accesses := by
  rw [h.delivery, Station.cost_congr h.config h.resembles]
  exact Nat.zero_add _

theorem Admitted.accesses_eq {s : Station σ} {tx : Transaction} (h : p.Admitted s tx)
    {pieces : List Piece} {exchanges : List Exchange} {outcome : Except Interruption Response}
    {q : Passage σ} (course : Course T pieces p exchanges outcome q) :
    q.delivery.accesses = exchanges.countP fun e => e.response = .ok := by
  rw [course.accesses_eq, h.delivery]
  exact Nat.zero_add _

theorem config_of_prepare {prepared : Passage σ} (h : p.prepare range = some prepared) :
    prepared.station.gate.config = p.station.gate.config := by
  rcases prepare_cases h with ⟨-, -, count, t, ended, rfl⟩ | ⟨-, allowed, rfl⟩
  · obtain ⟨net, rfl, -⟩ := Station.exists_of_withdraw ended
    rfl
  · rfl

theorem allowed_of_prepare {prepared : Passage σ} (h : p.prepare range = some prepared)
    (unallowed : p.tx.directAllowed = false) (allowed : prepared.tx.directAllowed = true) :
    p.station.gate.config.allowDirect = true ∧ p.tx.debug = false ∧ p.tx.exclusive = false := by
  unfold prepare at h
  split at h
  · cases h
    exact absurd (unallowed.symm.trans allowed) Bool.false_ne_true
  · next candidate =>
      split at h
      · split at h
        · obtain ⟨outcome, -, rfl⟩ := Option.map_eq_some_iff.1 h
          exact absurd (unallowed.symm.trans allowed) Bool.false_ne_true
        · cases h
          exact absurd (unallowed.symm.trans allowed) Bool.false_ne_true
      · next shared =>
          simp only [Bool.or_eq_true, Bool.not_eq_true', not_or, Bool.not_eq_false,
            Bool.not_eq_true] at candidate shared
          exact ⟨candidate.2, candidate.1, shared⟩

theorem admitted_of_admission {s : Station σ} {tx : Transaction} {prepared : Passage σ}
    (preparation : (entering s tx).prepare range = some prepared)
    (h : prepared.admission = .ok (some p)) : p.Admitted s tx := by
  obtain ⟨pending, monitor⟩ := pending_prepare preparation
  have config := config_of_prepare preparation
  have hope : prepared.tx.directAllowed = true → _ := allowed_of_prepare preparation rfl
  obtain ⟨allowed, same⟩ := pending.tx
  rcases admission_cases h with ⟨-, rfl⟩ | ⟨exclusive, plain, pulse, reserved, -, -, rfl⟩
  · exact ⟨⟨allowed, same⟩, pending.delivery, pending.world, config, fun _ => monitor, hope⟩
  · refine ⟨⟨allowed, same⟩, pending.delivery, pending.world, config, fun unseen => ?_, hope⟩
    rw [same] at exclusive plain
    rcases unseen with shared | debug
    · exact absurd (shared.symm.trans exclusive) Bool.false_ne_true
    · exact absurd (plain.symm.trans debug) Bool.false_ne_true

/-- **The monitor refuses only an exclusive write without a reservation.** -/
theorem unreserved_of_admission (accepted : p.station.gate.config.accepts p.tx = true)
    (nonempty : p.tx.data ≠ []) (h : p.admission = .ok none) :
    p.tx.command = .write ∧ p.tx.exclusive = true ∧ p.tx.debug = false ∧
      ¬ p.station.gate.monitor.ReservesFor p.tx := by
  unfold admission at h
  split at h
  · next examined =>
      rw [Bool.and_eq_true, Bool.not_eq_true'] at examined
      obtain ⟨pulse, made, verdict⟩ := map_eq_ok_iff.1 h
      have refused := Monitor.apply_eq_none_iff.1 (Option.map_eq_none_iff.1 verdict)
      rw [Monitor.permits, Bool.or_eq_false_iff] at refused
      obtain ⟨exclusive, unheld⟩ := refused
      refine ⟨by simpa using exclusive, examined.1, examined.2, ?_⟩
      rw [← Monitor.holds_pulse_iff made (width_of_accepts accepted nonempty).1]
      exact Bool.eq_false_iff.1 unheld
  · cases h

/-! ### After the last piece -/

/-- A reward adds a window to the report. -/
theorem delivery_reward (p : Passage σ) (range : AddressRange) :
    (p.reward T range).delivery =
      { p.delivery with grant := (p.reward T range).delivery.grant } := by
  rcases reward_cases (T := T) p range with ⟨-, kept⟩ | ⟨-, rewarded⟩
  · rw [kept]
  · rw [rewarded]

@[simp] theorem gate_reward (p : Passage σ) (range : AddressRange) :
    (p.reward T range).station.gate = p.station.gate := by
  rcases reward_cases (T := T) p range with ⟨-, kept⟩ | ⟨-, rewarded⟩
  · rw [kept]
  · rw [rewarded]
    exact Station.gate_grant T _ _

/-- **At most one window is asked for,** and only where the transaction qualifies. -/
theorem calls_reward (p : Passage (List Target.Call × σ)) (range : AddressRange) :
    (p.reward T.noting range).station.world.calls = p.station.world.calls ∨
      p.tx.directAllowed = true ∧ ∃ asked attributes,
        (p.reward T.noting range).station.world.calls =
          p.station.world.calls ++ [.window asked attributes] := by
  rcases reward_cases (T := T.noting) p range with ⟨-, kept⟩ | ⟨allowed, rewarded⟩
  · exact .inl (by rw [kept])
  · rw [rewarded]
    rcases Station.world_grant T.noting ⟨range, p.tx.command, p.tx.owner, p.tx.exclusive⟩
      p.station with unasked | asked
    · exact .inl (congrArg World.calls unasked)
    · refine .inr ⟨allowed, range, p.station.attributes p.tx.owner false p.tx.exclusive, ?_⟩
      rw [asked]
      rfl

/-- **What follows the last piece:** a transfer that has been answered may be rewarded, and one that
has broken off is left as it is. -/
def finish (T : Target σ) (range : AddressRange) (outcome : Except Interruption Response)
    (q : Passage σ) : Except Interruption Unit × Passage σ :=
  match outcome with
  | .ok response => (.ok (), (q.answer response).reward T range)
  | .error cause => (.error cause, q)

@[simp] theorem finish_ok (q : Passage σ) (response : Response) :
    q.finish T range (.ok response) = (.ok (), (q.answer response).reward T range) := rfl

@[simp] theorem finish_error (q : Passage σ) (cause : Interruption) :
    q.finish T range (.error cause) = (.error cause, q) := rfl

/-- What is reported of an answer is whether there was one. -/
theorem fst_finish (q : Passage σ) (outcome : Except Interruption Response) :
    (q.finish T range outcome).1 = outcome.map fun _ => () := by
  cases outcome <;> rfl

@[simp] theorem data_finish (q : Passage σ) (outcome : Except Interruption Response) :
    (q.finish T range outcome).2.tx.data = q.tx.data := by
  cases outcome with
  | ok response =>
      rw [finish_ok, tx_reward]
      rfl
  | error cause => rfl

@[simp] theorem gate_finish (q : Passage σ) (outcome : Except Interruption Response) :
    (q.finish T range outcome).2.station.gate = q.station.gate := by
  cases outcome with
  | ok response => exact gate_reward (q.answer response) range
  | error cause => rfl

/-- Of the report only the window is new. -/
theorem delivery_finish (q : Passage σ) (outcome : Except Interruption Response) :
    (q.finish T range outcome).2.delivery =
      { q.delivery with grant := (q.finish T range outcome).2.delivery.grant } := by
  cases outcome with
  | ok response => exact delivery_reward (q.answer response) range
  | error cause => rfl

@[simp] theorem accesses_finish (q : Passage σ) (outcome : Except Interruption Response) :
    (q.finish T range outcome).2.delivery.accesses = q.delivery.accesses := by
  rw [delivery_finish]

@[simp] theorem bytes_finish (q : Passage σ) (outcome : Except Interruption Response) :
    (q.finish T range outcome).2.delivery.bytes = q.delivery.bytes := by
  rw [delivery_finish]

@[simp] theorem cycles_finish (q : Passage σ) (outcome : Except Interruption Response) :
    (q.finish T range outcome).2.delivery.cycles = q.delivery.cycles := by
  rw [delivery_finish]

/-- **After the last piece at most a window is asked for,** and only if all has gone well. -/
theorem calls_finish (T : Target σ) (range : AddressRange) (q : Passage (List Target.Call × σ))
    (outcome : Except Interruption Response) :
    (q.finish T.noting range outcome).2.station.world.calls = q.station.world.calls ∨
      (outcome = .ok .ok ∧ q.tx.directAllowed = true) ∧ ∃ asked attributes,
        (q.finish T.noting range outcome).2.station.world.calls =
          q.station.world.calls ++ [.window asked attributes] := by
  cases outcome with
  | error cause => exact .inl rfl
  | ok response =>
      rcases (q.answer response).calls_reward (T := T) range with unasked | ⟨allowed, asked⟩
      · exact .inl unasked
      · rw [answer, Bool.and_eq_true] at allowed
        exact .inr ⟨⟨congrArg Except.ok (of_decide_eq_true allowed.2), allowed.1⟩, asked⟩

/-- Without hope for a window there is no reward. -/
theorem Course.reward_eq {pieces : List Piece} {exchanges : List Exchange}
    {outcome : Except Interruption Response} {q : Passage σ}
    (h : Course T pieces p exchanges outcome q) (hopeless : p.tx.directAllowed = false)
    (response : Response) : (q.answer response).reward T range = q.answer response := by
  have disallowed : (q.answer response).tx.directAllowed = false := by
    refine Bool.eq_false_iff.2 fun hope => ?_
    rw [answer, Bool.and_eq_true] at hope
    exact absurd (hopeless.symm.trans (h.allowed hope.1)) Bool.false_ne_true
  rw [reward, disallowed, if_neg Bool.false_ne_true]

end Passage

/-! ### The course of a transaction -/

namespace Station

variable {T : Target σ} {s : Station σ} {tx : Transaction}

/-- A gate waits for ever for a withdrawal that has no end. -/
theorem withdraw_eq_none_iff {range : AddressRange} :
    s.withdraw range = none ↔ ¬ s.network.Ends s.gate.handle range := by
  rw [withdraw, Option.map_eq_none_iff, Network.withdraw_eq_none_iff]

/-- **A transaction that waits for ever:** an exclusive read at a gate that grants windows, whose
withdrawal goes round without an end. -/
structure Waits (s : Station σ) (tx : Transaction) : Prop where
  /-- It is a read. -/
  read : tx.command = .read
  /-- It will reserve what it reads. -/
  exclusive : tx.exclusive = true
  /-- The monitor sees it. -/
  plain : tx.debug = false
  /-- There are windows to withdraw. -/
  windows : s.gate.config.allowDirect = true
  /-- The withdrawal of its range has no end. -/
  endless : ∃ range, tx.range = .ok range ∧ ¬ s.network.Ends s.gate.handle range

/-- It is preparation that waits. -/
theorem prepare_eq_none_iff_waits {range : AddressRange} (spans : tx.range = .ok range) :
    (Passage.entering s tx).prepare range = none ↔ s.Waits tx := by
  rw [Passage.prepare_eq_none_iff, withdraw_eq_none_iff]
  constructor
  · rintro ⟨plain, windows, exclusive, read, endless⟩
    exact ⟨read, exclusive, plain, windows, range, spans, endless⟩
  · rintro ⟨read, exclusive, plain, windows, range', spans', endless⟩
    cases spans.symm.trans spans'
    exact ⟨plain, windows, exclusive, read, endless⟩

/-- What the rules of a gate accept is performed. -/
theorem submit_eq_perform {range : AddressRange} (T : Target σ) (fresh : tx.response = .incomplete)
    (nonempty : tx.data ≠ []) (moves : tx.command ≠ .ignore) (spans : tx.range = .ok range)
    (accepted : s.gate.config.accepts tx = true) :
    s.submit T tx = (Passage.entering s tx).perform T range := by
  unfold submit
  rw [if_neg (not_not_intro fresh), if_neg nonempty, spans]
  dsimp only
  rw [if_neg moves, if_pos accepted]
  rfl

/-- **A transaction that is admitted waits for ever, or it has a course,** after which it may be
rewarded. -/
theorem exists_course (T : Target σ) (fresh : tx.response = .incomplete) (nonempty : tx.data ≠ [])
    (moves : tx.command ≠ .ignore) (admits : s.gate.Admits tx) :
    (s.Waits tx ∧ s.submit T tx = (.error .endless, Passage.entering s tx)) ∨
      ∃ range prepared p exchanges outcome q, tx.range = .ok range ∧
        (Passage.entering s tx).prepare range = some prepared ∧
        prepared.admission = .ok (some p) ∧
        Passage.Course T (plan tx.address tx.data.length tx.streamingWidth tx.byteEnable) p
          exchanges outcome q ∧
        s.submit T tx = q.finish T range outcome := by
  obtain ⟨fits, accepted, reserved⟩ := Gate.admits_iff.1 admits
  obtain ⟨range, spans⟩ := (Transaction.exists_range_iff nonempty).2 fits
  have performed := submit_eq_perform (s := s) T fresh nonempty moves spans accepted
  rcases Passage.perform_cases T (Passage.entering s tx) range with ⟨waits, endless⟩ |
    ⟨prepared, preparation, outcomes⟩
  · exact .inl ⟨(prepare_eq_none_iff_waits spans).1 waits, performed.trans endless⟩
  · have accepted' : prepared.station.gate.config.accepts prepared.tx = true := by
      obtain ⟨allowed, same⟩ := (Passage.pending_prepare preparation).1.tx
      rw [Passage.config_of_prepare preparation, same]
      exact accepted
    obtain ⟨pending, monitor⟩ := Passage.pending_prepare preparation
    have nonempty' : prepared.tx.data ≠ [] := pending.data_eq ▸ nonempty
    rcases outcomes with ⟨e, unexamined, -⟩ | ⟨refused, -⟩ | ⟨p, outcome, q, admission, moved, ends⟩
    · -- a pulse has a range
      obtain ⟨verdict, examined⟩ := Passage.exists_admission accepted'
        (pending.range_eq.trans spans) nonempty'
      rw [examined] at unexamined
      cases unexamined
    · -- the monitor has no reason to refuse
      obtain ⟨allowed, same⟩ := pending.tx
      have unreserved := Passage.unreserved_of_admission accepted' nonempty' refused
      rw [same, monitor] at unreserved
      obtain ⟨write, exclusive, plain, unheld⟩ := unreserved
      exact absurd (reserved write exclusive plain) unheld
    · have admitted := Passage.admitted_of_admission preparation admission
      have spans' : p.tx.range = .ok range := admitted.resembles.range_eq.trans spans
      obtain ⟨exchanges, course⟩ :=
        (Passage.carryAll_eq_iff (Transaction.plan_fits spans')).1 moved
      rw [admitted.resembles.plan_eq] at course
      refine .inr ⟨range, prepared, p, exchanges, outcome, q, spans, preparation, admission, course,
        performed.trans ?_⟩
      rcases ends with ⟨cause, rfl, broken⟩ | ⟨response, rfl, concluded⟩
      · exact broken
      · have whole : (q.answer response).tx.range = .ok range :=
          course.resembles.range_eq.trans spans'
        exact concluded.trans (Passage.conclude_eq whole)

/-! ### The report -/

/-- **A transaction has followed its plan, exchange by exchange,** and this is what is reported and
left behind.  What is reported is the delivery, or that its cost is more than a report can hold. -/
structure Follows (T : Target σ) (tx : Transaction) (s : Station σ) (exchanges : List Exchange)
    (report : Except Interruption Delivery) (after : Transaction) (t : Station σ) : Prop where
  /-- The exchanges are about the first pieces of the plan, in order. -/
  planned : exchanges.map Exchange.piece <+:
    plan tx.address tx.data.length tx.streamingWidth tx.byteEnable
  /-- Each call has the range of its piece and the slice of the transaction. -/
  asked : ∀ e ∈ exchanges, ∃ range,
    AddressRange.ofSize e.piece.address e.piece.length = .ok range ∧
      e.call = tx.call (s.attributes tx.owner tx.debug tx.exclusive) range e.piece
  /-- No other call is made, but that a plain transaction that succeeds may ask for one window. -/
  called : s.calls T tx = exchanges.map Exchange.call ∨
    (after.response = .ok ∧ s.gate.config.allowDirect = true ∧ tx.debug = false ∧
        tx.exclusive = false) ∧ ∃ range attributes,
      s.calls T tx = exchanges.map Exchange.call ++ [.window range attributes]
  /-- The answers are those of the target. -/
  answered : T.answers s.world (exchanges.map Exchange.call) =
    exchanges.map fun e => (e.response, e.bytes)
  /-- Nothing is asked after a failure. -/
  stops : ∀ e ∈ exchanges.dropLast, e.response = .ok
  /-- The report runs over exactly if a word cannot hold the cost of the successes. -/
  overruns : report = .error .overflow ↔
    UInt64.size ≤ s.cost tx (exchanges.countP fun e => e.response = .ok)
  /-- Otherwise there is a delivery. -/
  delivers : report ≠ .error .overflow → ∃ delivery, report = .ok delivery
  /-- Where the report runs over, nothing has failed. -/
  fine : report = .error .overflow → ∀ e ∈ exchanges, e.response = .ok
  /-- Without a failure no piece is left out of a delivery. -/
  completes : report ≠ .error .overflow → (∀ e ∈ exchanges, e.response = .ok) →
    exchanges.map Exchange.piece =
      plan tx.address tx.data.length tx.streamingWidth tx.byteEnable
  /-- The successes are counted, reported or not. -/
  counted : (s.submit T tx).2.delivery.accesses = exchanges.countP fun e => e.response = .ok
  /-- Their number is reported. -/
  accesses : ∀ delivery, report = .ok delivery →
    delivery.accesses = exchanges.countP fun e => e.response = .ok
  /-- So are their bytes. -/
  bytes : ∀ delivery, report = .ok delivery → delivery.bytes =
    ((exchanges.filter fun e => e.response = .ok).map fun e => e.piece.length).sum
  /-- The response is that of the first failure; to leave a piece unanswered is one. -/
  response : report ≠ .error .overflow → after.response =
    ((exchanges.find? fun e => e.response ≠ .ok).map fun e => e.response.settled).getD .ok
  /-- The slices hold what the target has left in them. -/
  filled : after.data = tx.data.patch (exchanges.map fun e => (e.piece.offset, e.bytes))
  /-- All other bytes are as they were. -/
  untouched : ∀ i, (∀ e ∈ exchanges, ¬ e.piece.Covers i) → after.data[i]? = tx.data[i]?
  /-- A plain write breaks the reservations that it meets on its way. -/
  broken : tx.command = .write → tx.exclusive = false → tx.debug = false →
    t.gate.monitor.reservations = s.gate.monitor.reservations.filter fun r =>
      exchanges.all fun e => !r.range.overlaps e.call.range
  /-- A plain read breaks none. -/
  kept : tx.command = .read → tx.exclusive = false → t.gate.monitor = s.gate.monitor

end Station

namespace Passage.Course

variable {T : Target σ} {pieces : List Piece} {p q : Passage σ} {exchanges : List Exchange}
  {outcome : Except Interruption Response}

/-- Only the last exchange may fail. -/
theorem stops (h : Course T pieces p exchanges outcome q) :
    ∀ e ∈ exchanges.dropLast, e.response = .ok := by
  rcases h.ending with ⟨-, fine, -⟩ | ⟨before, last, rfl, fine, -⟩ | ⟨fine, -⟩
  · exact fun e mem => fine e (List.dropLast_subset _ mem)
  · rwa [List.dropLast_concat]
  · exact fun e mem => fine e (List.dropLast_subset _ mem)

/-- A transfer that runs over has met no failure. -/
theorem fine (h : Course T pieces p exchanges outcome q) (overran : outcome = .error .overflow) :
    ∀ e ∈ exchanges, e.response = .ok := by
  rcases h.ending with ⟨-, fine, -⟩ | ⟨before, last, -, -, -, answer⟩ | ⟨fine, -⟩
  · exact fine
  · cases answer.symm.trans overran
  · exact fine

/-- A transfer without a failure moves all pieces, unless it runs over. -/
theorem completes (h : Course T pieces p exchanges outcome q) (fits : outcome ≠ .error .overflow)
    (fine : ∀ e ∈ exchanges, e.response = .ok) : exchanges.map Exchange.piece = pieces := by
  rcases h.ending with ⟨all, -⟩ | ⟨before, last, rfl, -, failed, -⟩ | ⟨-, overran⟩
  · exact all
  · exact absurd (fine last (by simp)) failed
  · exact absurd overran fits

/-- **The response to a transfer is that to the first piece that fails,** unless it runs over. -/
theorem outcome_eq (h : Course T pieces p exchanges outcome q)
    (fits : outcome ≠ .error .overflow) : outcome = .ok
      (((exchanges.find? fun e => e.response ≠ .ok).map fun e => e.response.settled).getD .ok) := by
  rcases h.ending with ⟨-, fine, rfl⟩ | ⟨before, last, rfl, fine, failed, rfl⟩ | ⟨-, overran⟩
  · rw [List.find?_eq_none.2 fun e mem => by simpa using fine e mem]
    rfl
  · rw [List.find?_append, List.find?_eq_none.2 fun e mem => by simpa using fine e mem,
      Option.none_or, List.find?_singleton, if_pos (decide_eq_true failed)]
    rfl
  · exact absurd overran fits

/-- Bytes outside the pieces are left alone. -/
theorem untouched (h : Course T pieces p exchanges outcome q) {i : Nat}
    (outside : ∀ e ∈ exchanges, ¬ e.piece.Covers i) (short : ∀ e ∈ exchanges,
      e.bytes.length ≤ e.piece.length) : q.tx.data[i]? = p.tx.data[i]? := by
  rw [h.data_eq]
  apply Bytes.getElem?_patch_of_apart
  simp only [List.forall_mem_map]
  intro e mem covers
  exact outside e mem ⟨covers.1, Nat.lt_of_lt_of_le covers.2 (Nat.add_le_add_left (short e mem) _)⟩

/-- No slice is longer than its piece. -/
theorem length_bytes_le (h : Course T pieces p exchanges outcome q) :
    ∀ e ∈ exchanges, e.bytes.length ≤ e.piece.length := by
  induction h with
  | done p => exact nofun
  | onward made moved counted later ih =>
      exact List.forall_mem_cons.2 ⟨length_bytes_exchange_le _ _ _, ih⟩
  | overrun made moved overran =>
      exact List.forall_mem_cons.2 ⟨length_bytes_exchange_le _ _ _, nofun⟩
  | halted made failed =>
      exact List.forall_mem_cons.2 ⟨length_bytes_exchange_le _ _ _, nofun⟩

end Passage.Course

namespace Station

variable {T : Target σ} {s : Station σ} {tx : Transaction}

/-- **What a transaction with a course reports.** -/
theorem transport_eq_of_finish {range : AddressRange} {q : Passage σ}
    {outcome : Except Interruption Response}
    (submitted : s.submit T tx = q.finish T range outcome) :
    s.transport T tx = (outcome.map fun _ => (q.finish T range outcome).2.delivery,
      (q.finish T range outcome).2.tx, (q.finish T range outcome).2.station) := by
  rw [transport, submitted, Passage.fst_finish]
  cases outcome <;> rfl

/-- Nothing is ever too dear that has not begun. -/
theorem cost_lt_of_free (s : Station σ) (tx : Transaction) : s.cost tx 0 < UInt64.size := by
  rw [cost, Nat.zero_mul]
  decide

/-- **A transaction has no effect, or it has a course.** -/
theorem unmoved_or_course (T : Target σ) (s : Station σ) (tx : Transaction) :
    ((s.submit T tx).1 ≠ .error .overflow ∧ (s.submit T tx).2.delivery = .nothing ∧
        (s.submit T tx).2.station = s) ∨
      ∃ range prepared p exchanges outcome q,
        (Passage.entering s tx).prepare range = some prepared ∧
        prepared.admission = .ok (some p) ∧
        Passage.Course T (plan tx.address tx.data.length tx.streamingWidth tx.byteEnable) p
          exchanges outcome q ∧
        s.submit T tx = q.finish T range outcome := by
  rcases submit_cases T s tx with ⟨-, cause, faulty⟩ | ⟨fresh, nonempty, ⟨response, -, -, -,
    answered⟩ | ⟨range, spans, moves, accepted, -⟩⟩
  · rw [faulty]
    exact .inl ⟨nofun, rfl, rfl⟩
  · rw [answered]
    exact .inl ⟨nofun, rfl, rfl⟩
  · by_cases admits : s.gate.Admits tx
    · rcases exists_course T fresh nonempty moves admits with ⟨-, endless⟩ |
        ⟨range, prepared, p, exchanges, outcome, q, -, preparation, admission, course, submitted⟩
      · rw [endless]
        exact .inl ⟨nofun, rfl, rfl⟩
      · exact .inr ⟨range, prepared, p, exchanges, outcome, q, preparation, admission, course,
          submitted⟩
    · rw [submit_of_not_admits fresh nonempty moves admits]
      exact .inl ⟨nofun, rfl, rfl⟩

/-- A report runs over where the passage does. -/
theorem transport_eq_overflow_iff :
    (s.transport T tx).1 = .error .overflow ↔ (s.submit T tx).1 = .error .overflow := by
  rw [transport]
  exact map_eq_error_iff

/-- **A report runs over exactly if a word cannot hold the cost of the pieces** that have been
carried out. -/
theorem transport_overflow_iff :
    (s.transport T tx).1 = .error .overflow ↔
      UInt64.size ≤ s.cost tx (s.submit T tx).2.delivery.accesses := by
  rw [transport_eq_overflow_iff]
  rcases unmoved_or_course T s tx with ⟨other, undelivered, -⟩ |
    ⟨range, prepared, p, exchanges, outcome, q, preparation, admission, course, submitted⟩
  · rw [undelivered]
    exact iff_of_false other (Nat.not_le.2 (s.cost_lt_of_free tx))
  · have admitted := Passage.admitted_of_admission preparation admission
    rw [submitted, Passage.accesses_finish, admitted.accesses_eq course, ← admitted.cost_eq,
      ← course.overflow_iff, Passage.fst_finish, map_eq_error_iff]

/-- **A course that is recorded is followed,** with and without the record. -/
theorem follows_of_course {range : AddressRange} {prepared p q : Passage (List Target.Call × σ)}
    {exchanges : List Exchange} {outcome : Except Interruption Response}
    (moves : tx.command ≠ .ignore)
    (preparation : (Passage.entering s.recorded tx).prepare range = some prepared)
    (admission : prepared.admission = .ok (some p))
    (course : Passage.Course T.noting
      (plan tx.address tx.data.length tx.streamingWidth tx.byteEnable) p exchanges outcome q)
    (submitted : s.recorded.submit T.noting tx = q.finish T.noting range outcome) :
    ∃ report after t, s.transport T tx = (report, after, t) ∧
      s.Follows T tx exchanges report after t := by
  have admitted := Passage.admitted_of_admission preparation admission
  obtain ⟨allowed, same⟩ := admitted.same
  have passed := transport_recorded T tx s
  rw [transport_eq_of_finish submitted] at passed
  have moves' : p.tx.command ≠ .ignore := by rwa [same]
  have record : q.station.world.calls = exchanges.map Exchange.call := by
    rw [course.recorded moves', admitted.world]
    rfl
  have gate : (q.finish T.noting range outcome).2.station.gate = q.station.gate :=
    q.gate_finish outcome
  have accesses := admitted.accesses_eq course
  refine ⟨_, _, _, passed, ?_⟩
  constructor
  case planned => exact course.planned
  case asked =>
    refine course.asked admitted.resembles ?_ (pairwise_plan.imp And.left) fun piece _ => ?_
    · rw [attributes, admitted.config]
      rfl
    · rw [admitted.data_eq]
  case called =>
    rw [calls_eq, submitted, ← record]
    rcases Passage.calls_finish T range q outcome with unasked | ⟨⟨rfl, hope⟩, asked⟩
    · exact .inl unasked
    · refine .inr ⟨⟨?_, admitted.allowed (course.allowed hope)⟩, asked⟩
      rw [Passage.finish_ok, Passage.tx_reward]
      rfl
  case answered =>
    rw [← course.answered moves', Target.answers_noting, admitted.world]
    rfl
  case stops => exact course.stops
  case overruns =>
    rw [map_eq_error_iff, course.overflow_iff, admitted.cost_eq]
    rfl
  case delivers =>
    rw [ne_eq, map_eq_error_iff]
    intro fits
    rw [course.outcome_eq fits]
    exact ⟨_, rfl⟩
  case fine => exact fun overran => course.fine (map_eq_error_iff.1 overran)
  case completes => exact fun fits => course.completes (mt map_eq_error_iff.2 fits)
  case counted =>
    have same := submit_mapWorld T.noting_over tx s.recorded
    rw [show s.recorded.mapWorld World.forget = s from rfl, submitted] at same
    rw [same]
    exact (q.accesses_finish outcome).trans accesses
  case accesses =>
    intro delivery reported
    obtain ⟨response, rfl, rfl⟩ := map_eq_ok_iff.1 reported
    exact (q.accesses_finish _).trans accesses
  case bytes =>
    intro delivery reported
    obtain ⟨response, rfl, rfl⟩ := map_eq_ok_iff.1 reported
    rw [Passage.bytes_finish]
    exact course.bytes_eq.trans (by rw [admitted.delivery]; exact Nat.zero_add _)
  case response =>
    rw [ne_eq, map_eq_error_iff]
    intro fits
    rw [course.outcome_eq fits, Passage.finish_ok, Passage.tx_reward]
    rfl
  case filled =>
    rw [Passage.data_finish]
    exact admitted.data_eq ▸ course.data_eq
  case untouched =>
    intro i outside
    rw [Passage.data_finish]
    exact (course.untouched outside course.length_bytes_le).trans (by rw [admitted.data_eq])
  case broken =>
    intro write shared plain
    have left := course.reservations_eq (by rwa [same]) (by rwa [same]) (by rwa [same])
    rw [admitted.monitor (.inl shared)] at left
    exact (congrArg (fun g => g.monitor.reservations) gate).trans left
  case kept =>
    intro read shared
    have left := course.monitor_eq (.inr (.inr (by rw [same, read]; decide)))
    rw [admitted.monitor (.inl shared)] at left
    exact (congrArg Gate.monitor gate).trans left

/-- The record makes no difference to how long a transaction waits. -/
theorem waits_recorded_iff : s.recorded.Waits tx ↔ s.Waits tx :=
  ⟨fun ⟨read, exclusive, plain, windows, endless⟩ => ⟨read, exclusive, plain, windows, endless⟩,
    fun ⟨read, exclusive, plain, windows, endless⟩ => ⟨read, exclusive, plain, windows, endless⟩⟩

/-- What is admitted and does not wait for ever is followed. -/
theorem exists_follows (T : Target σ) (fresh : tx.response = .incomplete) (nonempty : tx.data ≠ [])
    (moves : tx.command ≠ .ignore) (admits : s.gate.Admits tx) (ends : ¬ s.Waits tx) :
    ∃ exchanges report after t, s.transport T tx = (report, after, t) ∧
      s.Follows T tx exchanges report after t := by
  rcases exists_course (s := s.recorded) T.noting fresh nonempty moves admits with ⟨waits, -⟩ |
    ⟨range, prepared, p, exchanges, outcome, q, -, preparation, admission, course, submitted⟩
  · exact absurd (waits_recorded_iff.1 waits) ends
  · exact ⟨exchanges, follows_of_course moves preparation admission course submitted⟩

/-- While a transaction waits, nothing has been done. -/
theorem transport_of_waits (T : Target σ) (fresh : tx.response = .incomplete)
    (nonempty : tx.data ≠ []) (moves : tx.command ≠ .ignore) (admits : s.gate.Admits tx)
    (waits : s.Waits tx) :
    s.transport T tx = (.error .endless, { tx with directAllowed := false }, s) ∧
      s.calls T tx = [] := by
  have never {τ : Type u} {s : Station τ} (T : Target τ) (admits : s.gate.Admits tx)
      (waits : s.Waits tx) : s.submit T tx = (.error .endless, Passage.entering s tx) := by
    rcases exists_course T fresh nonempty moves admits with ⟨-, endless⟩ |
      ⟨range, prepared, p, exchanges, outcome, q, spans, preparation, -⟩
    · exact endless
    · rw [(prepare_eq_none_iff_waits spans).2 waits] at preparation
      cases preparation
  refine ⟨?_, ?_⟩
  · rw [transport, never T admits waits]
    rfl
  · rw [calls_eq, never T.noting (by exact admits) (waits_recorded_iff.2 waits)]
    rfl

/-- **A transaction that is admitted follows its plan.**  The target is asked for the pieces in
order, each with its range and its slice, up to the first that it does not carry out; what it has
carried out is counted, the response is that of the failure if there is one, and neither bytes
outside the slices nor reservations that no piece meets are touched.  Only where the successes have
cost more than a word can hold does the transfer break off, and nothing is reported; and an
exclusive read that waits for ever has asked for nothing. -/
theorem follows_plan (T : Target σ) (s : Station σ) (tx : Transaction)
    (fresh : tx.response = .incomplete) (nonempty : tx.data ≠ []) (moves : tx.command ≠ .ignore)
    (admits : s.gate.Admits tx) :
    (¬ s.Waits tx → ∃ exchanges report after t, s.transport T tx = (report, after, t) ∧
      s.Follows T tx exchanges report after t) ∧
    (s.Waits tx → s.transport T tx = (.error .endless, { tx with directAllowed := false }, s) ∧
      s.calls T tx = []) :=
  ⟨exists_follows T fresh nonempty moves admits,
    transport_of_waits T fresh nonempty moves admits⟩

/-- A gate before a memory of eight bytes. -/
def shortMemory : Station Memory where
  gate := (Gate.create .standard .empty).1
  network := (Gate.create .standard .empty).2
  world := ⟨(StorageBank.empty.allocate (List.replicate 8 0)).2, .ofBlock 0⟩

/-- A write of four bytes, of which the second takes no part and the last two lie behind the
memory. -/
def overrunning : Transaction :=
  { Transaction.ofData .write 6 [1, 2, 3, 4] with byteEnable := some [1, 0, 1, 1] }

/-- **A write that leaves the memory** is stopped at its second piece, and the first is reported. -/
theorem exists_follows_overrun :
    ∃ (s : Station Memory) (tx : Transaction) (exchanges : List Exchange) (delivery : Delivery)
      (after : Transaction) (t : Station Memory),
      s.gate.Admits tx ∧ s.transport Memory.target tx = (.ok delivery, after, t) ∧
        s.Follows Memory.target tx exchanges (.ok delivery) after t ∧
        delivery.accesses = 1 ∧ delivery.bytes = 1 ∧ after.response = .addressError := by
  have admits : shortMemory.gate.Admits overrunning :=
    Gate.admits_iff.2 ⟨by decide, by decide, nofun⟩
  obtain ⟨exchanges, report, after, t, passed, follows⟩ :=
    (follows_plan Memory.target shortMemory overrunning rfl (by decide) (by decide) admits).1
      fun waits => nomatch waits.read
  have delivered : (shortMemory.transport Memory.target overrunning).1 = .ok ⟨1, 1, 0, none⟩ := by
    decide
  have response : (shortMemory.transport Memory.target overrunning).2.1.response =
      .addressError := by decide
  rw [passed] at delivered response
  obtain rfl := delivered
  exact ⟨shortMemory, overrunning, exchanges, _, after, t, admits, passed, follows, rfl, rfl,
    response⟩

/-- Rules by which a write costs half as many cycles as there are words. -/
def steepConfig : GateConfig := { GateConfig.standard with writeLatency := 0x8000000000000000 }

/-- A gate with these rules before a memory of eight bytes. -/
def steepMemory : Station Memory := { shortMemory with gate := (Gate.create steepConfig .empty).1 }

/-- A write of two pulses to the same two addresses. -/
def doubleWrite : Transaction :=
  { Transaction.ofData .write 0 [1, 2, 3, 4] with streamingWidth := some 2 }

/-- **Not every transaction that is admitted is reported:** two pulses that the memory carries out
cost more than a word can hold, and there is no report at all. -/
theorem not_forall_admitted_reported :
    ¬ ∀ (σ : Type) (T : Target σ) (s : Station σ) (tx : Transaction),
      tx.response = .incomplete → tx.data ≠ [] → tx.command ≠ .ignore → s.gate.Admits tx →
      tx.exclusive = false →
      ∃ exchanges delivery after t, s.transport T tx = (.ok delivery, after, t) ∧
        s.Follows T tx exchanges (.ok delivery) after t := by
  intro claimed
  have admits : steepMemory.gate.Admits doubleWrite :=
    Gate.admits_iff.2 ⟨by decide, by decide, nofun⟩
  obtain ⟨exchanges, delivery, after, t, passed, -⟩ :=
    claimed Memory Memory.target steepMemory doubleWrite rfl (by decide) (by decide) admits rfl
  have broken : (steepMemory.transport Memory.target doubleWrite).1 = .error .overflow := by decide
  rw [passed] at broken
  cases broken

end Station

end Interconnect
