import Interconnect.Proofs.Gate.Access
import Interconnect.Proofs.Memory

/-!
# Contiguous transactions to a memory

Initiators submit transactions without a mask and without streaming.  Such a transaction is carried
out in one piece, so what it does to the memory behind a gate and to the monitor can be said at
once: the monitor gives its verdict, and if it admits the access the memory serves it.

## Main Definitions

* `Target.Mirrors` — a target that answers as a memory does
* `Passage.verdict` — what the monitor says to a transaction

## Main Statements

* `Passage.perform_cases_of_contiguous` — how a transaction is answered that the gate accepts
* `Station.submit_cases_of_contiguous` — the same with those that it does not accept
-/

namespace Interconnect

universe u

variable {σ : Type u}

/-- **A target that answers as memory `m` does,** as long as the targets are in `state`. -/
structure Target.Mirrors (T : Target σ) (m : Memory) (state : σ) : Prop where
  /-- Reads go to the memory. -/
  read : ∀ range attributes buffer (w : World σ), w.state = state →
    T.read range attributes buffer w =
      ((m.read w.storage range buffer).1, (m.read w.storage range buffer).2, w)
  /-- Writes go to the memory. -/
  write : ∀ range attributes data (w : World σ), w.state = state →
    T.write range attributes data w =
      ((m.write w.storage range attributes.debug data).1,
        { w with storage := (m.write w.storage range attributes.debug data).2 })
  /-- Windows are those of the memory. -/
  window : ∀ range attributes (w : World σ), w.state = state →
    T.window range attributes w = (m.window w.storage range, w)

/-- **A transaction without a mask and without streaming.** -/
structure Transaction.Contiguous (tx : Transaction) : Prop where
  /-- There is no mask. -/
  unmasked : tx.byteEnable = none
  /-- There is no streaming width. -/
  steady : tx.streamingWidth = none

/-- A contiguous transaction is made in one piece. -/
theorem Transaction.Contiguous.plan_eq {tx : Transaction} (h : tx.Contiguous)
    (nonempty : tx.data ≠ []) :
    plan tx.address tx.data.length tx.streamingWidth tx.byteEnable =
      [⟨tx.address, 0, tx.data.length⟩] := by
  have positive : tx.data.length ≠ 0 := fun zero => nonempty (List.length_eq_zero_iff.1 zero)
  have once : tx.data.length / tx.data.length = 1 := Nat.div_self (Nat.pos_of_ne_zero positive)
  simp [plan, pulseWidth, pulseRuns, h.steady, h.unmasked, nonempty, once]

/-! ### What stays of a transaction -/

/-- **One transaction is the other on its way through a gate:** only the bytes, the response and the
hope for a window may differ, and there are as many bytes. -/
structure Transaction.Resembles (tx other : Transaction) : Prop where
  /-- As many bytes are moved. -/
  length_eq : other.data.length = tx.data.length
  /-- Everything else is as it was. -/
  rest : other = { tx with
    data := other.data, response := other.response, directAllowed := other.directAllowed }

namespace Transaction

theorem Resembles.refl (tx : Transaction) : tx.Resembles tx := ⟨rfl, rfl⟩

theorem Resembles.trans {tx other third : Transaction} (first : tx.Resembles other)
    (second : other.Resembles third) : tx.Resembles third := by
  refine ⟨second.length_eq.trans first.length_eq, ?_⟩
  rw [second.rest, first.rest]

/-- The addresses that the buffer spans stay the same. -/
theorem Resembles.range_eq {tx other : Transaction} (h : tx.Resembles other) :
    other.range = tx.range := by
  rw [range, range, h.length_eq, h.rest]

theorem Resembles.plan_eq {tx other : Transaction} (h : tx.Resembles other) :
    plan other.address other.data.length other.streamingWidth other.byteEnable =
      plan tx.address tx.data.length tx.streamingWidth tx.byteEnable := by
  rw [h.length_eq, h.rest]

end Transaction

namespace Passage

open Station

variable {T : Target σ} {m : Memory} {state : σ}

/-- **What the monitor says to a transaction:** the reservations after it, or nothing if it is
refused.  It does not see debug transactions. -/
def verdict (p : Passage σ) (range : AddressRange) : Option Monitor :=
  if p.tx.debug then some p.station.gate.monitor
  else p.station.gate.monitor.apply ⟨range, p.tx.command, p.tx.owner, p.tx.exclusive⟩

/-- **Nothing has happened but to the monitor, the caches and the hope for a window.** -/
structure Pending (p q : Passage σ) : Prop where
  /-- The transaction asks for the same. -/
  tx : ∃ allowed, q.tx = { p.tx with directAllowed := allowed }
  /-- Nothing more has been delivered. -/
  delivery : q.delivery = p.delivery
  /-- The target has not been asked. -/
  world : q.station.world = p.station.world

theorem Pending.refl (p : Passage σ) : p.Pending p := ⟨⟨p.tx.directAllowed, rfl⟩, rfl, rfl⟩

theorem Pending.trans {p q r : Passage σ} (first : p.Pending q) (second : q.Pending r) :
    p.Pending r := by
  obtain ⟨allowed, same⟩ := first.tx
  obtain ⟨allowed', same'⟩ := second.tx
  exact ⟨⟨allowed', by rw [same', same]⟩, second.delivery.trans first.delivery,
    second.world.trans first.world⟩

theorem Pending.data_eq {p q : Passage σ} (h : p.Pending q) : q.tx.data = p.tx.data := by
  obtain ⟨_, tx⟩ := h.tx
  rw [tx]

theorem Pending.range_eq {p q : Passage σ} (h : p.Pending q) : q.tx.range = p.tx.range := by
  obtain ⟨_, tx⟩ := h.tx
  rw [tx]
  rfl

theorem Pending.contiguous {p q : Passage σ} (h : p.Pending q) (contiguous : p.tx.Contiguous) :
    q.tx.Contiguous := by
  obtain ⟨_, tx⟩ := h.tx
  rw [tx]
  exact ⟨contiguous.unmasked, contiguous.steady⟩

/-! ### Before the target is asked -/

/-- Preparation leaves the monitor as it is. -/
theorem pending_prepare {p q : Passage σ} {range : AddressRange} (h : p.prepare range = some q) :
    p.Pending q ∧ q.station.gate.monitor = p.station.gate.monitor := by
  rcases prepare_cases h with ⟨-, -, count, t, ended, rfl⟩ | ⟨-, allowed, rfl⟩
  · obtain ⟨net, rfl, -⟩ := Station.exists_of_withdraw ended
    exact ⟨⟨⟨p.tx.directAllowed, rfl⟩, rfl, rfl⟩, rfl⟩
  · exact ⟨⟨⟨allowed, rfl⟩, rfl, rfl⟩, rfl⟩

/-- The verdict on a passage is that on any later one with the same reservations. -/
theorem Pending.verdict_eq {p q : Passage σ} (h : p.Pending q)
    (same : q.station.gate.monitor = p.station.gate.monitor) (range : AddressRange) :
    q.verdict range = p.verdict range := by
  obtain ⟨allowed, tx⟩ := h.tx
  rw [verdict, verdict, tx, same]

/-- The watch over a piece sees the monitor only. -/
theorem pending_watch (p : Passage σ) (range : AddressRange) : p.Pending (p.watch range) := by
  unfold watch
  split
  · exact .refl p
  · dsimp only
    split
    · exact ⟨⟨_, rfl⟩, rfl, rfl⟩
    · exact ⟨⟨_, rfl⟩, rfl, rfl⟩

/-- **Admission and the watch over the one piece carry out the verdict.** -/
theorem verdict_cases (p : Passage σ) {range : AddressRange} (steady : p.tx.streamingWidth = none)
    (spans : p.tx.range = .ok range) :
    (p.verdict range = none ∧ p.admission = .ok none) ∨ ∃ q, p.admission = .ok (some q) ∧
      p.Pending q ∧ p.verdict range = some (q.watch range).station.gate.monitor := by
  have pulse : AddressRange.ofSize p.tx.address p.tx.width = .ok range := by
    rw [Transaction.width, steady]
    exact spans
  -- an exclusive access meets the monitor on admission, another one in the watch over its piece
  cases debug : p.tx.debug with
  | true =>
      refine .inr ⟨p, by simp [admission, debug], .refl p, ?_⟩
      rw [watch, if_pos debug, verdict, if_pos debug]
  | false =>
      cases exclusive : p.tx.exclusive with
      | true =>
          cases admitted : p.station.gate.monitor.apply
              ⟨range, p.tx.command, p.tx.owner, true⟩ with
          | none =>
              refine .inl ⟨by simp [verdict, debug, exclusive, admitted], ?_⟩
              simp [admission, debug, exclusive, pulse, admitted, Except.map]
          | some monitor =>
              refine .inr ⟨p.setStation (p.station.setMonitor monitor), ?_,
                ⟨⟨p.tx.directAllowed, rfl⟩, rfl, rfl⟩, ?_⟩
              · simp [admission, debug, exclusive, pulse, admitted, Except.map]
              · simp [verdict, watch, setStation, debug, exclusive, admitted]
      | false =>
          refine .inr ⟨p, by simp [admission, exclusive], .refl p, ?_⟩
          simp [verdict, watch, setStation, debug, exclusive, Monitor.apply_of_not_exclusive]

/-- The same with what is done before the monitor is asked. -/
theorem prepared_cases {p prepared : Passage σ} {range : AddressRange}
    (contiguous : p.tx.Contiguous) (spans : p.tx.range = .ok range)
    (preparation : p.prepare range = some prepared) :
    (p.verdict range = none ∧ prepared.admission = .ok none) ∨
      ∃ q, prepared.admission = .ok (some q) ∧ p.Pending q ∧
        p.verdict range = some (q.watch range).station.gate.monitor := by
  obtain ⟨pending, monitor⟩ := pending_prepare preparation
  rw [← pending.verdict_eq monitor range]
  rcases verdict_cases _ (pending.contiguous contiguous).steady (pending.range_eq.trans spans) with
    refused | ⟨q, admitted, through, ruled⟩
  · exact .inl refused
  · exact .inr ⟨q, admitted, pending.trans through, ruled⟩

/-! ### While the target is asked -/

/-- What is only pending resembles what it was. -/
theorem Pending.resembles {p q : Passage σ} (h : p.Pending q) : p.tx.Resembles q.tx := by
  obtain ⟨allowed, tx⟩ := h.tx
  rw [tx]
  exact ⟨rfl, rfl⟩

/-- A target fills a slice with as many bytes. -/
theorem resembles_ask (p : Passage σ) (range : AddressRange) (piece : Piece) :
    p.tx.Resembles (p.ask T range piece).2.tx := by
  unfold ask
  dsimp only
  split
  · exact ⟨Bytes.length_overwrite _ _ _, rfl⟩
  · exact .refl p.tx
  · exact .refl p.tx

/-- **A piece changes the bytes of a transaction at most,** and so do all of them. -/
theorem resembles_carry (p : Passage σ) (piece : Piece) :
    p.tx.Resembles (p.carry T piece).2.tx := by
  have asked (range : AddressRange) :
      p.tx.Resembles ((p.watch range).ask T range piece).2.tx :=
    (p.pending_watch range).resembles.trans ((p.watch range).resembles_ask range piece)
  rcases carry_cases T p piece with ⟨cause, broken⟩ | ⟨range, -, ⟨cause, broken⟩ | ⟨-, moved⟩ |
    ⟨response, -, failed⟩⟩
  · rw [broken]
    exact .refl p.tx
  · rw [broken]
    exact (p.pending_watch range).resembles
  · rw [moved, tx_count]
    exact asked range
  · rw [failed]
    exact asked range

theorem resembles_carryAll (pieces : List Piece) (p : Passage σ) :
    p.tx.Resembles (p.carryAll T pieces).2.tx := by
  induction pieces generalizing p with
  | nil => exact .refl p.tx
  | cons piece rest ih =>
      rw [carryAll_cons]
      split
      · exact (resembles_carry p piece).trans (ih _)
      · exact resembles_carry p piece

/-! ### What the memory answers -/

/-- What a memory answers to a transaction. -/
def served (m : Memory) (p : Passage σ) (range : AddressRange) : Response × Bytes × StorageBank :=
  m.serve p.station.world.storage p.tx.command range p.tx.debug p.tx.data

theorem Pending.served_eq {p q : Passage σ} (h : p.Pending q) (m : Memory) (range : AddressRange) :
    q.served m range = p.served m range := by
  obtain ⟨allowed, tx⟩ := h.tx
  rw [served, served, tx, h.world]

/-- **A whole buffer is served by the memory.** -/
theorem exists_ask_eq (mirrors : T.Mirrors m state) {p : Passage σ}
    (same : p.station.world.state = state) (range : AddressRange) (address : UInt64) :
    ∃ q, p.ask T range ⟨address, 0, p.tx.data.length⟩ = ((p.served m range).1, q) ∧
      q.tx.data = (p.served m range).2.1 ∧ q.delivery = p.delivery ∧
      q.station.gate.monitor = p.station.gate.monitor ∧
      q.station.world = { p.station.world with storage := (p.served m range).2.2 } := by
  obtain ⟨⟨command, start, data, owner, mask, width, debug, exclusive, response, allowed⟩,
    delivery, station⟩ := p
  cases command with
  | read =>
      simp only [ask, Bytes.slice_zero_length, mirrors.read _ _ _ _ same, served, Memory.serve]
      refine ⟨_, rfl, ?_, rfl, rfl, rfl⟩
      exact Bytes.overwrite_zero (Memory.length_read _ _ _ _)
  | write =>
      simp only [ask, Bytes.slice_zero_length, mirrors.write _ _ _ _ same, served, Memory.serve]
      exact ⟨_, rfl, rfl, rfl, rfl, rfl⟩
  | ignore => exact ⟨_, rfl, rfl, rfl, rfl, rfl⟩

/-! ### After the answer -/

/-- One piece is the whole transfer. -/
theorem carryAll_singleton (p : Passage σ) (piece : Piece) :
    p.carryAll T [piece] = p.carry T piece := by
  rw [carryAll_cons]
  split
  · next moved => exact Prod.ext moved.symm rfl
  · rfl

/-- A piece that is answered is counted if it succeeds, and the first one is always counted. -/
theorem carry_eq_of_ask {p q : Passage σ} {piece : Piece} {range : AddressRange}
    {response : Response} (made : AddressRange.ofSize piece.address piece.length = .ok range)
    (within : piece.offset + piece.length ≤ (p.watch range).tx.data.length)
    (asked : (p.watch range).ask T range piece = (response, q))
    (answered : response ≠ .incomplete) (free : q.delivery.cycles = 0) :
    p.carry T piece = (.ok response, if response = .ok then (q.count piece).2 else q) := by
  simp only [carry, made, Nat.not_lt.2 within, if_false, asked]
  cases response with
  | ok => exact Prod.ext (fst_count_of_free piece free) rfl
  | incomplete => exact absurd rfl answered
  | addressError => rfl
  | commandError => rfl

/-- Only a piece that succeeds is counted. -/
theorem counted_eq (p : Passage σ) (piece : Piece) (response : Response) :
    (if response = .ok then (p.count piece).2 else p).tx = p.tx ∧
      (if response = .ok then (p.count piece).2 else p).delivery.bytes =
        p.delivery.bytes + (if response = .ok then piece.length else 0) ∧
      (if response = .ok then (p.count piece).2 else p).station.gate.monitor =
        p.station.gate.monitor ∧
      (if response = .ok then (p.count piece).2 else p).station.world = p.station.world := by
  split
  · exact ⟨tx_count p piece, bytes_count p piece, monitor_count p piece, world_count p piece⟩
  · exact ⟨rfl, rfl, rfl, rfl⟩

/-- **The one piece of a contiguous transfer is served by the memory and counted.** -/
theorem exists_carry_eq (mirrors : T.Mirrors m state) {p : Passage σ}
    (same : p.station.world.state = state) {range : AddressRange} (spans : p.tx.range = .ok range)
    (untouched : p.delivery = .nothing) :
    ∃ q, p.carry T ⟨p.tx.address, 0, p.tx.data.length⟩ = (.ok (p.served m range).1, q) ∧
      q.tx.data = (p.served m range).2.1 ∧
      q.delivery.bytes =
        p.delivery.bytes + (if (p.served m range).1 = .ok then p.tx.data.length else 0) ∧
      q.station.gate.monitor = (p.watch range).station.gate.monitor ∧
      q.station.world = { p.station.world with storage := (p.served m range).2.2 } := by
  have watched := p.pending_watch range
  obtain ⟨allowed, tx⟩ := watched.tx
  obtain ⟨q, asked, data, delivery, kept, world⟩ := exists_ask_eq mirrors
    ((congrArg World.state watched.world).trans same) range p.tx.address
  rw [watched.served_eq] at asked data world
  rw [show (p.watch range).tx.data.length = p.tx.data.length by rw [tx]] at asked
  obtain ⟨tx', bytes, kept', world'⟩ := counted_eq q ⟨p.tx.address, 0, p.tx.data.length⟩
    (p.served m range).1
  have made : AddressRange.ofSize (Piece.mk p.tx.address 0 p.tx.data.length).address
    (Piece.mk p.tx.address 0 p.tx.data.length).length = .ok range := spans
  have within : 0 + p.tx.data.length ≤ (p.watch range).tx.data.length := by
    rw [watched.data_eq, Nat.zero_add]
  have free : q.delivery.cycles = 0 := by
    rw [delivery, watched.delivery, untouched]
    rfl
  refine ⟨_, carry_eq_of_ask made within asked (m.serve_ne_incomplete _ _ _ _ _) free,
    ?_, ?_, ?_, ?_⟩
  · rw [tx', data]
  · rw [bytes, delivery, watched.delivery]
  · rw [kept', kept]
  · rw [world', world, watched.world]

/-- **A contiguous transfer is served by the memory and counted.** -/
theorem exists_carryAll_eq (mirrors : T.Mirrors m state) {p : Passage σ}
    (same : p.station.world.state = state) (contiguous : p.tx.Contiguous)
    (nonempty : p.tx.data ≠ []) {range : AddressRange} (spans : p.tx.range = .ok range)
    (untouched : p.delivery = .nothing) :
    ∃ q, p.carryAll T (plan p.tx.address p.tx.data.length p.tx.streamingWidth p.tx.byteEnable) =
        (.ok (p.served m range).1, q) ∧
      q.tx.data = (p.served m range).2.1 ∧
      q.delivery.bytes =
        p.delivery.bytes + (if (p.served m range).1 = .ok then p.tx.data.length else 0) ∧
      q.station.gate.monitor = (p.watch range).station.gate.monitor ∧
      q.station.world = { p.station.world with storage := (p.served m range).2.2 } := by
  rw [contiguous.plan_eq nonempty, carryAll_singleton]
  exact exists_carry_eq mirrors same spans untouched

/-- A memory that is asked for a window changes nothing. -/
theorem reward_eq (mirrors : T.Mirrors m state) {p : Passage σ}
    (same : p.station.world.state = state) (range : AddressRange) :
    (p.reward T range).tx = p.tx ∧ (p.reward T range).delivery.bytes = p.delivery.bytes ∧
      (p.reward T range).station.gate.monitor = p.station.gate.monitor ∧
      (p.reward T range).station.world = p.station.world := by
  rcases reward_cases (T := T) p range with ⟨-, kept⟩ | ⟨-, rewarded⟩
  · rw [kept]
    exact ⟨rfl, rfl, rfl, rfl⟩
  · rw [rewarded]
    refine ⟨rfl, rfl, by simp, ?_⟩
    rcases world_grant T ⟨range, p.tx.command, p.tx.owner, p.tx.exclusive⟩ p.station with
      unasked | asked
    · exact unasked
    · rw [mirrors.window _ _ _ same] at asked
      exact asked

/-! ### The whole path -/

/-- **A transaction that a gate accepts is refused by the monitor or served by the memory,** if it
does not wait for ever. -/
theorem perform_cases_of_contiguous (mirrors : T.Mirrors m state) {p : Passage σ}
    (same : p.station.world.state = state) (contiguous : p.tx.Contiguous)
    (nonempty : p.tx.data ≠ []) (untouched : p.delivery = .nothing) {range : AddressRange}
    (spans : p.tx.range = .ok range) :
    (p.prepare range = none ∧ p.perform T range = (.error .endless, p)) ∨
      ∃ after, p.perform T range = (.ok (), after) ∧
        ((p.verdict range = none ∧ after.tx.response = .commandError ∧ after.delivery.bytes = 0 ∧
            after.station.gate.monitor = p.station.gate.monitor ∧
            after.station.world = p.station.world) ∨
          p.verdict range = some after.station.gate.monitor ∧
            (after.tx.response, after.tx.data, after.station.world.storage) = p.served m range ∧
            after.station.world.state = p.station.world.state ∧
            after.delivery.bytes = if after.tx.response = .ok then p.tx.data.length else 0) := by
  cases preparation : p.prepare range with
  | none => exact .inl ⟨rfl, by rw [perform, preparation]⟩
  | some prepared =>
      refine .inr ?_
      obtain ⟨prepares, monitor⟩ := pending_prepare preparation
      rcases prepared_cases contiguous spans preparation with ⟨vetoed, refused⟩ |
        ⟨admitted, admission, pending, ruled⟩
      · refine ⟨prepared.answer .commandError, ?_, .inl ⟨vetoed, rfl, ?_, monitor, prepares.world⟩⟩
        · simp only [perform, preparation, refused]
        · exact congrArg Delivery.bytes (prepares.delivery.trans untouched)
      · -- the memory answers
        have before : admitted.station.world.state = state :=
          (congrArg World.state pending.world).trans same
        have spans' : admitted.tx.range = .ok range := pending.range_eq.trans spans
        obtain ⟨q, moved, data, bytes, kept, world⟩ := exists_carryAll_eq mirrors before
          (pending.contiguous contiguous) (pending.data_eq ▸ nonempty) spans'
          (pending.delivery.trans untouched)
        rw [pending.served_eq] at data bytes world moved
        have whole : (q.answer (p.served m range).1).tx.range = .ok range := by
          have same := resembles_carryAll (T := T) (plan admitted.tx.address
            admitted.tx.data.length admitted.tx.streamingWidth admitted.tx.byteEnable) admitted
          rw [moved] at same
          exact same.range_eq.trans spans'
        -- the reward leaves the answer as it is
        have state' : (q.answer (p.served m range).1).station.world.state = state :=
          (congrArg World.state world).trans before
        obtain ⟨tx, bytes', kept', world'⟩ := reward_eq mirrors state' range
        refine ⟨(q.answer (p.served m range).1).reward T range, ?_, .inr ⟨?_, ?_, ?_, ?_⟩⟩
        · simp only [perform, preparation, admission, moved]
          exact conclude_eq whole
        · rw [kept', ruled, ← kept]
          rfl
        · rw [tx, world']
          show (_, q.tx.data, q.station.world.storage) = _
          rw [data, world]
          rfl
        · rw [world']
          exact state'.trans same.symm
        · rw [bytes', tx]
          show q.delivery.bytes = if (p.served m range).1 = .ok then _ else _
          rw [bytes, pending.delivery, untouched, pending.data_eq]
          exact Nat.zero_add _

end Passage

namespace Station

variable {T : Target σ} {m : Memory} {s : Station σ} {tx : Transaction}

/-- **What becomes of a contiguous transaction:** it does not come to the monitor, or the monitor
refuses it, or the memory serves it. -/
theorem submit_cases_of_contiguous (mirrors : T.Mirrors m s.world.state)
    (contiguous : tx.Contiguous) {p : Passage σ} (h : s.submit T tx = (.ok (), p)) :
    (p.station = s ∧ p.delivery.bytes = 0 ∧ (p.tx.response = .ok → tx.command = .ignore) ∧
        ∀ range, tx.range = .ok range → tx.command = .ignore ∨
          s.gate.config.accepts tx = false) ∨
      ∃ range, tx.data ≠ [] ∧ tx.range = .ok range ∧ tx.command ≠ .ignore ∧
        (((Passage.entering s tx).verdict range = none ∧ p.tx.response = .commandError ∧
            p.delivery.bytes = 0 ∧ p.station.gate.monitor = s.gate.monitor ∧
            p.station.world = s.world) ∨
          ((Passage.entering s tx).verdict range = some p.station.gate.monitor ∧
            (p.tx.response, p.tx.data, p.station.world.storage) =
              (Passage.entering s tx).served m range ∧
            p.station.world.state = s.world.state ∧
            p.delivery.bytes = if p.tx.response = .ok then tx.data.length else 0)) := by
  rcases submit_cases T s tx with ⟨-, cause, faulty⟩ | ⟨-, nonempty,
    ⟨response, -, idle, reason, answered⟩ | ⟨range, spans, moves, -, performed⟩⟩
  · rw [faulty] at h
    cases h
  · rw [answered] at h
    cases h
    exact .inl ⟨rfl, rfl, idle, reason⟩
  · refine .inr ⟨range, nonempty, spans, moves, ?_⟩
    rcases Passage.perform_cases_of_contiguous mirrors (p := Passage.entering s tx) rfl
      ⟨contiguous.unmasked, contiguous.steady⟩ nonempty rfl spans with ⟨-, endless⟩ |
        ⟨after, passed, outcome⟩
    · rw [performed, endless] at h
      cases h
    · rw [performed, passed] at h
      cases h
      exact outcome

end Station

end Interconnect
