import Interconnect.Proofs.Gate.Shortcut

/-!
# How a transaction is answered

The response to a transaction of one piece that is not exclusive can be told beforehand.  It depends
on the rules of the gate, on the target and on the world, and neither on what has been cached nor on
what is reserved.

## Main Definitions

* `Target.answer` — the response of a target to any command
* `Station.expected` — the response to a transaction

## Main Statements

* `Station.response_of_submit` — a transaction is answered as expected
* `Initiator.response_of_throughGate` — so is an access through the gate
-/

namespace Interconnect

universe u

variable {σ : Type u}

/-- **The response of a target to any command.** -/
def Target.answer (T : Target σ) (command : Command) (range : AddressRange)
    (attributes : Attributes) (data : Bytes) (w : World σ) : Response :=
  match command with
  | .read => (T.read range attributes data w).1
  | .write => (T.write range attributes data w).1
  | .ignore => .ok

/-- A target that does not answer counts as one that does not exist. -/
def Response.settled : Response → Response
  | .incomplete => .addressError
  | response => response

theorem Station.Settled.attributes_eq {s t : Station σ} (h : s.Settled t) :
    t.attributes = s.attributes := by
  funext owner debug exclusive
  rw [Station.attributes, h.config, Station.attributes]

namespace Passage

variable {T : Target σ} {p after : Passage σ} {range : AddressRange} {response : Response}

/-- The response of the target to the one piece of a transfer. -/
def reply (T : Target σ) (p : Passage σ) (range : AddressRange) : Response :=
  T.answer p.tx.command range (p.station.attributes p.tx.owner p.tx.debug p.tx.exclusive) p.tx.data
    p.station.world

theorem Pending.reply_eq {q : Passage σ} (h : p.Pending q) (settled : p.station.Settled q.station) :
    q.reply T range = p.reply T range := by
  obtain ⟨allowed, tx⟩ := h.tx
  rw [reply, reply, settled.attributes_eq, tx, h.world]

theorem fst_ask (p : Passage σ) (range : AddressRange) (address : UInt64) :
    (p.ask T range ⟨address, 0, p.tx.data.length⟩).1 = p.reply T range := by
  simp only [ask, reply, Target.answer, Bytes.slice_zero_length]
  cases p.tx.command <;> rfl

/-- **The one piece of a transfer is answered by the target.** -/
theorem response_of_carry (spans : p.tx.range = .ok range)
    (h : p.carry T ⟨p.tx.address, 0, p.tx.data.length⟩ = (.ok response, after)) :
    response = (p.reply T range).settled := by
  have watched := p.pending_watch range
  obtain ⟨allowed, tx⟩ := watched.tx
  have steps : Station.Effects T ∅ p.station (p.watch range).station := effects_of_watch p range
  have asked := fst_ask (T := T) (p.watch range) range p.tx.address
  rw [watched.reply_eq (Station.settled_of_effects steps),
    show (p.watch range).tx.data.length = p.tx.data.length by rw [tx]] at asked
  have made : AddressRange.ofSize (Piece.mk p.tx.address 0 p.tx.data.length).address
    (Piece.mk p.tx.address 0 p.tx.data.length).length = .ok range := spans
  have within : ¬ (p.watch range).tx.data.length < 0 + p.tx.data.length := by
    rw [watched.data_eq, Nat.zero_add]
    exact Nat.lt_irrefl _
  simp only [carry, made, within, if_false] at h
  rw [← asked]
  generalize (p.watch range).ask T range _ = answer at h ⊢
  obtain ⟨reply, q⟩ := answer
  cases reply with
  | ok =>
      have counted := fst_count q ⟨p.tx.address, 0, p.tx.data.length⟩
      rw [congrArg Prod.fst h] at counted
      split at counted
      · exact Except.ok.inj counted
      · cases counted
  | incomplete => exact (Except.ok.inj (congrArg Prod.fst h)).symm
  | addressError => exact (Except.ok.inj (congrArg Prod.fst h)).symm
  | commandError => exact (Except.ok.inj (congrArg Prod.fst h)).symm

/-- The monitor never refuses an access that is not exclusive. -/
theorem verdict_ne_none (shared : p.tx.exclusive = false) (range : AddressRange) :
    p.verdict range ≠ none := by
  rw [verdict]
  split
  · simp
  · rw [shared, Monitor.apply_of_not_exclusive]
    simp

/-- **A contiguous transaction that the gate accepts is answered by the target.** -/
theorem response_of_perform (contiguous : p.tx.Contiguous) (nonempty : p.tx.data ≠ [])
    (shared : p.tx.exclusive = false) (spans : p.tx.range = .ok range)
    (accepted : p.station.gate.config.accepts p.tx = true)
    (h : p.perform T range = (.ok (), after)) : after.tx.response = (p.reply T range).settled := by
  rcases perform_cases T p range with ⟨-, endless⟩ | ⟨prepared, preparation, outcomes⟩
  · rw [endless] at h
    cases h
  · rcases prepared_cases contiguous spans preparation with ⟨refused, -⟩ |
      ⟨q, admitted, pending, -⟩
    · exact absurd refused (verdict_ne_none shared range)
    · have steps : Station.Effects T ∅ p.station q.station :=
        effects_of_admission accepted spans nonempty preparation admitted
      rcases outcomes with ⟨e, unexamined, -⟩ | ⟨refused, -⟩ | ⟨q', outcome, carried, admitted',
        moved, ends⟩
      · rw [admitted] at unexamined
        cases unexamined
      · rw [admitted] at refused
        cases refused
      · cases Option.some.inj (Except.ok.inj (admitted.symm.trans admitted'))
        rw [(pending.contiguous contiguous).plan_eq (pending.data_eq ▸ nonempty),
          carryAll_singleton] at moved
        have spans' : q.tx.range = .ok range := pending.range_eq.trans spans
        have same := resembles_carry (T := T) q ⟨q.tx.address, 0, q.tx.data.length⟩
        rw [moved] at same
        rcases ends with ⟨cause, -, broken⟩ | ⟨response, rfl, concluded⟩
        · rw [broken] at h
          cases h
        · have whole : (carried.answer response).tx.range = .ok range :=
            same.range_eq.trans spans'
          rw [concluded, conclude_eq whole] at h
          cases h
          rw [tx_reward, ← pending.reply_eq (Station.settled_of_effects steps)]
          exact response_of_carry spans' moved

end Passage

namespace Station

variable {T : Target σ} {s : Station σ} {tx : Transaction}

/-- **The response to a transaction** of one piece. -/
def expected (T : Target σ) (s : Station σ) (tx : Transaction) : Response :=
  match tx.range with
  | .error _ => .addressError
  | .ok range =>
    if tx.command = .ignore then .ok
    else if s.gate.config.accepts tx then ((Passage.entering s tx).reply T range).settled
    else .commandError

/-- **A transaction is answered as expected,** if it is made in one piece and is not exclusive. -/
theorem response_of_submit (contiguous : tx.Contiguous) (shared : tx.exclusive = false)
    {p : Passage σ} (h : s.submit T tx = (.ok (), p)) : p.tx.response = s.expected T tx := by
  unfold submit at h
  split at h
  · cases h
  · split at h
    · cases h
    · next nonempty =>
        unfold expected
        cases spans : tx.range with
        | error e =>
            rw [spans] at h
            cases h
            rfl
        | ok range =>
            rw [spans] at h
            dsimp only at h ⊢
            split at h
            · next idle =>
                cases h
                rw [if_pos idle]
                rfl
            · next moves =>
                rw [if_neg moves]
                split at h
                · next accepted =>
                    rw [if_pos accepted]
                    exact Passage.response_of_perform (p := Passage.entering s tx)
                      ⟨contiguous.unmasked, contiguous.steady⟩ nonempty shared spans accepted h
                · next refused =>
                    cases h
                    rw [if_neg refused]
                    rfl

/-- The response depends on the rules of the gate and on the world only. -/
theorem expected_congr {t : Station σ} (config : t.gate.config = s.gate.config)
    (world : t.world = s.world) (tx : Transaction) : t.expected T tx = s.expected T tx := by
  have replies : ∀ range, (Passage.entering t tx).reply T range =
      (Passage.entering s tx).reply T range := by
    intro range
    rw [Passage.reply, Passage.reply, Passage.entering, Passage.entering, attributes, attributes,
      config, world]
  simp only [expected, config, replies]

end Station

namespace Initiator

variable {T : Target σ} {s t : Station σ} {i : Initiator} {command : Command} {address : UInt64}
  {data : Bytes} {mode : AccessMode}

/-- **An access through the gate is answered as its transaction,** if it is not exclusive. -/
theorem response_of_throughGate (shared : mode.exclusive = false) {bytes : Bytes}
    {done : Completion} (h : i.throughGate T command address data mode s = .ok (bytes, done, t)) :
    done.response = s.expected T (i.transaction command address data mode) := by
  obtain ⟨p, submitted, -, rfl, -⟩ := throughGate_eq_ok_iff.1 h
  exact Station.response_of_submit (contiguous_transaction i command address data mode) shared
    submitted

/-- **An access that has something to move comes to an end,** if it is not exclusive. -/
theorem exists_access (T : Target σ) (s : Station σ) (i : Initiator) (command : Command)
    (address : UInt64) (mode : AccessMode) (shared : mode.exclusive = false)
    (nonempty : (i.transaction command address data mode).data ≠ []) :
    ∃ outcome, i.access T command address data mode s = .ok outcome := by
  have through : ∀ s : Station σ, ∃ outcome,
      i.throughGate T command address data mode s = .ok outcome := by
    intro s
    obtain ⟨p, submitted, -⟩ := Station.exists_submit T s rfl nonempty
      (contiguous_transaction i command address data mode) shared
    exact ⟨_, by rw [throughGate, submitted]⟩
  unfold access
  split
  · exact through s
  · dsimp only
    split
    · exact ⟨_, rfl⟩
    · exact through _

end Initiator

end Interconnect
