import Mathlib.Data.Set.Basic
import Mathlib.Logic.Relation
import Interconnect.Initiator
import Interconnect.Proofs.Monitor
import Interconnect.Proofs.Withdrawal.Reach

/-!
# The effects of a gate

Whatever a gate does for a transaction, and an initiator for an access, is a sequence of few kinds
of effects on the monitor, the caches, the clock and the world.  This module says which, once; an
invariant of gates is then proved by looking at each kind of effect.

## Main Definitions

* `Station.Effect` — one effect, given the target and the caches of those who use the gate
* `Station.Effects` — any number of them

## Main Statements

* `Station.effects_of_submit` — a transaction is a sequence of effects
* `Initiator.effects_of_access` — so is an access

### Where the order matters

Two effects carry a condition that holds only because of what was done just before.  A reservation
is made when the windows over it have been withdrawn from every bound cache, unless the gate grants
no windows at all; and a window is kept in the very state in which the monitor has carved it.
-/

namespace Interconnect

universe u

variable {σ : Type u}

namespace Station

/-- **One effect of a gate** that the owners of the caches `users` access. -/
inductive Effect (T : Target σ) (users : Set CacheId) : Station σ → Station σ → Prop
  /-- The target carries out a read. -/
  | read (s : Station σ) (range : AddressRange) (attributes : Attributes) (buffer : Bytes) :
      Effect T users s (s.setWorld (T.read range attributes buffer s.world).2.2)
  /-- The target carries out a write. -/
  | write (s : Station σ) (range : AddressRange) (attributes : Attributes) (data : Bytes) :
      Effect T users s (s.setWorld (T.write range attributes data s.world).2)
  /-- An initiator stores bytes through a window. -/
  | store (s : Station σ) (pointer : HostPointer) (data : Bytes) :
      Effect T users s
        (s.setWorld { s.world with storage := s.world.storage.store pointer data })
  /-- The clock counts cycles. -/
  | charge (s : Station σ) (cycles : UInt64) : Effect T users s (s.charge cycles)
  /-- Windows are withdrawn from the caches that the handle of the gate reaches. -/
  | withdraw (s t : Station σ) (range : AddressRange) (count : Nat)
      (ended : s.withdraw range = some (count, t)) : Effect T users s t
  /-- A write breaks reservations. -/
  | release (s : Station σ) (range : AddressRange) :
      Effect T users s (s.setMonitor (s.gate.monitor.breakRange range))
  /-- An exclusive read reserves what no bound cache covers. -/
  | reserve (s : Station σ) (owner : Owner) (range : AddressRange)
      (clear : s.gate.config.allowDirect = true → ∀ c ∈ (s.network.handle s.gate.handle).caches,
        ∀ a q p, s.network.Offers c a q p → a ∉ range) :
      Effect T users s (s.setMonitor (s.gate.monitor.reserve owner range))
  /-- A window is granted and given away. -/
  | grant (s : Station σ) (access : Access) : Effect T users s (s.grant T access).2
  /-- An initiator looks for a window in its cache. -/
  | search (s : Station σ) (cache : CacheId) (range : AddressRange) (command : Command) :
      Effect T users s { s with
        network := s.network.setCache cache ((s.network.cache cache).lookup range command).2 }
  /-- A window is granted and kept by an initiator. -/
  | keep (s : Station σ) (i : Initiator) (member : i.cache ∈ users) (access : Access)
      (mode : AccessMode) :
      Effect T users s (i.keep (s.grant T access).1 mode (s.grant T access).2)

/-- **Any number of effects,** one after the other. -/
abbrev Effects (T : Target σ) (users : Set CacheId) : Station σ → Station σ → Prop :=
  Relation.ReflTransGen (Effect T users)

/-- **What a piece costs that is carried out:** the latency of its command, but nothing if it is
made for debugging. -/
def fee (s : Station σ) (tx : Transaction) : UInt64 :=
  if tx.debug then 0 else s.gate.config.latency tx.command

/-- **A withdrawal that ends takes mappings away,** and leaves none of the range in the caches that
the handle of the gate reaches. -/
theorem exists_of_withdraw {s t : Station σ} {range : AddressRange} {count : Nat}
    (ended : s.withdraw range = some (count, t)) : ∃ net, t = { s with network := net } ∧
      s.network.Sheds net ∧ s.network.Clears s.gate.handle range net := by
  obtain ⟨net, rfl, found⟩ := withdraw_eq_some_iff.1 ended
  exact ⟨net, rfl, Network.clears_of_withdraw? rfl found⟩

end Station

/-! ### Before the first piece -/

namespace Passage

open Station

variable {T : Target σ} {users : Set CacheId}

/-- A pulse of a transaction that a gate accepts has some of the bytes of the buffer. -/
theorem width_of_accepts {config : GateConfig} {tx : Transaction}
    (accepted : config.accepts tx = true) (nonempty : tx.data ≠ []) :
    tx.width ≠ 0 ∧ tx.width ≤ tx.data.length := by
  have length : tx.data.length ≠ 0 := fun zero => nonempty (List.length_eq_zero_iff.1 zero)
  simp only [GateConfig.accepts, Bool.and_eq_true] at accepted
  have streaming := accepted.1.1.1
  unfold GateConfig.acceptsStreaming at streaming
  unfold Transaction.width
  split at streaming
  · next none => simpa [none] using length
  · next w some =>
      simp only [Bool.and_eq_true, bne_iff_ne, decide_eq_true_eq] at streaming
      simpa [some] using ⟨streaming.1.1.2, streaming.1.2⟩

/-- The addresses of one pulse are among those of the whole buffer. -/
theorem mem_range_of_mem_pulse {config : GateConfig} {tx : Transaction} {range pulse : AddressRange}
    (accepted : config.accepts tx = true) (spans : tx.range = .ok range)
    (nonempty : tx.data ≠ []) (made : AddressRange.ofSize tx.address tx.width = .ok pulse)
    {a : UInt64} (inside : a ∈ pulse) : a ∈ range := by
  have length : tx.data.length ≠ 0 := fun zero => nonempty (List.length_eq_zero_iff.1 zero)
  have width := width_of_accepts accepted nonempty
  obtain ⟨-, start, last⟩ := (AddressRange.ofSize_eq_ok_iff length).1 spans
  obtain ⟨-, start', last'⟩ := (AddressRange.ofSize_eq_ok_iff width.1).1 made
  simp only [AddressRange.mem_iff, UInt64.le_iff_toNat_le, start, start', last, last'] at inside ⊢
  omega

/-- Preparation withdraws for an exclusive read, and otherwise only marks the transaction. -/
theorem prepare_cases {p q : Passage σ} {range : AddressRange} (h : p.prepare range = some q) :
    (p.tx.exclusive = true ∧ p.tx.command = .read ∧
        ∃ count t, p.station.withdraw range = some (count, t) ∧ q = p.setStation t) ∨
      (p.station.gate.config.allowDirect = true → p.tx.debug = false → p.tx.exclusive = true →
        p.tx.command ≠ .read) ∧
      ∃ allowed, q = { p with tx := { p.tx with directAllowed := allowed } } := by
  unfold prepare at h
  split at h
  · next aside =>
      refine .inr ⟨fun windows plain => ?_, p.tx.directAllowed, (Option.some.inj h).symm⟩
      simp [windows, plain] at aside
  · split at h
    · next exclusive =>
        split at h
        · next read =>
            obtain ⟨⟨count, t⟩, ended, rfl⟩ := Option.map_eq_some_iff.1 h
            exact .inl ⟨exclusive, read, count, t, ended, rfl⟩
        · next other =>
            exact .inr ⟨fun _ _ _ => other, p.tx.directAllowed, (Option.some.inj h).symm⟩
    · next shared =>
        exact .inr ⟨fun _ _ exclusive => absurd exclusive shared, true, (Option.some.inj h).symm⟩

/-- **Only an exclusive read may wait for ever,** for a withdrawal that does not end. -/
theorem prepare_eq_none_iff {p : Passage σ} {range : AddressRange} :
    p.prepare range = none ↔ p.tx.debug = false ∧ p.station.gate.config.allowDirect = true ∧
      p.tx.exclusive = true ∧ p.tx.command = .read ∧ p.station.withdraw range = none := by
  unfold prepare
  cases p.tx.debug with
  | true => simp
  | false =>
      cases p.station.gate.config.allowDirect with
      | false => simp
      | true =>
          cases p.tx.exclusive with
          | false => simp
          | true => by_cases read : p.tx.command = .read <;> simp [read]

/-- An admitted transaction is left as it is, or the monitor has admitted one pulse of it. -/
theorem admission_cases {p after : Passage σ} (h : p.admission = .ok (some after)) :
    ((p.tx.exclusive = false ∨ p.tx.debug = true) ∧ after = p) ∨
      p.tx.exclusive = true ∧ p.tx.debug = false ∧ ∃ pulse monitor,
        AddressRange.ofSize p.tx.address p.tx.width = .ok pulse ∧
        p.station.gate.monitor.apply ⟨pulse, p.tx.command, p.tx.owner, true⟩ = some monitor ∧
        after = p.setStation (p.station.setMonitor monitor) := by
  unfold admission at h
  split at h
  · next examined =>
      rw [Bool.and_eq_true, Bool.not_eq_true'] at examined
      obtain ⟨pulse, made, verdict⟩ := map_eq_ok_iff.1 h
      obtain ⟨monitor, admitted, rfl⟩ := Option.map_eq_some_iff.1 verdict
      exact .inr ⟨examined.1, examined.2, pulse, monitor, made, admitted, rfl⟩
  · next unexamined =>
      cases h
      rw [Bool.and_eq_true, Bool.not_eq_true', not_and_or] at unexamined
      refine .inl ⟨unexamined.imp ?_ ?_, rfl⟩
      · simp
      · simp

/-- What the monitor does for an admitted access is one effect, if nothing that it reserves is
covered. -/
theorem effects_of_apply {s : Station σ} {access : Access} {monitor : Monitor}
    (admitted : s.gate.monitor.apply access = some monitor)
    (clear : access.exclusive = true → access.command = .read →
      s.gate.config.allowDirect = true → ∀ c ∈ (s.network.handle s.gate.handle).caches,
        ∀ a q p, s.network.Offers c a q p → a ∉ access.range) :
    Effects T users s (s.setMonitor monitor) := by
  obtain ⟨range, command, owner, exclusive⟩ := access
  unfold Monitor.apply at admitted
  split at admitted
  · cases command with
    | read =>
        cases exclusive with
        | false =>
            cases admitted
            exact .refl
        | true =>
            cases admitted
            exact .single (.reserve s owner range (clear rfl rfl))
    | write =>
        cases admitted
        exact .single (.release s range)
    | ignore =>
        cases admitted
        exact .refl
  · cases admitted

/-- **Preparation and admission withdraw before they reserve.** -/
theorem effects_of_admission {p prepared after : Passage σ} {range : AddressRange}
    (accepted : p.station.gate.config.accepts p.tx = true) (spans : p.tx.range = .ok range)
    (nonempty : p.tx.data ≠ []) (preparation : p.prepare range = some prepared)
    (h : prepared.admission = .ok (some after)) : Effects T users p.station after.station := by
  rcases prepare_cases preparation with ⟨-, -, count, t, ended, rfl⟩ | ⟨unreserved, allowed, rfl⟩
  · refine .head (.withdraw p.station t range count ended) ?_
    rcases admission_cases h with ⟨-, rfl⟩ | ⟨-, -, pulse, monitor, made, admitted, rfl⟩
    · exact .refl
    · refine effects_of_apply admitted fun _ _ _ c bound a q ptr covers inside => ?_
      obtain ⟨net, rfl, sheds, clears⟩ := exists_of_withdraw ended
      have bound : c ∈ (p.station.network.handle p.station.gate.handle).caches :=
        sheds.handle p.station.gate.handle ▸ bound
      exact clears _ _ (.here _ _) c bound a q ptr covers
        (mem_range_of_mem_pulse accepted spans nonempty made inside)
  · rcases admission_cases h with ⟨-, rfl⟩ | ⟨exclusive, plain, pulse, monitor, -, admitted, rfl⟩
    · exact .refl
    · exact effects_of_apply admitted fun _ read windows =>
        absurd read (unreserved windows plain exclusive)

/-- What is done in preparation is one effect at most. -/
theorem effects_of_prepare {p prepared : Passage σ} {range : AddressRange}
    (h : p.prepare range = some prepared) : Effects T users p.station prepared.station := by
  rcases prepare_cases h with ⟨-, -, count, t, ended, rfl⟩ | ⟨-, allowed, rfl⟩
  · exact .single (.withdraw p.station t range count ended)
  · exact .refl

/-- Nothing has been delivered before the first piece. -/
theorem delivery_of_prepare {p prepared : Passage σ} {range : AddressRange}
    (h : p.prepare range = some prepared) : prepared.delivery = p.delivery := by
  rcases prepare_cases h with ⟨-, -, count, t, ended, rfl⟩ | ⟨-, allowed, rfl⟩
  · rfl
  · rfl

theorem delivery_of_admission {p after : Passage σ} (h : p.admission = .ok (some after)) :
    after.delivery = p.delivery := by
  rcases admission_cases h with ⟨-, rfl⟩ | ⟨-, -, pulse, monitor, -, -, rfl⟩
  · rfl
  · rfl

/-! ### Piece by piece -/

/-- What the monitor does with a piece is at most the breaking of reservations. -/
theorem effects_of_watch (p : Passage σ) (range : AddressRange) :
    Effects T users p.station (p.watch range).station := by
  unfold watch
  split
  · exact .refl
  · dsimp only
    split
    · exact .refl
    · rw [Monitor.apply_of_not_exclusive]
      split
      · exact .single (.release p.station range)
      · exact .refl

/-- The target is asked at most once. -/
theorem effects_of_ask (p : Passage σ) (range : AddressRange) (piece : Piece) :
    Effects T users p.station (p.ask T range piece).2.station := by
  unfold ask
  dsimp only
  split
  · exact .single (.read p.station range _ _)
  · exact .single (.write p.station range _ _)
  · exact .refl

/-- **A piece that is counted is charged its fee,** and the report runs over if it cannot hold the
sum. -/
theorem count_eq (p : Passage σ) (piece : Piece) : p.count piece =
    if p.delivery.cycles.toNat + (p.station.fee p.tx).toNat < UInt64.size then
      (.ok .ok, { p with
        delivery := { p.delivery with
          bytes := p.delivery.bytes + piece.length
          accesses := p.delivery.accesses + 1
          cycles := p.delivery.cycles + p.station.fee p.tx }
        station := p.station.charge (p.station.fee p.tx) })
    else
      (.error .overflow, { p with
        delivery := { p.delivery with
          bytes := p.delivery.bytes + piece.length
          accesses := p.delivery.accesses + 1 }
        station := p.station.charge (p.station.fee p.tx) }) := by
  unfold count
  dsimp only
  split
  · next debug =>
      have within : p.delivery.cycles.toNat + (0 : UInt64).toNat < UInt64.size :=
        p.delivery.cycles.toNat_lt
      rw [Station.fee, if_pos debug, if_pos within, UInt64.add_zero, Station.charge_zero]
  · next plain =>
      rw [Station.fee, if_neg plain]
      rfl

@[simp] theorem tx_count (p : Passage σ) (piece : Piece) : (p.count piece).2.tx = p.tx := by
  rw [count_eq]
  split <;> rfl

/-- Of a station a count changes the clock. -/
theorem station_count (p : Passage σ) (piece : Piece) :
    (p.count piece).2.station = p.station.charge (p.station.fee p.tx) := by
  rw [count_eq]
  split <;> rfl

@[simp] theorem world_count (p : Passage σ) (piece : Piece) :
    (p.count piece).2.station.world = p.station.world := by
  rw [station_count, Station.world_charge]

@[simp] theorem config_count (p : Passage σ) (piece : Piece) :
    (p.count piece).2.station.gate.config = p.station.gate.config := by
  rw [station_count]
  rfl

@[simp] theorem monitor_count (p : Passage σ) (piece : Piece) :
    (p.count piece).2.station.gate.monitor = p.station.gate.monitor := by
  rw [station_count, Station.monitor_charge]

@[simp] theorem bytes_count (p : Passage σ) (piece : Piece) :
    (p.count piece).2.delivery.bytes = p.delivery.bytes + piece.length := by
  rw [count_eq]
  split <;> rfl

@[simp] theorem accesses_count (p : Passage σ) (piece : Piece) :
    (p.count piece).2.delivery.accesses = p.delivery.accesses + 1 := by
  rw [count_eq]
  split <;> rfl

@[simp] theorem grant_count (p : Passage σ) (piece : Piece) :
    (p.count piece).2.delivery.grant = p.delivery.grant := by
  rw [count_eq]
  split <;> rfl

/-- **A count succeeds or runs over.** -/
theorem fst_count (p : Passage σ) (piece : Piece) : (p.count piece).1 =
    if p.delivery.cycles.toNat + (p.station.fee p.tx).toNat < UInt64.size then .ok .ok
    else .error .overflow := by
  rw [count_eq]
  split <;> rfl

/-- The first count of a report succeeds. -/
theorem fst_count_of_free {p : Passage σ} (piece : Piece) (free : p.delivery.cycles = 0) :
    (p.count piece).1 = .ok .ok := by
  rw [fst_count, free, UInt64.toNat_zero, Nat.zero_add, if_pos (UInt64.toNat_lt _)]

/-- A count that succeeds adds the fee to the report. -/
theorem cycles_count {p : Passage σ} {piece : Piece} (counted : (p.count piece).1 = .ok .ok) :
    (p.count piece).2.delivery.cycles.toNat =
      p.delivery.cycles.toNat + (p.station.fee p.tx).toNat := by
  rw [fst_count] at counted
  rw [count_eq]
  split at counted
  · next fits => rw [if_pos fits, UInt64.toNat_add, Nat.mod_eq_of_lt fits]
  · cases counted

theorem effects_of_count (p : Passage σ) (piece : Piece) :
    Effects T users p.station (p.count piece).2.station := by
  rw [station_count]
  exact .single (.charge p.station _)

/-- **One piece:** the target is asked after the monitor, and a success is counted.  A target that
leaves the piece unanswered is taken to refuse the address. -/
theorem carry_cases (T : Target σ) (p : Passage σ) (piece : Piece) :
    (∃ cause, p.carry T piece = (.error cause, p)) ∨
      ∃ range, AddressRange.ofSize piece.address piece.length = .ok range ∧
        ((∃ cause, p.carry T piece = (.error cause, p.watch range)) ∨
          (((p.watch range).ask T range piece).1 = .ok ∧
            p.carry T piece = ((p.watch range).ask T range piece).2.count piece) ∨
          ∃ response, response ≠ .ok ∧
            p.carry T piece = (.ok response, ((p.watch range).ask T range piece).2)) := by
  unfold carry
  cases made : AddressRange.ofSize piece.address piece.length with
  | error e => exact .inl ⟨_, rfl⟩
  | ok range =>
      refine .inr ⟨range, rfl, ?_⟩
      dsimp only
      split
      · exact .inl ⟨_, rfl⟩
      · generalize (p.watch range).ask T range piece = answer
        obtain ⟨response, q⟩ := answer
        cases response with
        | ok => exact .inr (.inl ⟨rfl, rfl⟩)
        | incomplete => exact .inr (.inr ⟨.addressError, by decide, rfl⟩)
        | addressError => exact .inr (.inr ⟨.addressError, by decide, rfl⟩)
        | commandError => exact .inr (.inr ⟨.commandError, by decide, rfl⟩)

theorem effects_of_carry (p : Passage σ) (piece : Piece) :
    Effects T users p.station (p.carry T piece).2.station := by
  have asked (range : AddressRange) :
      Effects T users p.station ((p.watch range).ask T range piece).2.station :=
    (effects_of_watch p range).trans (effects_of_ask _ range piece)
  rcases carry_cases T p piece with ⟨cause, broken⟩ | ⟨range, -, ⟨cause, broken⟩ | ⟨-, moved⟩ |
    ⟨response, -, failed⟩⟩
  · rw [broken]
  · rw [broken]
    exact effects_of_watch p range
  · rw [moved]
    exact (asked range).trans (effects_of_count _ piece)
  · rw [failed]
    exact asked range

/-- After the first piece a transfer goes on or ends. -/
theorem carryAll_cons (T : Target σ) (piece : Piece) (rest : List Piece) (p : Passage σ) :
    p.carryAll T (piece :: rest) =
      if (p.carry T piece).1 = .ok .ok then (p.carry T piece).2.carryAll T rest
      else p.carry T piece := by
  rw [carryAll]
  generalize p.carry T piece = outcome
  obtain ⟨outcome, q⟩ := outcome
  rcases outcome with cause | response
  · simp
  · cases response <;> simp

/-- **The pieces of a transfer are a sequence of effects,** wherever it ends. -/
theorem effects_of_carryAll (pieces : List Piece) (p : Passage σ) :
    Effects T users p.station (p.carryAll T pieces).2.station := by
  induction pieces generalizing p with
  | nil => exact .refl
  | cons piece rest ih =>
      rw [carryAll_cons]
      split
      · exact (effects_of_carry p piece).trans (ih _)
      · exact effects_of_carry p piece

@[simp] theorem delivery_watch (p : Passage σ) (range : AddressRange) :
    (p.watch range).delivery = p.delivery := by
  unfold watch
  split
  · rfl
  · dsimp only
    split <;> rfl

@[simp] theorem delivery_ask (p : Passage σ) (range : AddressRange) (piece : Piece) :
    (p.ask T range piece).2.delivery = p.delivery := by
  unfold ask
  dsimp only
  split <;> rfl

/-- No piece of a transfer is answered with a window. -/
theorem grant_of_carry (p : Passage σ) (piece : Piece) :
    (p.carry T piece).2.delivery.grant = p.delivery.grant := by
  rcases carry_cases T p piece with ⟨cause, broken⟩ | ⟨range, -, ⟨cause, broken⟩ | ⟨-, moved⟩ |
    ⟨response, -, failed⟩⟩
  · rw [broken]
  · rw [broken, delivery_watch]
  · rw [moved, grant_count, delivery_ask, delivery_watch]
  · rw [failed, delivery_ask, delivery_watch]

theorem grant_of_carryAll (pieces : List Piece) (p : Passage σ) :
    (p.carryAll T pieces).2.delivery.grant = p.delivery.grant := by
  induction pieces generalizing p with
  | nil => rfl
  | cons piece rest ih =>
      rw [carryAll_cons]
      split
      · rw [ih, grant_of_carry]
      · exact grant_of_carry p piece

/-! ### The whole path -/

/-- **An accepted transaction breaks off before its first piece,** or it is refused by the monitor,
or it is carried out.  Then it breaks off in the middle or is concluded. -/
theorem perform_cases (T : Target σ) (p : Passage σ) (range : AddressRange) :
    (p.prepare range = none ∧ p.perform T range = (.error .endless, p)) ∨
      ∃ prepared, p.prepare range = some prepared ∧
        ((∃ e, prepared.admission = .error e ∧
            p.perform T range = (.error (.fault (.range e)), prepared)) ∨
          (prepared.admission = .ok none ∧
            p.perform T range = (.ok (), prepared.answer .commandError)) ∨
          ∃ admitted outcome carried, prepared.admission = .ok (some admitted) ∧
            admitted.carryAll T (plan admitted.tx.address admitted.tx.data.length
              admitted.tx.streamingWidth admitted.tx.byteEnable) = (outcome, carried) ∧
            ((∃ cause, outcome = .error cause ∧ p.perform T range = (.error cause, carried)) ∨
              ∃ response, outcome = .ok response ∧
                p.perform T range = (carried.answer response).conclude T)) := by
  unfold perform
  cases preparation : p.prepare range with
  | none => exact .inl ⟨rfl, rfl⟩
  | some prepared =>
      refine .inr ⟨prepared, rfl, ?_⟩
      dsimp only
      cases examined : prepared.admission with
      | error e => exact .inl ⟨e, rfl, rfl⟩
      | ok verdict =>
          cases verdict with
          | none => exact .inr (.inl ⟨rfl, rfl⟩)
          | some admitted =>
              refine .inr (.inr ⟨admitted, _, _, rfl, rfl, ?_⟩)
              dsimp only
              generalize admitted.carryAll T _ = ended
              obtain ⟨outcome, carried⟩ := ended
              cases outcome with
              | error cause => exact .inl ⟨cause, rfl, rfl⟩
              | ok response => exact .inr ⟨response, rfl, rfl⟩

/-- A reward is the answer to one request for a window. -/
theorem reward_cases (p : Passage σ) (range : AddressRange) :
    (p.tx.directAllowed = false ∧ p.reward T range = p) ∨
      (p.tx.directAllowed = true ∧ p.reward T range =
        { p with
          delivery := { p.delivery with
            grant := (p.station.grant T ⟨range, p.tx.command, p.tx.owner, p.tx.exclusive⟩).1 }
          station :=
            (p.station.grant T ⟨range, p.tx.command, p.tx.owner, p.tx.exclusive⟩).2 }) := by
  unfold reward
  split
  · next allowed => exact .inr ⟨allowed, rfl⟩
  · next refused => exact .inl ⟨Bool.not_eq_true _ ▸ refused, rfl⟩

/-- The end of a transfer whose buffer spans a range is its reward. -/
theorem conclude_eq {p : Passage σ} {range : AddressRange} (spans : p.tx.range = .ok range) :
    p.conclude T = (.ok (), p.reward T range) := by
  unfold conclude reward
  rw [spans]
  split
  · rfl
  · rfl

/-- **The end of a transfer leaves everything as it is,** or asks for one window. -/
theorem conclude_cases (T : Target σ) (p : Passage σ) :
    (p.conclude T).2 = p ∨ ∃ range, (p.conclude T).2 = p.reward T range := by
  unfold conclude
  split
  · split
    · exact .inl rfl
    · next range _ => exact .inr ⟨range, rfl⟩
  · exact .inl rfl

/-- A window that is granted at the end does not change the transaction. -/
theorem tx_reward (p : Passage σ) (range : AddressRange) : (p.reward T range).tx = p.tx := by
  rcases reward_cases (T := T) p range with ⟨-, kept⟩ | ⟨-, rewarded⟩
  · rw [kept]
  · rw [rewarded]

end Passage

/-- A transaction as it enters a gate. -/
def Passage.entering (s : Station σ) (tx : Transaction) : Passage σ :=
  ⟨{ tx with directAllowed := false }, .nothing, s⟩

namespace Station

variable {T : Target σ} {users : Set CacheId}

/-- **What becomes of a transaction:** it is a fault, or it is answered before it has any effect,
and for a reason, or it is performed. -/
theorem submit_cases (T : Target σ) (s : Station σ) (tx : Transaction) :
    ((tx.response ≠ .incomplete ∨ tx.data = []) ∧
        ∃ cause, s.submit T tx = (.error (.fault cause), ⟨tx, .nothing, s⟩)) ∨
      tx.response = .incomplete ∧ tx.data ≠ [] ∧
        ((∃ response, response ≠ .incomplete ∧ (response = .ok → tx.command = .ignore) ∧
            (∀ range, tx.range = .ok range → tx.command = .ignore ∨
              s.gate.config.accepts tx = false) ∧
            s.submit T tx = (.ok (), (Passage.entering s tx).answer response)) ∨
          ∃ range, tx.range = .ok range ∧ tx.command ≠ .ignore ∧
            s.gate.config.accepts tx = true ∧
            s.submit T tx = (Passage.entering s tx).perform T range) := by
  unfold submit
  split
  · next stale => exact .inl ⟨.inl stale, _, rfl⟩
  · next fresh =>
      split
      · next empty => exact .inl ⟨.inr empty, _, rfl⟩
      · next nonempty =>
          refine .inr ⟨not_ne_iff.1 fresh, nonempty, ?_⟩
          dsimp only
          cases spans : tx.range with
          | error e => exact .inl ⟨.addressError, by decide, by simp, by simp, rfl⟩
          | ok range =>
              dsimp only
              split
              · next idle => exact .inl ⟨.ok, by decide, fun _ => idle, fun _ _ => .inl idle, rfl⟩
              · next moves =>
                  split
                  · next accepted => exact .inr ⟨range, rfl, moves, accepted, rfl⟩
                  · next refused =>
                      exact .inl ⟨.commandError, by decide, by simp,
                        fun _ _ => .inr (Bool.not_eq_true _ ▸ refused), rfl⟩

/-- A transfer that is concluded is a sequence of effects, after which it may have asked for a
window. -/
theorem effects_of_conclude {s : Station σ} {p : Passage σ} (before : Effects T users s p.station)
    (ungranted : p.delivery.grant = none) :
    ∃ t, Effects T users s t ∧
      (((p.conclude T).2.delivery.grant = none ∧ (p.conclude T).2.station = t) ∨
        ∃ access, t.grant T access =
          ((p.conclude T).2.delivery.grant, (p.conclude T).2.station)) := by
  refine ⟨p.station, before, ?_⟩
  rcases Passage.conclude_cases T p with kept | ⟨range, asked⟩
  · rw [kept]
    exact .inl ⟨ungranted, rfl⟩
  · rw [asked]
    rcases Passage.reward_cases (T := T) p range with ⟨-, kept⟩ | ⟨-, rewarded⟩
    · rw [kept]
      exact .inl ⟨ungranted, rfl⟩
    · rw [rewarded]
      exact .inr ⟨_, rfl⟩

/-- **A transaction is a sequence of effects,** however it ends: without a window, or with the
answer to a request for one. -/
theorem effects_of_submit (T : Target σ) (users : Set CacheId) (s : Station σ) (tx : Transaction) :
    ∃ t, Effects T users s t ∧
      (((s.submit T tx).2.delivery.grant = none ∧ (s.submit T tx).2.station = t) ∨
        ∃ access, t.grant T access =
          ((s.submit T tx).2.delivery.grant, (s.submit T tx).2.station)) := by
  rcases submit_cases T s tx with ⟨-, cause, faulty⟩ | ⟨-, nonempty, ⟨response, -, -, -, answered⟩ |
    ⟨range, spans, -, accepted, performed⟩⟩
  · rw [faulty]
    exact ⟨s, .refl, .inl ⟨rfl, rfl⟩⟩
  · rw [answered]
    exact ⟨s, .refl, .inl ⟨rfl, rfl⟩⟩
  · rw [performed]
    rcases Passage.perform_cases T (Passage.entering s tx) range with ⟨-, endless⟩ |
      ⟨prepared, preparation, outcomes⟩
    · rw [endless]
      exact ⟨s, .refl, .inl ⟨rfl, rfl⟩⟩
    · have first : Effects T users s prepared.station := Passage.effects_of_prepare preparation
      have undelivered : prepared.delivery.grant = none := by
        rw [Passage.delivery_of_prepare preparation]
        rfl
      rcases outcomes with ⟨e, -, broken⟩ | ⟨-, refused⟩ | ⟨admitted, outcome, carried, admission,
        moved, ends⟩
      · rw [broken]
        exact ⟨_, first, .inl ⟨undelivered, rfl⟩⟩
      · rw [refused]
        exact ⟨_, first, .inl ⟨undelivered, rfl⟩⟩
      · -- admission, transfer, reward
        have before : Effects T users s admitted.station :=
          Passage.effects_of_admission accepted spans nonempty preparation admission
        have after : Effects T users s carried.station := by
          have moves : Effects T users admitted.station (admitted.carryAll T (plan
              admitted.tx.address admitted.tx.data.length admitted.tx.streamingWidth
              admitted.tx.byteEnable)).2.station :=
            Passage.effects_of_carryAll _ admitted
          rw [moved] at moves
          exact before.trans moves
        have ungranted : carried.delivery.grant = none := by
          have kept := Passage.grant_of_carryAll (T := T) (plan admitted.tx.address
            admitted.tx.data.length admitted.tx.streamingWidth admitted.tx.byteEnable) admitted
          rw [moved, Passage.delivery_of_admission admission, undelivered] at kept
          exact kept
        rcases ends with ⟨cause, -, broken⟩ | ⟨response, -, concluded⟩
        · rw [broken]
          exact ⟨_, after, .inl ⟨ungranted, rfl⟩⟩
        · rw [concluded]
          exact effects_of_conclude (p := carried.answer response) after ungranted

/-- A window that is granted at the end is one effect more. -/
theorem effects_of_passed (T : Target σ) (users : Set CacheId) (s : Station σ) (tx : Transaction) :
    Effects T users s (s.submit T tx).2.station := by
  obtain ⟨reached, effects, outcome⟩ := effects_of_submit T users s tx
  rcases outcome with ⟨-, same⟩ | ⟨access, granted⟩
  · rwa [same]
  · rw [show (s.submit T tx).2.station = (reached.grant T access).2 by rw [granted]]
    exact effects.tail (.grant reached access)

end Station

end Interconnect
