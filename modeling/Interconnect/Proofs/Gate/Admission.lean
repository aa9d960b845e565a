import Interconnect.Proofs.Gate.Calls

/-!
# What a refused transaction leaves behind

A gate looks at a transaction in several places, and the monitor only after the transaction has been
prepared for its transfer.  Here the conditions are put side by side.  Unless all of them hold, the
transaction is answered with an error, and there is no other trace of it.

## Main Definitions

* `Monitor.ReservesFor` — what an exclusive write needs
* `Gate.Admits` — the conditions on which a transaction has an effect
* `Transaction.refused` — a transaction for which they do not hold

## Main Statements

* `Gate.admits_iff` — they are the rules of the gate and the say of its monitor
* `Station.submit_of_not_admits` — a transaction that is refused is given back
* `Station.refused_without_effect` — a transaction that is refused has no effect
-/

namespace Interconnect

universe u

/-! ### The conditions -/

namespace GateConfig

variable {c : GateConfig} {tx : Transaction}

theorem acceptsStreaming_iff :
    c.acceptsStreaming tx = true ↔ ∀ w, tx.streamingWidth = some w →
      w ∣ tx.data.length ∧ 1 ≤ w ∧ w ≤ tx.data.length ∧
        (c.streaming = false → w = tx.data.length) := by
  unfold acceptsStreaming
  cases tx.streamingWidth with
  | none => simp
  | some w =>
      simp only [Bool.and_eq_true, Bool.or_eq_true, beq_iff_eq, bne_iff_ne, decide_eq_true_eq,
        ← Nat.dvd_iff_mod_eq_zero, Option.some.injEq, forall_eq', ← Nat.pos_iff_ne_zero]
      constructor
      · rintro ⟨⟨⟨allowed, positive⟩, short⟩, divides⟩
        exact ⟨divides, positive, short, fun plain => allowed.resolve_right (by simp [plain])⟩
      · rintro ⟨divides, positive, short, allowed⟩
        refine ⟨⟨⟨?_, positive⟩, short⟩, divides⟩
        cases streaming : c.streaming with
        | true => exact .inr rfl
        | false => exact .inl (allowed streaming)

theorem acceptsMask_iff :
    c.acceptsMask tx = true ↔ ∀ mask, tx.byteEnable = some mask →
      c.byteEnable = true ∧ mask.length = tx.width := by
  unfold acceptsMask
  cases tx.byteEnable with
  | none => simp
  | some mask => simp

theorem acceptsSize_iff :
    c.acceptsSize tx = true ↔ ∀ limit, c.maxAccessSize = some limit → tx.width ≤ limit.toNat := by
  unfold acceptsSize
  cases c.maxAccessSize with
  | none => simp
  | some limit => simp

end GateConfig

/-- **Some address of a pulse is reserved** for the initiator of the transaction. -/
def Monitor.ReservesFor (m : Monitor) (tx : Transaction) : Prop :=
  ∃ r ∈ m.reservations, r.owner = tx.owner ∧ ∃ a ∈ r.range,
    tx.address.toNat ≤ a.toNat ∧ a.toNat < tx.address.toNat + tx.width

/-- The monitor looks for it in the range of a pulse. -/
theorem Monitor.holds_pulse_iff {m : Monitor} {tx : Transaction} {pulse : AddressRange}
    (made : AddressRange.ofSize tx.address tx.width = .ok pulse) (positive : tx.width ≠ 0) :
    m.holds tx.owner pulse = true ↔ m.ReservesFor tx := by
  simp only [Monitor.holds_eq_true_iff, AddressRange.overlaps_iff,
    AddressRange.mem_iff_of_ofSize_eq_ok made positive, ReservesFor]

/-- **The conditions on which a transaction has an effect.** -/
structure Gate.Admits (g : Gate) (tx : Transaction) : Prop where
  /-- The buffer does not run past the last address. -/
  fits : tx.address.toNat + (tx.data.length - 1) < UInt64.size
  /-- Pulses are as long as each other, and there is only one where streaming is not allowed. -/
  streaming : ∀ w, tx.streamingWidth = some w →
    w ∣ tx.data.length ∧ 1 ≤ w ∧ w ≤ tx.data.length ∧
      (g.config.streaming = false → w = tx.data.length)
  /-- A mask is allowed and as long as a pulse. -/
  mask : ∀ mask, tx.byteEnable = some mask →
    g.config.byteEnable = true ∧ mask.length = tx.width
  /-- A pulse is within the limit. -/
  size : ∀ limit, g.config.maxAccessSize = some limit → tx.width ≤ limit.toNat
  /-- A pulse is aligned. -/
  aligned : g.config.alignment.permits tx.address tx.width = true
  /-- An exclusive write has a reservation. -/
  reserved : tx.command = .write → tx.exclusive = true → tx.debug = false →
    g.monitor.ReservesFor tx

/-- A gate admits what keeps its rules and has the reservation that it needs. -/
theorem Gate.admits_iff {g : Gate} {tx : Transaction} :
    g.Admits tx ↔
      tx.address.toNat + (tx.data.length - 1) < UInt64.size ∧ g.config.accepts tx = true ∧
        (tx.command = .write → tx.exclusive = true → tx.debug = false →
          g.monitor.ReservesFor tx) := by
  simp only [GateConfig.accepts, Bool.and_eq_true, GateConfig.acceptsStreaming_iff,
    GateConfig.acceptsMask_iff, GateConfig.acceptsSize_iff]
  constructor
  · rintro ⟨fits, streaming, mask, size, aligned, reserved⟩
    exact ⟨fits, ⟨⟨⟨streaming, mask⟩, size⟩, aligned⟩, reserved⟩
  · rintro ⟨fits, ⟨⟨⟨streaming, mask⟩, size⟩, aligned⟩, reserved⟩
    exact ⟨fits, streaming, mask, size, aligned, reserved⟩

/-- **A transaction as it is given back when it is refused:** with an address error if its buffer
runs past the last address, and otherwise with a command error. -/
def Transaction.refused (tx : Transaction) : Transaction :=
  { tx with
    response := if tx.address.toNat + (tx.data.length - 1) < UInt64.size then .commandError
      else .addressError
    directAllowed := false }

/-- A buffer that fits spans a range. -/
theorem Transaction.exists_range_iff {tx : Transaction} (nonempty : tx.data ≠ []) :
    (∃ range, tx.range = .ok range) ↔
      tx.address.toNat + (tx.data.length - 1) < UInt64.size := by
  have positive : tx.data.length ≠ 0 := fun zero => nonempty (List.length_eq_zero_iff.1 zero)
  constructor
  · rintro ⟨range, spans⟩
    exact ((AddressRange.ofSize_eq_ok_iff positive).1 spans).1
  · intro fits
    cases made : tx.range with
    | ok range => exact ⟨range, rfl⟩
    | error e =>
        have := ((AddressRange.ofSize_eq_error_iff positive).1 made).1
        omega

/-! ### The refusal -/

namespace Passage

variable {σ : Type u} {T : Target σ} {p : Passage σ} {range : AddressRange}

/-- **An exclusive write without a reservation is refused** by the monitor, and nothing has been
done in preparation for it. -/
theorem perform_of_unreserved (accepted : p.station.gate.config.accepts p.tx = true)
    (spans : p.tx.range = .ok range) (nonempty : p.tx.data ≠ []) (write : p.tx.command = .write)
    (exclusive : p.tx.exclusive = true) (plain : p.tx.debug = false)
    (unreserved : ¬ p.station.gate.monitor.ReservesFor p.tx) :
    p.perform T range = (.ok (), p.answer .commandError) := by
  have prepared : p.prepare range = some p := by
    unfold prepare
    simp [write, exclusive]
  obtain ⟨pulse, made⟩ := exists_pulse accepted spans nonempty
  have positive := (width_of_accepts accepted nonempty).1
  have unheld : p.station.gate.monitor.holds p.tx.owner pulse = false := by
    rwa [Bool.eq_false_iff, ne_eq, Monitor.holds_pulse_iff made positive]
  have refused : p.station.gate.monitor.apply ⟨pulse, p.tx.command, p.tx.owner, true⟩ = none := by
    rw [Monitor.apply_eq_none_iff, Monitor.permits, unheld]
    simp [write]
  have examined : p.admission = .ok none := by
    rw [admission, exclusive, plain, made]
    simp [Except.map, refused]
  simp only [perform, prepared, examined]

end Passage

namespace Station

variable {σ : Type u} {T : Target σ} {s : Station σ} {tx : Transaction}

/-- **A transaction that is refused is given back,** and nothing else has happened. -/
theorem submit_of_not_admits (fresh : tx.response = .incomplete) (nonempty : tx.data ≠ [])
    (moves : tx.command ≠ .ignore) (refused : ¬ s.gate.Admits tx) :
    s.submit T tx = (.ok (), ⟨tx.refused, .nothing, s⟩) := by
  have fits := Transaction.exists_range_iff nonempty
  rw [Gate.admits_iff, ← fits] at refused
  unfold submit Transaction.refused
  rw [if_neg (not_not_intro fresh), if_neg nonempty]
  cases spans : tx.range with
  | error e =>
      rw [if_neg fun short => by simpa [spans] using fits.2 short]
      rfl
  | ok range =>
      rw [if_pos (fits.1 ⟨range, spans⟩)]
      dsimp only
      rw [if_neg moves]
      split
      · next accepted =>
          have unreserved : ¬ (tx.command = .write → tx.exclusive = true → tx.debug = false →
              s.gate.monitor.ReservesFor tx) :=
            fun reserved => refused ⟨⟨range, spans⟩, accepted, reserved⟩
          simp only [Classical.not_imp] at unreserved
          obtain ⟨write, exclusive, plain, unreserved⟩ := unreserved
          exact Passage.perform_of_unreserved (T := T) (p := Passage.entering s tx) accepted spans
            nonempty write exclusive plain unreserved
      · rfl

/-- So is a transaction that asks for nothing, and it is never marked for a window. -/
theorem submit_of_ignore (fresh : tx.response = .incomplete) (nonempty : tx.data ≠ [])
    (idle : tx.command = .ignore) :
    ∃ after, s.submit T tx = (.ok (), ⟨after, .nothing, s⟩) ∧ after.directAllowed = false := by
  rcases submit_cases T s tx with ⟨faulty, -⟩ | ⟨-, -, ⟨response, -, -, -, answered⟩ |
    ⟨range, -, moves, -⟩⟩
  · exact absurd faulty (not_or.2 ⟨not_not_intro fresh, nonempty⟩)
  · exact ⟨_, answered, rfl⟩
  · exact absurd idle moves

/-- No target is called for it. -/
theorem calls_of_not_admits (fresh : tx.response = .incomplete) (nonempty : tx.data ≠ [])
    (moves : tx.command ≠ .ignore) (refused : ¬ s.gate.Admits tx) : s.calls T tx = [] := by
  -- the target that keeps the record is called as little as the other
  have noted : s.recorded.submit T.noting tx = (.ok (), ⟨tx.refused, .nothing, s.recorded⟩) :=
    submit_of_not_admits fresh nonempty moves refused
  rw [calls_eq, noted]
  rfl

/-- **A transaction that is refused has no effect.**  The target is called, and the gate or any
cache changes, only if every condition holds.  Otherwise the transaction is given back with an error
and nothing is reported. -/
theorem refused_without_effect (fresh : tx.response = .incomplete) (nonempty : tx.data ≠ [])
    (moves : tx.command ≠ .ignore) :
    (s.calls T tx ≠ [] ∨ (s.transport T tx).2.2 ≠ s → s.gate.Admits tx) ∧
      (¬ s.gate.Admits tx →
        s.transport T tx = (.ok .nothing, tx.refused, s) ∧ s.calls T tx = []) := by
  have given : ¬ s.gate.Admits tx →
      s.transport T tx = (.ok .nothing, tx.refused, s) ∧ s.calls T tx = [] := by
    intro refused
    -- the target that keeps the record is called as little as the other
    have noted : s.recorded.submit T.noting tx = (.ok (), ⟨tx.refused, .nothing, s.recorded⟩) :=
      submit_of_not_admits fresh nonempty moves refused
    rw [transport_eq_of_submit (submit_of_not_admits fresh nonempty moves refused), calls_eq, noted]
    exact ⟨rfl, rfl⟩
  refine ⟨fun effect => ?_, given⟩
  by_contra refused
  obtain ⟨unchanged, uncalled⟩ := given refused
  rcases effect with called | changed
  · exact called uncalled
  · rw [unchanged] at changed
    exact changed rfl

/-- An exclusive write of two pulses, of which only every other byte takes part. -/
def maskedWrite : Transaction :=
  { Transaction.ofData .write 4 [1, 2, 3, 4] with
    byteEnable := some [1, 0], streamingWidth := some 2, exclusive := true }

/-- A gate before a memory of sixteen bytes, two of which another initiator has reserved. -/
def reservedForOther : Station Memory where
  gate := { (Gate.create .standard .empty).1 with
    monitor := Monitor.empty.reserve 7 ⟨4, 5, by decide⟩ }
  network := (Gate.create .standard .empty).2
  world := ⟨(StorageBank.empty.allocate (List.replicate 16 0)).2, .ofBlock 0⟩

/-- **A masked streaming write that breaks no rule** is refused when another initiator has the
reservation: no pulse of it reaches the memory, and the other keeps the reservation. -/
theorem exists_masked_write_refused :
    ∃ (s : Station Memory) (tx : Transaction), s.gate.config.accepts tx = true ∧
      tx.byteEnable = some [1, 0] ∧ tx.streamingWidth = some 2 ∧
      s.gate.monitor.reservations ≠ [] ∧ tx.refused.response = .commandError ∧
      s.transport Memory.target tx = (.ok .nothing, tx.refused, s) ∧
      s.calls Memory.target tx = [] := by
  have refused : ¬ reservedForOther.gate.Admits maskedWrite := by
    intro admits
    obtain ⟨r, held, owner, -⟩ := admits.reserved rfl rfl rfl
    rw [List.mem_singleton.1 held] at owner
    cases owner
  exact ⟨reservedForOther, maskedWrite, by decide, rfl, rfl, by decide, by decide,
    (refused_without_effect rfl (by decide) (by decide)).2 refused⟩

end Station

end Interconnect
