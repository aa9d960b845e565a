import Interconnect.Proofs.Gate.Transport

/-!
# Accesses to a memory

Before a gate to a memory, an access through a cached window and one through the gate come to the
same: the memory serves it.  The windows of the memory lead to the places of its block, so the bytes
that move are the same; they may be written only where the memory would store what is written; and
no reservation stands where a window leads, so the monitor has nothing to do.

## Main Definitions

* `Station.Placed` — the windows in a cache lead to the places of a memory
* `DirectWindow.LiesIn` — so does one window

## Main Statements

* `Initiator.exists_window_of_direct` — an access through a window is one that the memory serves
* `Initiator.access_cases_of_mirrors` — what becomes of an access
* `Initiator.exists_passage_of_direct` — the transaction instead of an access through a window
-/

namespace Interconnect

universe u

variable {σ : Type u}

/-- **The windows in a cache lead to the places of memory `m`,** and allow writes only if it stores
what is written. -/
def Station.Placed (m : Memory) (cache : CacheId) (s : Station σ) : Prop :=
  ∀ a q ptr, s.network.Offers cache a q ptr →
    a.toNat < (m.contents s.world.storage).length ∧
      ptr = (HostPointer.toBlock m.block).advance a ∧
      (q.allows .write = true → m.readOnly = false ∧ m.discardWrites = false)

/-- **The addresses of a window are places of memory `m`,** to which it points; it allows writes
only if the memory stores what is written. -/
def DirectWindow.LiesIn (w : DirectWindow) (m : Memory) (bank : StorageBank) : Prop :=
  ∀ a ∈ w.range, a.toNat < (m.contents bank).length ∧
    w.pointerFor a = (HostPointer.toBlock m.block).advance a ∧
    (w.permission.allows .write = true → m.readOnly = false ∧ m.discardWrites = false)

theorem Station.Placed.liesIn {m : Memory} {cache : CacheId} {s : Station σ}
    (h : s.Placed m cache) {w : DirectWindow} (cached : w ∈ (s.network.cache cache).windows) :
    w.LiesIn m s.world.storage :=
  fun a inside => h a _ _ (Network.offers_of_mem cached inside)

namespace Initiator

open Station

variable {T : Target σ} {m : Memory} {s t : Station σ} {i : Initiator} {command : Command}
  {address : UInt64} {data : Bytes} {mode : AccessMode} {bytes : Bytes} {done : Completion}

/-- The buffer of the transaction that stands for an access. -/
theorem data_transaction (i : Initiator) (command : Command) (address : UInt64) (data : Bytes)
    (mode : AccessMode) :
    (i.transaction command address data mode).data =
      if command = .write then data else List.replicate data.length 0 := rfl

@[simp] theorem length_data_transaction (i : Initiator) (command : Command) (address : UInt64)
    (data : Bytes) (mode : AccessMode) :
    (i.transaction command address data mode).data.length = data.length := by
  rw [data_transaction]
  split <;> simp

theorem range_transaction (i : Initiator) (command : Command) (address : UInt64) (data : Bytes)
    (mode : AccessMode) :
    (i.transaction command address data mode).range = AddressRange.ofSize address data.length := by
  rw [Transaction.range, length_data_transaction]
  rfl

theorem contiguous_transaction (i : Initiator) (command : Command) (address : UInt64)
    (data : Bytes) (mode : AccessMode) : (i.transaction command address data mode).Contiguous :=
  ⟨rfl, rfl⟩

/-- A range between two places of a memory lies within it. -/
theorem holds_of_contains {w : DirectWindow} {range : AddressRange} {size : Nat}
    (made : AddressRange.ofSize address size = .ok range) (positive : size ≠ 0)
    (contains : w.range.contains range = true) (lies : w.LiesIn m s.world.storage) :
    m.holds s.world.storage range = true := by
  simp only [AddressRange.contains, Bool.and_eq_true, AddressRange.includes_eq_true_iff] at contains
  exact Memory.holds_of_last_lt (AddressRange.start_le_last_of_ofSize_eq_ok made positive)
    (lies _ contains.2).1

/-- **An access through a window is one that the memory serves.** -/
theorem serve_eq_direct {w : DirectWindow} (lies : w.LiesIn m s.world.storage)
    {range : AddressRange} (made : AddressRange.ofSize address data.length = .ok range)
    (positive : data.length ≠ 0) (inside : address ∈ w.range)
    (contains : w.range.contains range = true)
    (allows : w.permission.allows (if mode.debug then .read else command) = true)
    (moves : command ≠ .ignore) (net : Network) :
    m.serve s.world.storage command range mode.debug
        (i.transaction command address data mode).data =
      (.ok, (direct command (w.pointerFor address) data { s with network := net }).1,
        (direct command (w.pointerFor address) data
          { s with network := net }).2.2.world.storage) := by
  have holds : m.holds s.world.storage range = true :=
    holds_of_contains made positive contains lies
  obtain ⟨-, pointer, writable⟩ := lies _ inside
  obtain ⟨-, start, -⟩ := (AddressRange.ofSize_eq_ok_iff positive).1 made
  rw [pointer]
  -- a debug write may go through a window for reads, but then even a read-only memory stores it
  cases command with
  | read =>
      have answer := Memory.read_replicate_zero holds data.length
      rw [start] at answer
      simp [Memory.serve, data_transaction, answer, direct]
  | write =>
      have stored :
          (!mode.debug && m.readOnly) = false ∧ (!mode.debug && m.discardWrites) = false := by
        cases debug : mode.debug with
        | true => simp
        | false =>
            rw [debug] at allows
            obtain ⟨writes, keeps⟩ := writable allows
            simp [writes, keeps]
      simp [Memory.serve, Memory.write, data_transaction, holds, stored, direct, start,
        StorageBank.store, HostPointer.toBlock, HostPointer.advance, Memory.contents]
  | ignore => exact absurd rfl moves

/-! ### What becomes of an access -/

/-- Keeping a window changes caches only. -/
theorem keep_eq (i : Initiator) (granted : Option DirectWindow) (mode : AccessMode)
    (s : Station σ) : (i.keep granted mode s).gate = s.gate ∧
      (i.keep granted mode s).world = s.world := by
  unfold keep
  split
  · exact ⟨rfl, rfl⟩
  · split
    · exact ⟨rfl, rfl⟩
    · exact ⟨rfl, rfl⟩

/-- An access through a window changes storage only. -/
theorem direct_eq (command : Command) (ptr : HostPointer) (data : Bytes) (s : Station σ) :
    (direct command ptr data s).2.1 = ⟨.ok, data.length, true⟩ ∧
      (direct command ptr data s).2.2.gate = s.gate ∧
      (direct command ptr data s).2.2.world.state = s.world.state := by
  cases command with
  | read => exact ⟨rfl, rfl, rfl⟩
  | write => exact ⟨rfl, rfl, rfl⟩
  | ignore => exact ⟨rfl, rfl, rfl⟩

/-- **What an access through a window comes to:** the gate sees nothing, and the memory in which the
window lies serves it. -/
theorem exists_window_of_direct {ptr : HostPointer}
    (found : (i.shortcut command address data.length mode s.network).1 = some ptr)
    (moves : command ≠ .ignore)
    (moved : (bytes, done, t) = direct command ptr data
      { s with network := (i.shortcut command address data.length mode s.network).2 }) :
    mode.exclusive = false ∧ data.length ≠ 0 ∧ done = ⟨.ok, data.length, true⟩ ∧
      t.gate = s.gate ∧ t.world.state = s.world.state ∧
      ∃ range, AddressRange.ofSize address data.length = .ok range ∧
        ∃ w ∈ (s.network.cache i.cache).windows, address ∈ w.range ∧
          w.range.contains range = true ∧ ∀ m : Memory, w.LiesIn m s.world.storage →
            m.serve s.world.storage command range mode.debug
              (i.transaction command address data mode).data = (.ok, bytes, t.world.storage) := by
  obtain ⟨exclusive, -, positive, range, made, w, cached, inside, contains, allows, rfl⟩ :=
    exists_of_shortcut found
  obtain ⟨outcome, gate, state⟩ := direct_eq command (w.pointerFor address) data
    { s with network := (i.shortcut command address data.length mode s.network).2 }
  have served := fun (m : Memory) (lies : w.LiesIn m s.world.storage) =>
    serve_eq_direct lies (i := i) made positive inside contains allows moves
      (i.shortcut command address data.length mode s.network).2
  simp only [← moved] at outcome gate state served
  exact ⟨exclusive, positive, outcome, gate, state, range, made, w, cached, inside, contains,
    served⟩

/-- **An access through the gate** has no effect, or comes through the monitor to the memory. -/
theorem throughGate_cases_of_mirrors (mirrors : T.Mirrors m s.world.state)
    (h : i.throughGate T command address data mode s = .ok (bytes, done, t)) :
    t.world.state = s.world.state ∧
      ((t.gate.monitor = s.gate.monitor ∧ t.world.storage = s.world.storage ∧
          (done.response = .ok → command = .ignore)) ∨
        ∃ range buffer, data.length ≠ 0 ∧ AddressRange.ofSize address data.length = .ok range ∧
          command ≠ .ignore ∧
          (done.response, buffer, t.world.storage) =
            m.serve s.world.storage command range mode.debug
              (i.transaction command address data mode).data ∧
          (command = .read → bytes = buffer) ∧
          (Passage.entering s (i.transaction command address data mode)).verdict range =
            some t.gate.monitor) := by
  obtain ⟨p, submitted, rfl, rfl, rfl⟩ := throughGate_eq_ok_iff.1 h
  obtain ⟨gate, world⟩ := keep_eq i p.delivery.grant mode p.station
  rw [gate, world]
  rcases submit_cases_of_contiguous mirrors
    (contiguous_transaction i command address data mode) submitted with ⟨same, -, idle, -⟩ |
      ⟨range, nonempty, spans, moves, ⟨-, refused, -, monitor, same⟩ |
        ⟨admitted, served, state, -⟩⟩
  · rw [same]
    exact ⟨rfl, .inl ⟨rfl, rfl, idle⟩⟩
  · rw [same, monitor]
    exact ⟨rfl, .inl ⟨rfl, rfl, fun ok => by cases refused.symm.trans ok⟩⟩
  · have positive : data.length ≠ 0 := fun zero => nonempty (List.length_eq_zero_iff.1
      ((length_data_transaction i command address data mode).trans zero))
    have made := range_transaction i command address data mode ▸ spans
    exact ⟨state, .inr ⟨range, p.tx.data, positive, made, moves, served, fun reads => if_pos reads,
      admitted⟩⟩

/-- **An access that is made for no debugging** has no effect, or comes through a window or the
monitor to the memory. -/
theorem access_cases_of_mirrors (mirrors : T.Mirrors m s.world.state) (placed : s.Placed m i.cache)
    (plain : mode.debug = false)
    (h : i.access T command address data mode s = .ok (bytes, done, t)) :
    t.world.state = s.world.state ∧
      ((t.gate.monitor = s.gate.monitor ∧ t.world.storage = s.world.storage ∧
          (done.response = .ok → command = .ignore)) ∨
        ∃ range buffer, data.length ≠ 0 ∧ AddressRange.ofSize address data.length = .ok range ∧
          command ≠ .ignore ∧
          (done.response, buffer, t.world.storage) =
            m.serve s.world.storage command range false
              (i.transaction command address data mode).data ∧
          (command = .read → bytes = buffer) ∧
          (s.gate.monitor.apply ⟨range, command, i.owner, mode.exclusive⟩ = some t.gate.monitor ∨
            mode.exclusive = false ∧ t.gate.monitor = s.gate.monitor ∧
              ∃ w ∈ (s.network.cache i.cache).windows, w.range.contains range = true)) := by
  rcases access_cases h with ⟨ptr, found, moves, moved⟩ | ⟨net, -, passed⟩
  · obtain ⟨exclusive, positive, rfl, gate, state, range, made, w, cached, -, contains, serves⟩ :=
      exists_window_of_direct found moves moved
    have served := serves m (placed.liesIn cached)
    refine ⟨state, .inr ⟨range, bytes, positive, made, moves, ?_, fun _ => rfl,
      .inr ⟨exclusive, ?_, w, cached, contains⟩⟩⟩
    · rw [← plain, served]
    · exact congrArg Gate.monitor gate
  · obtain ⟨state, idle | ⟨range, buffer, positive, made, moves, served, read, admitted⟩⟩ :=
      throughGate_cases_of_mirrors (s := { s with network := net }) mirrors passed
    · exact ⟨state, .inl idle⟩
    · refine ⟨state, .inr ⟨range, buffer, positive, made, moves, ?_, read, .inl ?_⟩⟩
      · rw [← plain]
        exact served
      · rw [← admitted]
        exact (if_neg (by simp [Passage.entering, transaction, plain])).symm

/-! ### The transaction instead -/

/-- A gate without limits accepts every contiguous transaction. -/
theorem accepts_transaction {config : GateConfig} (unlimited : config.maxAccessSize = none)
    (free : config.alignment = .unrestricted) (i : Initiator) (command : Command) (address : UInt64)
    (data : Bytes) (mode : AccessMode) :
    config.accepts (i.transaction command address data mode) = true := by
  simp [GateConfig.accepts, GateConfig.acceptsStreaming, GateConfig.acceptsMask,
    GateConfig.acceptsSize, unlimited, free, Alignment.permits, transaction, Transaction.ofData]

/-- **Where no reservation stands, the monitor has nothing to do,** whether or not it looks. -/
theorem verdict_eq_of_apart {range : AddressRange} (exclusive : mode.exclusive = false)
    (apart : ∀ r ∈ s.gate.monitor.reservations, r.range.overlaps range = false) :
    (Passage.entering s (i.transaction command address data mode)).verdict range =
      some s.gate.monitor := by
  rw [Passage.verdict]
  split
  · rfl
  · have plain : (i.transaction command address data mode).exclusive = false := exclusive
    show s.gate.monitor.apply ⟨range, command, i.owner,
      (i.transaction command address data mode).exclusive⟩ = _
    rw [plain, Monitor.apply_of_not_exclusive, Monitor.breakRange_eq_self apart, ite_self]

/-- **Where an initiator goes through a window, the transaction would have done the same,** and
would have left the reservations as they are. -/
theorem exists_passage_of_direct (mirrors : T.Mirrors m s.world.state) (placed : s.Placed m i.cache)
    (unreserved : ∀ a q ptr, s.network.Offers i.cache a q ptr →
      ∀ r ∈ s.gate.monitor.reservations, a ∉ r.range)
    (unlimited : s.gate.config.maxAccessSize = none)
    (free : s.gate.config.alignment = .unrestricted)
    (h : i.access T command address data mode s = .ok (bytes, done, t))
    (direct : done.direct = true) :
    ∃ p, s.submit T (i.transaction command address data mode) = (.ok (), p) ∧
      p.tx.response = .ok ∧ done.response = .ok ∧ p.delivery.bytes = done.bytes ∧
      (command = .read → p.tx.data = bytes) ∧ p.station.world = t.world ∧
      p.station.gate.monitor = s.gate.monitor ∧ t.gate = s.gate := by
  rcases access_cases h with ⟨ptr, found, moves, moved⟩ | ⟨net, -, passed⟩
  · obtain ⟨exclusive, positive, rfl, gate, state, range, made, w, cached, -, contains, serves⟩ :=
      exists_window_of_direct found moves moved
    have served := serves m (placed.liesIn cached)
    have spans := (range_transaction i command address data mode).trans made
    have nonempty : (i.transaction command address data mode).data ≠ [] := fun hollow =>
      positive (by rw [← length_data_transaction i command address data mode, hollow]; rfl)
    obtain ⟨p, submitted, -⟩ := exists_submit T s rfl nonempty
      (contiguous_transaction i command address data mode) exclusive
    refine ⟨p, submitted, ?_⟩
    rcases submit_cases_of_contiguous mirrors (contiguous_transaction i command address data mode)
      submitted with ⟨-, -, -, reason⟩ | ⟨range', -, spans', -, passed⟩
    · rcases reason range spans with idle | refused
      · exact absurd idle moves
      · rw [accepts_transaction unlimited free] at refused
        cases refused
    · cases Except.ok.inj (spans.symm.trans spans')
      -- no reservation stands where the window leads
      have apart : ∀ r ∈ s.gate.monitor.reservations, r.range.overlaps range = false := by
        intro r stands
        rw [AddressRange.overlaps_comm, AddressRange.overlaps_eq_false_iff]
        exact fun a inside => unreserved a _ _ (Network.offers_of_mem cached
          (AddressRange.mem_of_contains contains inside)) r stands
      rw [verdict_eq_of_apart exclusive apart] at passed
      rcases passed with ⟨vetoed, -⟩ | ⟨kept, answered, same, moved'⟩
      · cases vetoed
      · have answer := answered.trans served
        simp only [Prod.mk.injEq] at answer
        obtain ⟨ok, buffer, storage⟩ := answer
        refine ⟨ok, rfl, ?_, fun _ => buffer, ?_, (Option.some.inj kept).symm, gate⟩
        · rw [moved', if_pos ok, length_data_transaction]
        · exact World.ext storage (same.trans state.symm)
  · rw [direct_of_throughGate passed] at direct
    cases direct

end Initiator

end Interconnect
