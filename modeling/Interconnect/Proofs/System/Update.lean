import Interconnect.Proofs.Gate.History
import Interconnect.Proofs.System.Direct

/-!
# No update is lost

Initiators that read a value exclusively, compute a new one, and write it back exclusively, may
share a memory without any other protection: a write back that succeeds replaces exactly the bytes
that were read.

## Main Definitions

* `System.Trace` — the accesses that initiators make before a gate, in any order

## Main Statements

* `Trace.accounted` — at all times every reservation is accounted for
* `exists_read_of_exclusive_write` — a successful write back replaces what was read
-/

namespace Interconnect

namespace System

/-- **The events before gate `id` to memory `m`** from its opening on, and the state that they lead
to: any initiators make any accesses but those for debugging. -/
inductive Trace (root : TargetId) (m : Memory) (config : GateConfig) (id : GateId) :
    List Event → System → Prop
  /-- The gate has just been opened. -/
  | opened {s : System} (opened : Opened root config id s) (memory : s.memory? root = some m) :
      Trace root m config id [] s
  /-- An initiator is made. -/
  | join {events : List Event} {s : System} (before : Trace root m config id events s)
      (owner : Owner) (limit : Option Nat) :
      Trace root m config id events (s.newInitiator owner limit).2
  /-- An initiator is allowed or forbidden the use of windows. -/
  | allow {events : List Event} {s : System} (before : Trace root m config id events s)
      (k : InitiatorId) (i : Initiator) (known : s.initiators.find? k = some i) (allowed : Bool) :
      Trace root m config id events (s.setAllowDirect k i allowed)
  /-- An initiator makes an access. -/
  | access {events : List Event} {s : System} (before : Trace root m config id events s)
      (k : InitiatorId) (i : Initiator) (known : s.initiators.find? k = some i)
      (connection : Connection) (connected : s.connections.find? id = some connection)
      (command : Command) (address : UInt64) (data : Bytes) (mode : AccessMode)
      (plain : mode.debug = false) (bytes : Bytes) (done : Completion) (t : System)
      (ended : s.access i id connection command address data mode = .ok ((bytes, done), t)) :
      Trace root m config id
        (events ++ [⟨i.owner, command, address, data, mode, bytes, done⟩]) t

variable {root : TargetId} {m : Memory} {config : GateConfig} {id : GateId} {s t : System}
  {events : List Event}

/-- A trace is a run. -/
theorem Trace.reachable (run : Trace root m config id events s) : Reachable root config id s := by
  induction run with
  | opened opened => exact ⟨_, opened, .refl⟩
  | join _ owner limit ih =>
      obtain ⟨start, opened, steps⟩ := ih
      exact ⟨start, opened, steps.tail (.join _ owner limit)⟩
  | allow _ k i known allowed ih =>
      obtain ⟨start, opened, steps⟩ := ih
      exact ⟨start, opened, steps.tail (.allow _ k i known allowed)⟩
  | access _ k i known connection connected command address data mode _ bytes done t ended ih =>
      obtain ⟨start, opened, steps⟩ := ih
      exact ⟨start, opened, steps.tail (.access _ k i known connection connected command address
        data mode (bytes, done) t ended)⟩

/-- A gate that has just been opened has no reservations. -/
theorem monitor_of_opened (opened : Opened root config id s) {connection : Connection}
    (connected : s.connections.find? id = some connection) : connection.gate.monitor = .empty := by
  obtain ⟨before, frequency, -, -, made⟩ := opened
  unfold openGate at made
  dsimp only at made
  split at made
  · cases made
  · cases made
    cases (Table.find?_insert_self _ _ _).symm.trans connected
    rfl

/-- **At all times the gate stands before the memory, and every reservation is accounted for.** -/
theorem Trace.accounted (run : Trace root m config id events s) :
    s.memory? root = some m ∧ ∀ connection, s.connections.find? id = some connection →
      Accounted m events s.world.storage connection.gate.monitor := by
  induction run with
  | opened opened memory =>
      refine ⟨memory, fun connection connected => ?_⟩
      rw [monitor_of_opened opened connected]
      exact .nil
  | join _ owner limit ih => exact ih
  | allow _ k i known allowed ih => exact ih
  | @access events s before k i known connection connected command address data mode plain bytes
      done t ended ih =>
      obtain ⟨memory, accounted⟩ := ih
      have found := memory?_eq_some_iff.1 memory
      have coherent := coherent_of_connected before.reachable connected
      obtain ⟨after, rfl, passed⟩ := exists_of_access ended
      rw [coherent.target] at passed
      have mirrors := Platform.mirrors_target found
      have used := mem_users known
      have placed := coherent.placed found used
      refine ⟨?_, fun connection' connected' => ?_⟩
      · obtain ⟨state, -⟩ := Initiator.access_cases_of_mirrors (s := s.station connection) mirrors
          placed plain passed
        rw [memory?_eq_some_iff, World.endpoint?]
        show after.world.state.endpoints.find? root = _
        rw [state]
        exact found
      · cases (Table.find?_insert_self _ _ _).symm.trans connected'
        exact Initiator.accounted_of_access (s := s.station connection) mirrors placed
          coherent.shielded used plain (accounted connection connected) passed

/-- **No update is lost.**  Where any two exclusive accesses cover the same addresses or none in
common, an exclusive write that succeeds follows an admitted exclusive read by the same owner of the
same addresses.  Since the latest of these reads nobody has written there, and just before the write
the memory holds the bytes that it returned. -/
theorem exists_read_of_exclusive_write (run : Trace root m config id events s) {k : InitiatorId}
    {i : Initiator} (known : s.initiators.find? k = some i) {connection : Connection}
    (connected : s.connections.find? id = some connection) {address : UInt64} {data : Bytes}
    {mode : AccessMode} (plain : mode.debug = false) (exclusive : mode.exclusive = true)
    {bytes : Bytes} {done : Completion}
    (ended : s.access i id connection .write address data mode = .ok ((bytes, done), t))
    (ok : done.response = .ok)
    (apart : ∀ e ∈ events, e.mode.exclusive = true → ∀ range other,
      AddressRange.ofSize address data.length = .ok range → e.Spans other →
        other = range ∨ other.overlaps range = false) :
    ∃ range, AddressRange.ofSize address data.length = .ok range ∧
      ∃ before read after, events = before ++ read :: after ∧ read.Reserves i.owner range ∧
        (∀ e ∈ after, ¬ e.Reserves i.owner range ∧ ¬ e.WritesTo range) ∧
        read.bytes = s.world.storage.load ((HostPointer.toBlock m.block).advance address)
          data.length := by
  obtain ⟨memory, accounted⟩ := run.accounted
  have found := memory?_eq_some_iff.1 memory
  have coherent := coherent_of_connected run.reachable connected
  obtain ⟨after, rfl, passed⟩ := exists_of_access ended
  rw [coherent.target] at passed
  have mirrors := Platform.mirrors_target found
  have placed := coherent.placed found (mem_users known)
  -- a write that succeeds has a range
  obtain ⟨range, made⟩ : ∃ range, AddressRange.ofSize address data.length = .ok range := by
    obtain ⟨-, ⟨-, -, idle⟩ | ⟨range, -, -, made, -⟩⟩ := Initiator.access_cases_of_mirrors
      (s := s.station connection) mirrors placed plain passed
    · cases idle ok
    · exact ⟨range, made⟩
  obtain ⟨read, ⟨before, later, split, reserves, since⟩, held⟩ :=
    Initiator.exists_lastRead_of_write (s := s.station connection) mirrors placed plain
      (accounted connection connected) passed exclusive ok made
      fun e member shared other => apart e member shared range other made
  exact ⟨range, made, before, read, later, split, reserves, since, held⟩

/-- A memory of sixteen bytes and two initiators: one reads four bytes exclusively, the other reads
some of them, and the first writes them back. -/
theorem exists_write_back :
    ∃ events s t m connection i bytes done, Trace 0 m .standard 0 events s ∧
      s.initiators.find? 0 = some i ∧ s.connections.find? 0 = some connection ∧
      s.access i 0 connection .write 4 [1, 2, 3, 4] ⟨false, true, false⟩ =
        .ok ((bytes, done), t) ∧ done.response = .ok ∧
      ∃ range, AddressRange.ofSize 4 ([1, 2, 3, 4] : Bytes).length = .ok range ∧
        ∃ before read after, events = before ++ read :: after ∧ read.Reserves i.owner range ∧
          (∀ e ∈ after, ¬ e.Reserves i.owner range ∧ ¬ e.WritesTo range) ∧
          read.bytes = s.world.storage.load ((HostPointer.toBlock m.block).advance 4)
            ([1, 2, 3, 4] : Bytes).length := by
  have built : Relation.ReflTransGen TargetStep empty _ :=
    .single (.newMemory empty (List.replicate 16 0) false false none)
  have opened : Opened 0 .standard 0 _ := ⟨_, none, built, ⟨_, rfl⟩, rfl⟩
  have two := ((Trace.opened opened rfl).join 7 none).join 9 none
  have reserved := two.access 0 _ rfl _ rfl .read 4 [0, 0, 0, 0] ⟨false, true, false⟩ rfl _ _ _ rfl
  have seen := reserved.access 1 _ rfl _ rfl .read 6 [0, 0] .plain rfl _ _ _ rfl
  refine ⟨_, _, _, _, _, _, _, _, seen, rfl, rfl, rfl, rfl,
    @exists_read_of_exclusive_write _ _ _ _ _ _ _ seen 0 _ rfl _ rfl 4 [1, 2, 3, 4]
      ⟨false, true, false⟩ rfl rfl _ _ rfl rfl ?_⟩
  rintro e member exclusive range other made ⟨-, spans⟩
  simp only [List.nil_append, List.cons_append, List.mem_cons, List.not_mem_nil, or_false] at member
  rcases member with rfl | rfl
  · exact .inl (Except.ok.inj (spans.symm.trans made))
  · cases exclusive

end System

end Interconnect
