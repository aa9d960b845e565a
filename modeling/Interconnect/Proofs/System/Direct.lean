import Interconnect.Proofs.Gate.Shortcut
import Interconnect.Proofs.System.Coherence

/-!
# Accesses before a gate to a memory

Where the target of a gate is a memory, the windows of the initiators lead to the places of that
memory, in every state that the system can come to.

## Main Statements

* `Platform.mirrors_target` — the number of a memory answers as the memory does
* `Coherent.placed` — cached windows lead to the places of the memory
* `exists_submit_of_direct` — an access through a window does what the transaction would have done
-/

namespace Interconnect

namespace Platform

/-- **What the number of a memory stands for answers as the memory does.** -/
theorem mirrors_answering {world : World Platform} {id : TargetId} {m : Memory}
    (found : world.endpoint? id = some (.memory m)) (targets : TargetId → Target Platform) :
    (answering targets id).Mirrors m world.state := by
  have known : ∀ {w : World Platform}, w.state = world.state →
      w.endpoint? id = some (.memory m) := by
    intro w same
    rw [World.endpoint?, same]
    exact found
  exact ⟨fun _ _ _ _ same => read_answering_memory (known same) _ _ _,
    fun _ _ _ _ same => write_answering_memory (known same) _ _ _,
    fun _ _ _ same => window_answering_memory (known same) _ _⟩

/-- **The number of a memory answers as the memory does.** -/
theorem mirrors_target {world : World Platform} {root : TargetId} {m : Memory}
    (found : world.endpoint? root = some (.memory m)) :
    (target world.state.endpoints.entries.length root).Mirrors m world.state := by
  obtain ⟨depth, succ⟩ := Nat.exists_eq_succ_of_ne_zero
    (List.length_pos_of_mem (Table.mem_entries_of_find? found)).ne'
  rw [succ, Nat.succ_eq_add_one, target_succ]
  exact mirrors_answering found _

end Platform

namespace System

variable {root : TargetId} {config : GateConfig} {id : GateId} {s t : System} {c : Connection}
  {m : Memory}

/-- **Cached windows lead to the places of the memory that the gate stands before.** -/
theorem Coherent.placed (h : Coherent root config id s c)
    (found : s.world.endpoint? root = some (.memory m)) {cache : CacheId} (used : cache ∈ s.users) :
    (s.station c).Placed m cache :=
  fun a q ptr offered => (h.backed.kept cache used a q ptr offered).of_memory found

/-- **Where an initiator goes through a window, the transaction would have done the same:** the same
response, the same number of bytes, the same bytes, and the same world behind the gate.  Either way
the reservations stay as they are. -/
theorem exists_submit_of_direct (h : Reachable root config id s)
    (unlimited : config.maxAccessSize = none) (free : config.alignment = .unrestricted)
    (memory : s.memory? root = some m) {connection : Connection}
    (connected : s.connections.find? id = some connection) {k : InitiatorId} {i : Initiator}
    (known : s.initiators.find? k = some i) {command : Command} {address : UInt64} {data : Bytes}
    {mode : AccessMode} {bytes : Bytes} {done : Completion}
    (ended : s.access i id connection command address data mode = .ok ((bytes, done), t))
    (direct : done.direct = true) :
    ∃ tx delivery u,
      s.submit id connection (i.transaction command address data mode) = (.ok (tx, delivery), u) ∧
      tx.response = .ok ∧ done.response = .ok ∧ delivery.bytes = done.bytes ∧
      (command = .read → tx.data = bytes) ∧ u.world = t.world ∧
      (∃ after, u.connections.find? id = some after ∧
        after.gate.monitor = connection.gate.monitor) ∧
      ∃ after, t.connections.find? id = some after ∧
        after.gate.monitor = connection.gate.monitor := by
  have coherent := coherent_of_connected h connected
  have found := memory?_eq_some_iff.1 memory
  obtain ⟨after, rfl, passed⟩ := exists_of_access ended
  rw [coherent.target] at passed
  have used := mem_users known
  obtain ⟨p, submitted, ok, ok', moved, read, world, monitor, gate⟩ :=
    Initiator.exists_passage_of_direct (s := s.station connection) (Platform.mirrors_target found)
      (coherent.placed found used) (coherent.shielded.unreserved i.cache used)
      (coherent.config.symm ▸ unlimited) (coherent.config.symm ▸ free) passed direct
  refine ⟨p.tx, p.delivery, s.putStation id connection p.station, ?_, ok, ok', moved, read, world,
    ⟨_, Table.find?_insert_self _ _ _, monitor⟩,
    ⟨_, Table.find?_insert_self _ _ _, congrArg Gate.monitor gate⟩⟩
  rw [← coherent.target] at submitted
  exact submit_eq_ok_iff.2 ⟨p, submitted, rfl, rfl, rfl⟩

/-- A memory of sixteen bytes: a read brings a window, through which the next write goes. -/
theorem exists_direct_write :
    ∃ s t connection i bytes done, Reachable 0 .standard 0 s ∧
      s.initiators.find? 0 = some i ∧ s.connections.find? 0 = some connection ∧
      s.access i 0 connection .write 4 [1, 2] .plain = .ok ((bytes, done), t) ∧
      done.direct = true ∧ ∃ tx delivery u,
        s.submit 0 connection (i.transaction .write 4 [1, 2] .plain) = (.ok (tx, delivery), u) ∧
        tx.response = .ok ∧ done.response = .ok ∧ delivery.bytes = done.bytes ∧
        (Command.write = .read → tx.data = bytes) ∧ u.world = t.world ∧
        (∃ after, u.connections.find? 0 = some after ∧
          after.gate.monitor = connection.gate.monitor) ∧
        ∃ after, t.connections.find? 0 = some after ∧
          after.gate.monitor = connection.gate.monitor := by
  have built : Relation.ReflTransGen TargetStep empty _ :=
    .single (.newMemory empty (List.replicate 16 0) false false none)
  have opened : Opened 0 .standard 0 _ := ⟨_, none, built, ⟨_, rfl⟩, rfl⟩
  have run : Reachable 0 .standard 0 _ :=
    ⟨_, opened, (Relation.ReflTransGen.single (.join _ 7 none)).tail
      (.access _ 0 _ rfl _ rfl .read 0 [0, 0] .plain _ _ rfl)⟩
  exact ⟨_, _, _, _, _, _, run, rfl, rfl, rfl, rfl,
    exists_submit_of_direct run rfl rfl rfl rfl (k := 0) rfl rfl rfl⟩

end System

end Interconnect
