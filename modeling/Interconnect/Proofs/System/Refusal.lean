import Interconnect.Proofs.Gate.Response
import Interconnect.Proofs.System.Direct

/-!
# Refusals and cached windows

Before a gate to a memory, or to a bus of memories, an initiator whose access goes through the gate
is told of every error that the transaction would be answered with.  Through a window it is not told
of two kinds: the rules of the gate are not applied there, and a window may reach over the end of a
mapping, because windows are joined wherever one goes on where the other ends.

## Main Definitions

* `System.showsMemory` — a memory, or a bus that shows nothing but memories
* `System.Heeds` — every error comes to the initiator, whatever it has cached
* `System.Overruns` — a range that runs past the end of the mapping it starts in
* `System.Permits` — a range of which every byte is memory that permits the command

## Main Statements

* `answer_of_backed` — where every byte is backed, only a mapping's end is in the way
* `refused_or_direct` — an access is refused as the transaction would be, or has gone through a
  window past the rules of the gate or past the end of a mapping
-/

namespace Interconnect

/-- **A memory carries out a command on a range** over which it is backed. -/
theorem Target.Mirrors.answer_eq_ok {T : Target Platform} {m : Memory} {w : World Platform}
    (mirrors : T.Mirrors m w.state) {command : Command} {range : AddressRange}
    (ordered : range.start ≤ range.last)
    (inside : range.last.toNat < (m.contents w.storage).length)
    (stores : command = .write → m.readOnly = false ∧ m.discardWrites = false)
    (attributes : Attributes) (data : Bytes) : T.answer command range attributes data w = .ok := by
  have served := Memory.serve_eq_ok (Memory.holds_of_last_lt ordered inside) stores attributes.debug
    data
  cases command with
  | read =>
      rw [Target.answer, mirrors.read _ _ _ _ rfl]
      exact served
  | write =>
      rw [Target.answer, mirrors.write _ _ _ _ rfl]
      exact served
  | ignore => rfl

namespace Platform

variable {targets : TargetId → Target Platform} {w : World Platform} {id : TargetId} {b : Bus}
  {command : Command} {range : AddressRange}

/-- A bus answers as the target that it passes a range on to. -/
theorem answer_of_route (found : w.endpoint? id = some (.bus b)) {n : Mapping}
    {place : AddressRange} (routed : b.route range = some (n, place)) (attributes : Attributes)
    (data : Bytes) :
    (answering targets id).answer command range attributes data w =
      (targets n.target).answer command place attributes data w := by
  cases command with
  | read => simp [Target.answer, read_answering_bus found, BusOver.target, routed]
  | write => simp [Target.answer, write_answering_bus found, BusOver.target, routed]
  | ignore => rfl

/-- A bus refuses a range that it passes on to nobody. -/
theorem answer_of_not_route (found : w.endpoint? id = some (.bus b))
    (unrouted : b.route range = none) (moves : command ≠ .ignore) (attributes : Attributes)
    (data : Bytes) :
    (answering targets id).answer command range attributes data w = .addressError := by
  cases command with
  | read => simp [Target.answer, read_answering_bus found, BusOver.target, unrouted]
  | write => simp [Target.answer, write_answering_bus found, BusOver.target, unrouted]
  | ignore => exact absurd rfl moves

end Platform

namespace System

variable {root : TargetId} {config : GateConfig} {id : GateId} {s : System} {range : AddressRange}

/-- **Whether the target is a memory, or a bus that shows nothing but memories.** -/
def showsMemory (s : System) (root : TargetId) : Bool :=
  match s.bus? root with
  | some b => b.mappings.all fun n => (s.memory? n.target).isSome
  | none => (s.memory? root).isSome

/-- **The range runs past the end of the mapping that it starts in.** -/
def Overruns (s : System) (root : TargetId) (range : AddressRange) : Prop :=
  ∃ b n, s.bus? root = some b ∧ n ∈ b.mappings ∧ range.start ∈ n.range ∧
    n.range.contains range = false

/-- **Every error that a transaction would be answered with comes to the initiator,** whatever
windows it has cached. -/
def Heeds (s : System) (id : GateId) : Prop :=
  ∀ connection k i command address data tx delivery u, s.connections.find? id = some connection →
    s.initiators.find? k = some i → command ≠ .ignore →
    s.submit id connection (i.transaction command address data .plain) = (.ok (tx, delivery), u) →
    tx.response ≠ .ok → ∃ bytes done t,
      s.access i id connection command address data .plain = .ok ((bytes, done), t) ∧
        done.response = tx.response

/-- **Every byte of the range is memory that permits the command.** -/
def Permits (s : System) (root : TargetId) (range : AddressRange) (command : Command) : Prop :=
  ∀ a ∈ range, ∃ q p, s.world.Backs root a q p ∧ q.allows command = true

theorem memory_or_bus_of_showsMemory (h : s.showsMemory root = true) :
    (∃ m, s.memory? root = some m) ∨
      ∃ b, s.bus? root = some b ∧ ∀ n ∈ b.mappings, ∃ m, s.memory? n.target = some m := by
  unfold showsMemory at h
  split at h
  · next b bus =>
      rw [List.all_eq_true] at h
      exact .inr ⟨b, bus, fun n shown => Option.isSome_iff_exists.1 (h n shown)⟩
  · exact .inl (Option.isSome_iff_exists.1 h)

/-- Before a bus with a memory behind it there are two targets at least. -/
theorem exists_target_eq {b : Bus} (found : s.world.endpoint? root = some (.bus b))
    {other : TargetId} {m : Memory} (behind : s.world.endpoint? other = some (.memory m)) :
    ∃ depth,
      s.target root = Platform.answering (Platform.answering (Platform.target depth)) root := by
  have bus := Table.mem_entries_of_find? found
  have memory := Table.mem_entries_of_find? behind
  unfold target
  cases entries : s.world.state.endpoints.entries with
  | nil =>
      rw [entries] at bus
      cases bus
  | cons first rest =>
      cases rest with
      | nil =>
          rw [entries, List.mem_singleton] at bus memory
          cases bus.trans memory.symm
      | cons second rest => exact ⟨rest.length, rfl⟩

/-- **A bus of memories answers a command on a range** whose bytes are backed, unless the range
runs past the end of a mapping. -/
theorem answer_of_backed_bus {b : Bus} (found : s.world.endpoint? root = some (.bus b))
    (apart : b.Ordered) (flat : ∀ n ∈ b.mappings, ∃ m, s.memory? n.target = some m)
    {command : Command} (permits : s.Permits root range command)
    (ordered : range.start ≤ range.last) (moves : command ≠ .ignore) (attributes : Attributes)
    (data : Bytes) :
    (s.target root).answer command range attributes data s.world = .ok ∨
      (s.target root).answer command range attributes data s.world = .addressError ∧
        s.Overruns root range := by
  obtain ⟨q, p, backed, -⟩ := permits range.start ⟨UInt64.le_refl _, ordered⟩
  obtain ⟨n, shown, inside, -⟩ := backed.of_bus apart found
  obtain ⟨m, memory⟩ := flat n shown
  have behind := memory?_eq_some_iff.1 memory
  obtain ⟨depth, same⟩ := exists_target_eq found behind
  cases contains : n.range.contains range with
  | true =>
      obtain ⟨place, routed, start, last⟩ := apart.exists_route_of_contains shown ordered contains
      rw [same, Platform.answer_of_route found routed]
      -- the last address is backed through the same mapping
      have final : range.last ∈ n.range := by
        simp only [AddressRange.contains, Bool.and_eq_true, AddressRange.includes_eq_true_iff]
          at contains
        exact contains.2
      obtain ⟨q, p, backed, allows⟩ := permits range.last ⟨ordered, UInt64.le_refl _⟩
      obtain ⟨n', shown', final', backed⟩ := backed.of_bus apart found
      cases Option.some.inj ((apart.find?_eq_some_iff.2 ⟨shown, final⟩).symm.trans
        (apart.find?_eq_some_iff.2 ⟨shown', final'⟩))
      obtain ⟨within, -, writable⟩ := backed.of_memory behind
      refine .inl ((Platform.mirrors_answering behind _).answer_eq_ok ?_ (last ▸ within) ?_
        attributes data)
      · rw [start, last]
        exact Mapping.behind_le_behind inside final ordered
      · rintro rfl
        exact writable allows
  | false =>
      have unrouted := apart.route_eq_none_of_not_contains shown inside contains
      rw [same, Platform.answer_of_not_route found unrouted moves]
      exact .inr ⟨rfl, b, n, bus?_eq_some_iff.2 found, shown, inside, contains⟩

/-- **Where every byte is backed, only the end of a mapping is in the way of a command.** -/
theorem answer_of_backed (wired : s.Wired) (shows : s.showsMemory root = true) {command : Command}
    (permits : s.Permits root range command) (ordered : range.start ≤ range.last)
    (moves : command ≠ .ignore) (attributes : Attributes) (data : Bytes) :
    (s.target root).answer command range attributes data s.world = .ok ∨
      (s.target root).answer command range attributes data s.world = .addressError ∧
        s.Overruns root range := by
  rcases memory_or_bus_of_showsMemory shows with ⟨m, memory⟩ | ⟨b, bus, flat⟩
  · have found := memory?_eq_some_iff.1 memory
    obtain ⟨q, p, backed, allows⟩ := permits range.last ⟨ordered, UInt64.le_refl _⟩
    obtain ⟨inside, -, writable⟩ := backed.of_memory found
    refine .inl ((Platform.mirrors_target found).answer_eq_ok ordered inside ?_ attributes data)
    rintro rfl
    exact writable allows
  · have found := bus?_eq_some_iff.1 bus
    exact answer_of_backed_bus found (wired.plain.ordered root b found) flat permits ordered
      moves attributes data

/-- **A cached window permits what the memory behind it permits.** -/
theorem Coherent.permits {c : Connection} (h : Coherent root config id s c) {cache : CacheId}
    (used : cache ∈ s.users) {w : DirectWindow} (cached : w ∈ (s.network.cache cache).windows)
    (contains : w.range.contains range = true) {command : Command}
    (allows : w.permission.allows command = true) : s.Permits root range command :=
  fun a inside => ⟨w.permission, w.pointerFor a, h.backed.kept cache used a _ _
    (Network.offers_of_mem cached (AddressRange.mem_of_contains contains inside)), allows⟩

/-- **What a transaction is answered where every byte permits it:** success, unless it breaks the
rules of the gate or runs past the end of a mapping. -/
theorem Coherent.expected_of_permits {c : Connection} (h : Coherent root config id s c)
    (shows : s.showsMemory root = true) {i : Initiator} {command : Command} {address : UInt64}
    {data : Bytes} {mode : AccessMode} (made : AddressRange.ofSize address data.length = .ok range)
    (positive : data.length ≠ 0) (moves : command ≠ .ignore)
    (permits : s.Permits root range command) :
    (s.station c).expected (s.target root) (i.transaction command address data mode) = .ok ∨
      (s.station c).expected (s.target root) (i.transaction command address data mode) =
          .commandError ∧ config.accepts (i.transaction command address data mode) = false ∨
        (s.station c).expected (s.target root) (i.transaction command address data mode) =
            .addressError ∧ s.Overruns root range := by
  have rules : (s.station c).gate.config = config := h.config
  have asks : ¬ (i.transaction command address data mode).command = .ignore := moves
  rw [Station.expected, Initiator.range_transaction, made]
  dsimp only
  rw [if_neg asks, rules]
  split
  · rcases answer_of_backed h.wired shows permits
      (AddressRange.start_le_last_of_ofSize_eq_ok made positive) moves
      ((s.station c).attributes i.owner mode.debug mode.exclusive)
      (i.transaction command address data mode).data with answered | ⟨refused, overruns⟩
    · exact .inl (congrArg Response.settled answered)
    · exact .inr (.inr ⟨congrArg Response.settled refused, overruns⟩)
  · next refused => exact .inr (.inl ⟨rfl, Bool.not_eq_true _ ▸ refused⟩)

/-- Two halves of a memory, shown side by side as they lie: two reads bring windows that are joined,
through which the next read passes from one half to the other. -/
theorem exists_read_across :
    ∃ s connection i, Reachable 1 .standard 0 s ∧ s.showsMemory 1 = true ∧
      s.connections.find? 0 = some connection ∧ s.initiators.find? 0 = some i ∧
      (∃ tx delivery u, s.submit 0 connection (i.transaction .read 4 (List.replicate 8 0) .plain) =
        (.ok (tx, delivery), u) ∧ tx.response = .addressError) ∧
      ∃ bytes done t, s.access i 0 connection .read 4 (List.replicate 8 0) .plain =
        .ok ((bytes, done), t) ∧ done.response = .ok := by
  have built : Relation.ReflTransGen TargetStep empty _ :=
    (((Relation.ReflTransGen.single (.newMemory empty (List.replicate 16 0) false false none)).tail
      (.newBus _)).tail (.map _ 1 ⟨0, 7, by decide⟩ 0 0 ⟨_, rfl⟩ _ rfl)).tail
      (.map _ 1 ⟨8, 15, by decide⟩ 8 0 ⟨_, rfl⟩ _ rfl)
  have opened : Opened 1 .standard 0 _ := ⟨_, none, built, ⟨_, rfl⟩, rfl⟩
  have run : Reachable 1 .standard 0 _ :=
    ⟨_, opened, ((Relation.ReflTransGen.single (.join _ 7 none)).tail
      (.access _ 0 _ rfl _ rfl .read 0 [0, 0] .plain _ _ rfl)).tail
      (.access _ 0 _ rfl _ rfl .read 8 [0, 0] .plain _ _ rfl)⟩
  exact ⟨_, _, _, run, rfl, rfl, rfl, ⟨_, _, _, rfl, rfl⟩, _, _, _, rfl, rfl⟩

/-- Where an access succeeds that would have been refused, not every error comes to the
initiator. -/
theorem not_heeds_of_ok {connection : Connection}
    (connected : s.connections.find? id = some connection) {k : InitiatorId} {i : Initiator}
    (known : s.initiators.find? k = some i) (command : Command) (address : UInt64) (data : Bytes)
    (moves : command ≠ .ignore) {tx : Transaction} {delivery : Delivery} {u t : System}
    (submitted : s.submit id connection (i.transaction command address data .plain) =
      (.ok (tx, delivery), u)) (refused : tx.response ≠ .ok) {bytes : Bytes} {done : Completion}
    (ended : s.access i id connection command address data .plain = .ok ((bytes, done), t))
    (ok : done.response = .ok) : ¬ s.Heeds id := by
  intro heeds
  obtain ⟨bytes', done', t', ended', same⟩ :=
    heeds _ _ _ _ _ _ _ _ _ connected known moves submitted refused
  cases Except.ok.inj (ended.symm.trans ended')
  exact refused (same.symm.trans ok)

/-- **An access is refused as the transaction would be,** or it has gone through a window, to bytes
of memory that permit the command: past the rules of the gate, or past the end of a mapping. -/
theorem refused_or_direct (h : Reachable root config id s) (shows : s.showsMemory root = true)
    {connection : Connection} (connected : s.connections.find? id = some connection)
    {k : InitiatorId} {i : Initiator} (known : s.initiators.find? k = some i) {command : Command}
    (moves : command ≠ .ignore) {address : UInt64} {data : Bytes} {tx : Transaction}
    {delivery : Delivery} {u : System}
    (submitted : s.submit id connection (i.transaction command address data .plain) =
      (.ok (tx, delivery), u))
    (refused : tx.response ≠ .ok) :
    ∃ bytes done t,
      s.access i id connection command address data .plain = .ok ((bytes, done), t) ∧
        (done.response = tx.response ∨
          done.direct = true ∧ done.response = .ok ∧ ∃ range,
            AddressRange.ofSize address data.length = .ok range ∧ s.Permits root range command ∧
              (tx.response = .commandError ∧
                  config.accepts (i.transaction command address data .plain) = false ∨
                tx.response = .addressError ∧ s.Overruns root range)) := by
  have coherent := coherent_of_connected h connected
  obtain ⟨p, passed, rfl, rfl, rfl⟩ := submit_eq_ok_iff.1 submitted
  rw [coherent.target] at passed
  have nonempty : (i.transaction command address data .plain).data ≠ [] := by
    rcases Station.submit_cases (s.target root) (s.station connection)
      (i.transaction command address data .plain) with ⟨-, cause, failed⟩ | ⟨-, nonempty, -⟩
    · rw [passed] at failed
      cases failed
    · exact nonempty
  have expected := Station.response_of_submit
    (Initiator.contiguous_transaction i command address data .plain) rfl passed
  obtain ⟨⟨bytes, done, after⟩, ended⟩ := Initiator.exists_access (s.target root)
    (s.station connection) i command address .plain rfl nonempty
  refine ⟨bytes, done, s.putStation id connection after, ?_, ?_⟩
  · rw [System.access, coherent.target, ended]
    rfl
  · rcases Initiator.access_cases ended with ⟨ptr, found, -, moved⟩ | ⟨net, -, through⟩
    · obtain ⟨-, -, positive, range, made, w, cached, -, contains, allows, -⟩ :=
        Initiator.exists_of_shortcut found
      have outcome : done = ⟨.ok, data.length, true⟩ :=
        (congrArg (fun o => o.2.1) moved).trans (Initiator.direct_eq command ptr data _).1
      have permits : s.Permits root range command :=
        coherent.permits (mem_users known) cached contains allows
      refine .inr ⟨by rw [outcome], by rw [outcome], range, made, permits, ?_⟩
      rw [expected] at refused ⊢
      exact (coherent.expected_of_permits shows made positive moves permits).resolve_left refused
    · rw [Initiator.response_of_throughGate rfl through, expected]
      exact .inl (Station.expected_congr rfl rfl _)

/-- So it is with the read from one half of a memory to the other. -/
theorem exists_overrun :
    ∃ s connection i tx delivery u bytes done t, Reachable 1 .standard 0 s ∧
      s.submit 0 connection (i.transaction .read 4 (List.replicate 8 0) .plain) =
        (.ok (tx, delivery), u) ∧ tx.response ≠ .ok ∧
      s.access i 0 connection .read 4 (List.replicate 8 0) .plain = .ok ((bytes, done), t) ∧
        (done.response = tx.response ∨
          done.direct = true ∧ done.response = .ok ∧ ∃ range,
            AddressRange.ofSize 4 (List.replicate 8 (0 : UInt8)).length = .ok range ∧
              s.Permits 1 range .read ∧
              (tx.response = .commandError ∧ GateConfig.standard.accepts
                  (i.transaction .read 4 (List.replicate 8 0) .plain) = false ∨
                tx.response = .addressError ∧ s.Overruns 1 range)) := by
  obtain ⟨s, connection, i, run, shows, connected, known, ⟨tx, delivery, u, submitted, unmapped⟩,
    -⟩ := exists_read_across
  have refused : tx.response ≠ .ok := by simp [unmapped]
  obtain ⟨bytes, done, t, ended, outcome⟩ :=
    refused_or_direct run shows connected known (by decide) submitted refused
  exact ⟨s, connection, i, tx, delivery, u, bytes, done, t, run, submitted, refused, ended,
    outcome⟩

/-- A gate that accepts at most four bytes at a time is passed by through a window that a read of
two has brought; and so is the end of a mapping where another one continues the same memory. -/
theorem not_heeds :
    (∃ s, Reachable 0 { GateConfig.standard with maxAccessSize := some 4 } 0 s ∧
      s.showsMemory 0 = true ∧ ¬ s.Heeds 0) ∧
    ∃ s, Reachable 1 .standard 0 s ∧ s.showsMemory 1 = true ∧ ¬ s.Heeds 0 := by
  constructor
  · have built : Relation.ReflTransGen TargetStep empty _ :=
      .single (.newMemory empty (List.replicate 16 0) false false none)
    have opened : Opened 0 { GateConfig.standard with maxAccessSize := some 4 } 0 _ :=
      ⟨_, none, built, ⟨_, rfl⟩, rfl⟩
    have run : Reachable 0 { GateConfig.standard with maxAccessSize := some 4 } 0 _ :=
      ⟨_, opened, (Relation.ReflTransGen.single (.join _ 7 none)).tail
        (.access _ 0 _ rfl _ rfl .read 0 [0, 0] .plain _ _ rfl)⟩
    exact ⟨_, run, rfl, not_heeds_of_ok rfl (k := 0) rfl .read 0 (List.replicate 8 0) (by decide)
      rfl (by decide) rfl rfl⟩
  · obtain ⟨s, connection, i, run, shows, connected, known, ⟨tx, delivery, u, submitted, refused⟩,
      bytes, done, t, ended, ok⟩ := exists_read_across
    exact ⟨s, run, shows, not_heeds_of_ok connected known _ _ _ (by decide) submitted
      (by simp [refused]) ended ok⟩

end System

end Interconnect
