import Interconnect.Proofs.System.Growth
import Interconnect.Proofs.System.Loss
import Interconnect.System.Gates

/-!
# Several gates

A user may make any number of memories, open any number of gates to them, and make any number of
initiators, before anything is accessed.

## Main Definitions

* `System.Assembled` — the systems that are made in this way
* `System.Separate` — the memories lie apart, and so do the caches of the gates
* `System.Unused` — nothing has been cached yet

## Main Statements

* `unused_of_assembled` — an assembled system is unused
-/

namespace Interconnect

namespace System

/-- **Memories, gates to them, and initiators,** before anything has been accessed. -/
inductive Assembled : System → Prop
  /-- There is nothing yet. -/
  | empty : Assembled empty
  /-- A memory is made. -/
  | newMemory {s : System} (before : Assembled s) (bytes : Bytes) (readOnly discardWrites : Bool)
      (poison : Option UInt8) : Assembled (s.newMemory bytes readOnly discardWrites poison).2
  /-- A gate to a memory is opened. -/
  | openGate {s : System} (before : Assembled s) (target : TargetId) (m : Memory)
      (memory : s.memory? target = some m) (config : GateConfig) (frequency : Option UInt64)
      (id : GateId) (after : System)
      (opened : s.openGate target config frequency = (.ok id, after)) : Assembled after
  /-- An initiator is made. -/
  | newInitiator {s : System} (before : Assembled s) (owner : Owner) (limit : Option Nat) :
      Assembled (s.newInitiator owner limit).2

/-- **The memories lie apart, and so do the caches of the gates to them.** -/
structure Separate (s : System) : Prop where
  /-- There are no other targets. -/
  kinds : ∀ id e, s.world.endpoint? id = some e → ∃ m, e = .memory m
  /-- Different memories have different blocks. -/
  apart : ∀ id id' m m', s.memory? id = some m → s.memory? id' = some m' →
    m.block = m'.block → id = id'
  /-- A gate stands before a memory. -/
  targets : ∀ id c, s.connections.find? id = some c → ∃ m, s.memory? c.target = some m
  /-- Different gates have different caches. -/
  own : ∀ id id' c c', s.connections.find? id = some c → s.connections.find? id' = some c' →
    c.gate.grants = c'.gate.grants → id = id'

/-- **Nothing has been cached,** and all blocks and caches have been made. -/
structure Unused (s : System) : Prop extends Separate s where
  /-- The block of a memory has been made. -/
  blocks : ∀ id m, s.memory? id = some m → (s.world.storage.blocks.find? m.block).isSome = true
  /-- The cache of a gate has been made. -/
  gates : ∀ id c, s.connections.find? id = some c → s.network.HasCache c.gate.grants
  /-- The cache of an initiator has been made. -/
  made : ∀ k i, s.initiators.find? k = some i → s.network.HasCache i.cache
  /-- No gate and initiator share a cache. -/
  foreign : ∀ id c k i, s.connections.find? id = some c → s.initiators.find? k = some i →
    c.gate.grants ≠ i.cache
  /-- All caches are empty. -/
  hollow : ∀ cache, (s.network.cache cache).windows = []

/-! ### Before the first access -/

/-- A new memory has a new number and a new block. -/
theorem endpoint?_newMemory_cases {s : System} {bytes : Bytes} {readOnly discardWrites : Bool}
    {poison : Option UInt8} {id : TargetId} {e : Endpoint}
    (found : (s.newMemory bytes readOnly discardWrites poison).2.world.endpoint? id = some e) :
    (id = s.world.state.endpoints.fresh ∧
        ∃ m, e = .memory m ∧ m.block = s.world.storage.blocks.fresh) ∨
      s.world.endpoint? id = some e := by
  rcases ite_eq_iff.1 ((endpoint?_addEndpoint _ _ id).symm.trans found) with ⟨new, same⟩ |
    ⟨-, old⟩
  · cases same
    exact .inl ⟨new, _, rfl, rfl⟩
  · exact .inr old

section

variable {s after : System} {target : TargetId} {m : Memory} (memory : s.memory? target = some m)
  {config : GateConfig} {frequency : Option UInt64} {id : GateId}
  (opened : s.openGate target config frequency = (.ok id, after))

include memory opened

/-- A gate that has been opened has a new cache, and its memory has one handle more. -/
theorem of_openGate_eq_ok :
    ∃ gate handles, gate.grants = s.network.caches.fresh ∧
      after.connections = s.connections.insert s.connections.fresh ⟨gate, target⟩ ∧
      after.network.caches =
        s.network.caches.insert s.network.caches.fresh (.withLimit config.entryLimit) ∧
      after.initiators = s.initiators ∧ after.world.storage = s.world.storage ∧
      ∀ other, after.world.endpoint? other =
        if other = target then some (.memory { m with handles := handles })
        else s.world.endpoint? other := by
  have found := memory?_eq_some_iff.1 memory
  have attached : ({ s with network := (Gate.create config s.network).2 } : System).attach target
      (Gate.create config s.network).1.handle =
        ({ s with network := (Gate.create config s.network).2 } : System).setEndpoint target
          (.memory
            { m with handles := m.handles ++ [(Gate.create config s.network).1.handle] }) := by
    rw [attach]
    simp only [found]
  unfold openGate at opened
  dsimp only at opened
  rw [attached] at opened
  split at opened
  · cases opened
  · cases opened
    exact ⟨_, _, rfl, rfl, Gate.caches_create config s.network, rfl, rfl,
      endpoint?_setEndpoint _ target _⟩

/-- The memories are those that there were, over the same blocks. -/
theorem exists_memory_of_openGate {other : TargetId} {m' : Memory}
    (found : after.memory? other = some m') :
    ∃ old, s.memory? other = some old ∧ old.block = m'.block := by
  obtain ⟨gate, handles, -, -, -, -, -, endpoints⟩ := of_openGate_eq_ok memory opened
  rcases ite_eq_iff.1 ((endpoints other).symm.trans (memory?_eq_some_iff.1 found)) with
    ⟨rfl, same⟩ | ⟨-, old⟩
  · cases same
    exact ⟨m, memory, rfl⟩
  · exact ⟨m', memory?_eq_some_iff.2 old, rfl⟩

theorem exists_memory_openGate {other : TargetId} {old : Memory}
    (found : s.memory? other = some old) : ∃ now, after.memory? other = some now := by
  obtain ⟨gate, handles, -, -, -, -, -, endpoints⟩ := of_openGate_eq_ok memory opened
  by_cases same : other = target
  · exact ⟨_, memory?_eq_some_iff.2 ((endpoints other).trans (if_pos same))⟩
  · exact ⟨old, memory?_eq_some_iff.2
      ((endpoints other).trans ((if_neg same).trans (memory?_eq_some_iff.1 found)))⟩

/-- The gates are those that there were and the new one. -/
theorem connection_cases_openGate {other : GateId} {c : Connection}
    (connected : after.connections.find? other = some c) :
    (other = s.connections.fresh ∧ c.target = target ∧
        c.gate.grants = s.network.caches.fresh) ∨
      s.connections.find? other = some c := by
  obtain ⟨gate, handles, fresh, connections, -⟩ := of_openGate_eq_ok memory opened
  rw [connections, Table.find?_insert] at connected
  rcases ite_eq_iff.1 connected with ⟨new, same⟩ | ⟨-, old⟩
  · cases same
    exact .inl ⟨new, rfl, fresh⟩
  · exact .inr old

theorem hasCache_openGate {cache : CacheId}
    (known : cache = s.network.caches.fresh ∨ s.network.HasCache cache) :
    after.network.HasCache cache := by
  obtain ⟨gate, handles, -, -, caches, -⟩ := of_openGate_eq_ok memory opened
  rw [Network.HasCache, caches, Table.find?_insert]
  split
  · rfl
  · next other => exact known.resolve_left other

end

namespace Unused

variable {s : System}

theorem empty : Unused empty where
  kinds := fun _ _ found => by cases found
  apart := fun _ _ _ _ found => by cases found
  targets := fun _ _ found => by cases found
  own := fun _ _ _ _ found => by cases found
  blocks := fun _ _ found => by cases found
  gates := fun _ _ found => by cases found
  made := fun _ _ found => by cases found
  foreign := fun _ _ _ _ found => by cases found
  hollow := fun _ => rfl

theorem newMemory (h : s.Unused) (bytes : Bytes) (readOnly discardWrites : Bool)
    (poison : Option UInt8) : (s.newMemory bytes readOnly discardWrites poison).2.Unused := by
  have memories : ∀ id m, (s.newMemory bytes readOnly discardWrites poison).2.memory? id = some m →
      (id = s.world.state.endpoints.fresh ∧ m.block = s.world.storage.blocks.fresh) ∨
        s.memory? id = some m := by
    intro id m found
    rcases endpoint?_newMemory_cases (memory?_eq_some_iff.1 found) with ⟨new, m', same, block⟩ | old
    · cases same
      exact .inl ⟨new, block⟩
    · exact .inr (memory?_eq_some_iff.2 old)
  have used : ∀ id m, s.memory? id = some m → m.block ≠ s.world.storage.blocks.fresh := by
    intro id m found new
    have made := h.blocks id m found
    rw [new, Table.find?_fresh] at made
    cases made
  have kept : ∀ id m, s.memory? id = some m →
      (s.newMemory bytes readOnly discardWrites poison).2.memory? id = some m := by
    intro id m found
    have different : id ≠ s.world.state.endpoints.fresh := by
      rintro rfl
      rw [memory?_eq_some_iff, endpoint?_fresh] at found
      cases found
    exact memory?_eq_some_iff.2 ((endpoint?_addEndpoint _ _ id).trans
      ((if_neg different).trans (memory?_eq_some_iff.1 found)))
  refine ⟨⟨?_, ?_, ?_, h.own⟩, ?_, h.gates, h.made, h.foreign, h.hollow⟩
  · intro id e found
    rcases endpoint?_newMemory_cases found with ⟨-, m, same, -⟩ | old
    · exact ⟨m, same⟩
    · exact h.kinds id e old
  · intro id id' m m' found found' same
    rcases memories id m found with ⟨new, block⟩ | old
    · rcases memories id' m' found' with ⟨new', -⟩ | old'
      · exact new.trans new'.symm
      · exact absurd (same.symm.trans block) (used id' m' old')
    · rcases memories id' m' found' with ⟨-, block⟩ | old'
      · exact absurd (same.trans block) (used id m old)
      · exact h.apart id id' m m' old old' same
  · intro id c connected
    obtain ⟨m, memory⟩ := h.targets id c connected
    exact ⟨m, kept _ m memory⟩
  · intro id m found
    show ((s.world.storage.blocks.insert s.world.storage.blocks.fresh _).find? m.block).isSome =
      true
    rw [Table.find?_insert]
    split
    · rfl
    · next other =>
        rcases memories id m found with ⟨-, block⟩ | old
        · exact absurd block other
        · exact h.blocks id m old

theorem openGate (h : s.Unused) {after : System} {target : TargetId} {m : Memory}
    (memory : s.memory? target = some m) {config : GateConfig} {frequency : Option UInt64}
    {id : GateId} (opened : s.openGate target config frequency = (.ok id, after)) :
    after.Unused := by
  obtain ⟨gate, handles, -, -, caches, initiators, storage, endpoints⟩ :=
    of_openGate_eq_ok memory opened
  have fresh : ∀ {cache}, s.network.HasCache cache → s.network.caches.fresh ≠ cache :=
    fun known same => s.network.not_hasCache_fresh (same ▸ known)
  refine ⟨⟨?_, ?_, ?_, ?_⟩, ?_, ?_, ?_, ?_, ?_⟩
  · intro other e found
    rcases ite_eq_iff.1 ((endpoints other).symm.trans found) with ⟨-, same⟩ | ⟨-, old⟩
    · exact ⟨_, (Option.some.inj same).symm⟩
    · exact h.kinds other e old
  · intro one other m₁ m₂ found found' same
    obtain ⟨old, known, block⟩ := exists_memory_of_openGate memory opened found
    obtain ⟨old', known', block'⟩ := exists_memory_of_openGate memory opened found'
    exact h.apart one other old old' known known' (block.trans (same.trans block'.symm))
  · intro other c connected
    rcases connection_cases_openGate memory opened connected with ⟨-, here, -⟩ | old
    · exact here ▸ exists_memory_openGate memory opened memory
    · obtain ⟨m', known⟩ := h.targets other c old
      exact exists_memory_openGate memory opened known
  · intro one other c c' connected connected' same
    rcases connection_cases_openGate memory opened connected with ⟨new, -, grants⟩ | old
    · rcases connection_cases_openGate memory opened connected' with ⟨new', -, -⟩ | old'
      · exact new.trans new'.symm
      · exact absurd (grants.symm.trans same) (fresh (h.gates other c' old'))
    · rcases connection_cases_openGate memory opened connected' with ⟨-, -, grants⟩ | old'
      · exact absurd (grants.symm.trans same.symm) (fresh (h.gates one c old))
      · exact h.own one other c c' old old' same
  · intro other m' found
    obtain ⟨old, known, block⟩ := exists_memory_of_openGate memory opened found
    rw [storage, ← block]
    exact h.blocks other old known
  · intro other c connected
    rcases connection_cases_openGate memory opened connected with ⟨-, -, grants⟩ | old
    · exact hasCache_openGate memory opened (.inl grants)
    · exact hasCache_openGate memory opened (.inr (h.gates other c old))
  · intro k i known
    rw [initiators] at known
    exact hasCache_openGate memory opened (.inr (h.made k i known))
  · intro other c k i connected known
    rw [initiators] at known
    rcases connection_cases_openGate memory opened connected with ⟨-, -, grants⟩ | old
    · rw [grants]
      exact fresh (h.made k i known)
    · exact h.foreign other c k i old known
  · intro cache
    rw [Network.cache, caches, Table.find?_insert]
    split
    · rfl
    · exact h.hollow cache

theorem newInitiator (h : s.Unused) (owner : Owner) (limit : Option Nat) :
    (s.newInitiator owner limit).2.Unused := by
  have made : ∀ cache, s.network.HasCache cache →
      (s.newInitiator owner limit).2.network.HasCache cache :=
    fun _ known => Network.hasCache_setCache known
  have initiators : ∀ k i, (s.newInitiator owner limit).2.initiators.find? k = some i →
      i.cache = s.network.caches.fresh ∨ s.initiators.find? k = some i := by
    intro k i known
    rcases ite_eq_iff.1 ((Table.find?_insert _ _ _ _).symm.trans known) with ⟨-, same⟩ | ⟨-, old⟩
    · cases same
      exact .inl rfl
    · exact .inr old
  refine ⟨⟨h.kinds, h.apart, h.targets, h.own⟩, h.blocks,
    fun id c connected => made _ (h.gates id c connected), ?_, ?_, ?_⟩
  · intro k i known
    rcases initiators k i known with new | old
    · rw [new, Network.HasCache]
      show ((s.network.caches.insert _ _).find? _).isSome = true
      rw [Table.find?_insert_self]
      rfl
    · exact made _ (h.made k i old)
  · intro id c k i connected known same
    rcases initiators k i known with new | old
    · exact s.network.not_hasCache_fresh (new ▸ same ▸ h.gates id c connected)
    · exact h.foreign id c k i connected old same
  · intro cache
    show (((s.network.caches.insert _ _).find? cache).getD _).windows = []
    rw [Table.find?_insert]
    split
    · rfl
    · exact h.hollow cache

end Unused

/-- **Before the first access nothing has been cached.** -/
theorem unused_of_assembled {s : System} (h : Assembled s) : s.Unused := by
  induction h with
  | empty => exact .empty
  | newMemory _ bytes readOnly discardWrites poison ih =>
      exact ih.newMemory bytes readOnly discardWrites poison
  | openGate _ target m memory config frequency id after opened ih =>
      exact ih.openGate memory opened
  | newInitiator _ owner limit ih => exact ih.newInitiator owner limit

end System

end Interconnect
