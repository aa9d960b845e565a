import Interconnect.Proofs.Gate.History
import Interconnect.Proofs.System.Assembly
import Interconnect.Proofs.System.Direct

/-!
# One initiator at several gates

The cache of an initiator does not tell through which gate a window came.  So an access through one
gate may go through a window that another gate has granted, to the memory behind that one.  But it
touches one memory only: the one behind its own gate, or one that the initiator has come to before
through the gate of that memory.

## Main Definitions

* `Event.Touches` — an access that touches no memory but one
* `System.Run` — the accesses of one initiator through any of the gates
* `System.Visited` — the gates that it has gone through, not passed by through a window
* `System.Sorted` — every cached window leads to the memory of a visited gate

## Main Statements

* `sorted_of_run` — the windows stay sorted
* `exists_home_of_access` — an access touches one memory, its own gate's or that of a visited gate
-/

namespace Interconnect

/-- **An access that touches no memory but `m`:** the bytes of other blocks stay, and a read that
succeeds gives bytes of this one. -/
structure Event.Touches (e : Event) (m : Memory) (before after : StorageBank) : Prop where
  /-- Other blocks stay as they are. -/
  others : ∀ block, block ≠ m.block → after.contents block = before.contents block
  /-- A read gives what is at its address. -/
  read : e.command = .read → e.done.response = .ok →
    e.bytes = before.load ((HostPointer.toBlock m.block).advance e.address) e.data.length

/-- What a memory serves touches no other memory. -/
theorem Event.touches_of_served {e : Event} {i : Initiator} {m : Memory}
    {before after : StorageBank} {range : AddressRange} {buffer : Bytes}
    (positive : e.data.length ≠ 0) (made : AddressRange.ofSize e.address e.data.length = .ok range)
    (served : (e.done.response, buffer, after) = m.serve before e.command range e.mode.debug
      (i.transaction e.command e.address e.data e.mode).data)
    (read : e.command = .read → e.bytes = buffer) : e.Touches m before after where
  others := by
    intro block other
    rw [show after = _ from congrArg (fun answer => answer.2.2) served]
    exact Memory.contents_serve_of_ne other
  read := by
    intro reads ok
    obtain ⟨-, start, -⟩ := (AddressRange.ofSize_eq_ok_iff positive).1 made
    rw [reads, Initiator.data_transaction, if_neg (by decide)] at served
    have answered := congrArg Prod.fst served
    have filled := congrArg (fun answer => answer.2.1) served
    rw [read reads, ← start]
    exact filled.trans (Memory.buffer_serve_read (answered.symm.trans ok))

namespace System

variable {i : Initiator} {s t : System} {events : List (GateId × Event)}

/-- **The accesses of initiator `i` through any of the gates,** from `s` on, and the state that they
lead to. -/
inductive Run (i : Initiator) (s : System) : List (GateId × Event) → System → Prop
  /-- There has been none. -/
  | start : Run i s [] s
  /-- There is one more. -/
  | access {events : List (GateId × Event)} {t : System} (before : Run i s events t) (id : GateId)
      (c : Connection) (connected : t.connections.find? id = some c) (command : Command)
      (address : UInt64) (data : Bytes) (mode : AccessMode) (bytes : Bytes) (done : Completion)
      (after : System)
      (ended : t.access i id c command address data mode = .ok ((bytes, done), after)) :
      Run i s (events ++ [(id, ⟨i.owner, command, address, data, mode, bytes, done⟩)]) after

/-- **The initiator has gone through gate `id`,** not only passed it by through a window. -/
def Visited (events : List (GateId × Event)) (id : GateId) : Prop :=
  ∃ e, (id, e) ∈ events ∧ e.done.direct = false

/-- **Every cached window leads to the memory behind the gate that granted it,** and the initiator
has gone through that gate. -/
structure Sorted (i : Initiator) (events : List (GateId × Event)) (s : System) : Prop
    extends Separate s where
  /-- The initiator has a cache of its own. -/
  foreign : ∀ id c, s.connections.find? id = some c → c.gate.grants ≠ i.cache
  /-- A gate remembers windows of its memory only. -/
  granted : ∀ id c, s.connections.find? id = some c → ∀ a q p,
    s.network.Offers c.gate.grants a q p → s.world.Backs c.target a q p
  /-- The initiator keeps windows from visited gates only. -/
  kept : ∀ a q p, s.network.Offers i.cache a q p → ∃ home c,
    s.connections.find? home = some c ∧ s.world.Backs c.target a q p ∧ Visited events home

theorem Unused.sorted (h : s.Unused) {k : InitiatorId} (known : s.initiators.find? k = some i) :
    Sorted i [] s where
  toSeparate := h.toSeparate
  foreign := fun id c connected => h.foreign id c k i connected known
  granted := fun _ _ _ a q p offered =>
    absurd offered (WindowCache.not_covers_of_windows_eq_nil (h.hollow _) a q p)
  kept := fun a q p offered =>
    absurd offered (WindowCache.not_covers_of_windows_eq_nil (h.hollow _) a q p)

theorem Separate.plain (h : s.Separate) : s.world.Plain where
  kinds := fun id e found => .inl (h.kinds id e found)
  ordered := by
    intro id b found
    obtain ⟨m, same⟩ := h.kinds id _ found
    cases same

/-! ### After a gate has acted -/

section

variable {id : GateId} {c : Connection} (connected : s.connections.find? id = some c)
  {after : Station Platform}

include connected

/-- A gate that has acted is still connected, to the same target. -/
theorem exists_connection_putStation (after : Station Platform) {other : GateId} {old : Connection}
    (known : s.connections.find? other = some old) :
    ∃ d, (s.putStation id c after).connections.find? other = some d ∧ d.target = old.target := by
  by_cases same : other = id
  · subst same
    cases Option.some.inj (known.symm.trans connected)
    exact ⟨_, Table.find?_insert_self _ _ _, rfl⟩
  · exact ⟨old, (Table.find?_insert _ _ _ _).trans ((if_neg same).trans known), rfl⟩

/-- Whatever is connected after a gate has acted was connected before, with the same cache. -/
theorem exists_of_connection_putStation (grants : after.gate.grants = c.gate.grants)
    {other : GateId} {d : Connection}
    (found : (s.putStation id c after).connections.find? other = some d) :
    ∃ old, s.connections.find? other = some old ∧ d.gate.grants = old.gate.grants ∧
      d.target = old.target := by
  rcases ite_eq_iff.1 ((Table.find?_insert _ _ _ _).symm.trans found) with ⟨rfl, same⟩ | ⟨-, old⟩
  · cases same
    exact ⟨c, connected, grants, rfl⟩
  · exact ⟨d, old, rfl, rfl⟩

/-- The memories and the caches of the gates still lie apart. -/
theorem Separate.putStation (h : s.Separate) (alike : s.world.Alike after.world)
    (grants : after.gate.grants = c.gate.grants) : (s.putStation id c after).Separate := by
  have endpoints : ∀ other, (s.putStation id c after).world.endpoint? other =
      s.world.endpoint? other := alike.endpoint?
  have memories : ∀ other, (s.putStation id c after).memory? other = s.memory? other := by
    intro other
    rw [memory?, memory?, endpoints]
  refine ⟨fun other e found => h.kinds other e ((endpoints other).symm.trans found), ?_, ?_, ?_⟩
  · intro other other' m m' found found'
    exact h.apart other other' m m' ((memories other).symm.trans found)
      ((memories other').symm.trans found')
  · intro other d found
    obtain ⟨old, known, -, target⟩ := exists_of_connection_putStation connected grants found
    rw [target, memories]
    exact h.targets other old known
  · intro other other' d d' found found' same
    obtain ⟨old, known, own, -⟩ := exists_of_connection_putStation connected grants found
    obtain ⟨old', known', own', -⟩ := exists_of_connection_putStation connected grants found'
    exact h.own other other' old old' known known' (own.symm.trans (same.trans own'))

end

theorem Visited.append {id : GateId} (h : Visited events id) (e : GateId × Event) :
    Visited (events ++ [e]) id := by
  obtain ⟨f, member, through⟩ := h
  exact ⟨f, List.mem_append_left _ member, through⟩

/-! ### One access -/

variable {id : GateId} {c : Connection} {command : Command} {address : UInt64} {data : Bytes}
  {mode : AccessMode} {bytes : Bytes} {done : Completion}

/-- **What an access adds to the cache of the initiator** comes from the memory behind the gate, and
only if the access has gone through it. -/
theorem Sorted.offers_of_access (h : Sorted i events s)
    (connected : s.connections.find? id = some c) {after : Station Platform}
    (passed : i.access (s.target c.target) command address data mode (s.station c) =
      .ok (bytes, done, after)) {a : UInt64} {q : Permission} {p : HostPointer}
    (offered : after.network.Offers i.cache a q p) :
    s.network.Offers i.cache a q p ∨ s.world.Backs c.target a q p ∧ done.direct = false := by
  cases direct : done.direct with
  | true => exact .inl (Initiator.offers_of_direct passed direct offered)
  | false =>
      have honest : (s.target c.target).Honest s.world (s.world.Backs c.target) :=
        Platform.honest_target h.plain _ c.target
      have steps : Station.Effects (s.target c.target) {i.cache} (s.station c) after :=
        Initiator.effects_of_access (Set.mem_singleton _) passed
      have before : (s.station c).Holds s.world.Alike
          (fun a q p => s.network.Offers i.cache a q p ∨ s.world.Backs c.target a q p)
          {i.cache} := by
        refine ⟨.refl _, fun a q p offered => .inr (h.granted id c connected a q p offered), ?_⟩
        rintro cache rfl a q p offered
        exact .inl offered
      have kept := (before.effects (honest.confined.mono fun _ _ _ backed => .inr backed)
        steps).kept i.cache rfl a q p offered
      exact kept.imp_right fun backed => ⟨backed, rfl⟩

/-- **An access keeps the windows sorted.** -/
theorem Sorted.access (h : Sorted i events s) (connected : s.connections.find? id = some c)
    (ended : s.access i id c command address data mode = .ok ((bytes, done), t)) :
    Sorted i (events ++ [(id, ⟨i.owner, command, address, data, mode, bytes, done⟩)]) t := by
  obtain ⟨after, rfl, passed⟩ := exists_of_access ended
  have steps : Station.Effects (s.target c.target) {i.cache} (s.station c) after :=
    Initiator.effects_of_access (Set.mem_singleton _) passed
  have honest : (s.target c.target).Honest s.world (s.world.Backs c.target) :=
    Platform.honest_target h.plain _ c.target
  have backed : after.Backed s.world (s.world.Backs c.target) ∅ :=
    Station.Backed.effects ⟨.refl _, h.granted id c connected, fun _ absent => absent.elim⟩
      honest steps
  have grants : after.gate.grants = c.gate.grants := (Station.settled_of_effects steps).grants
  have backs : ∀ target a q p, s.world.Backs target a q p → after.world.Backs target a q p :=
    fun _ _ _ _ => backed.alike.backs h.plain
  refine ⟨h.toSeparate.putStation connected backed.alike grants, ?_, ?_, ?_⟩
  · intro other d found
    obtain ⟨old, known, own, -⟩ := exists_of_connection_putStation connected grants found
    rw [own]
    exact h.foreign other old known
  · intro other d found a q p offered
    obtain ⟨old, known, own, target⟩ := exists_of_connection_putStation connected grants found
    rw [target]
    refine backs _ a q p ?_
    rw [own] at offered
    by_cases same : old.gate.grants = c.gate.grants
    · cases h.own other id old c known connected same
      cases Option.some.inj (known.symm.trans connected)
      exact backed.granted a q p (grants ▸ offered)
    · exact h.granted other old known a q p
        (Station.offers_of_effects steps same (h.foreign other old known) offered)
  · intro a q p offered
    rcases h.offers_of_access connected passed offered with old | ⟨stands, through⟩
    · obtain ⟨home, d, known, stands, visited⟩ := h.kept a q p old
      obtain ⟨now, known', target⟩ := exists_connection_putStation connected after known
      exact ⟨home, now, known', target ▸ backs _ a q p stands, visited.append _⟩
    · obtain ⟨now, known, target⟩ := exists_connection_putStation connected after connected
      exact ⟨id, now, known, target ▸ backs _ a q p stands, _,
        List.mem_append_right _ List.mem_cons_self, through⟩

/-- **All addresses of a cached window lie in one memory,** behind a gate that the initiator has
gone through. -/
theorem Sorted.exists_liesIn (h : Sorted i events s) {w : DirectWindow}
    (cached : w ∈ (s.network.cache i.cache).windows) {a : UInt64} (inside : a ∈ w.range) :
    ∃ home d m, s.connections.find? home = some d ∧ s.memory? d.target = some m ∧
      w.LiesIn m s.world.storage ∧ Visited events home := by
  have placed : ∀ b ∈ w.range, ∃ home d m, s.connections.find? home = some d ∧
      s.memory? d.target = some m ∧ Visited events home ∧
        b.toNat < (m.contents s.world.storage).length ∧
        w.pointerFor b = (HostPointer.toBlock m.block).advance b ∧
        (w.permission.allows .write = true → m.readOnly = false ∧ m.discardWrites = false) := by
    intro b within
    obtain ⟨home, d, known, backed, visited⟩ :=
      h.kept b _ _ (Network.offers_of_mem cached within)
    obtain ⟨m, memory⟩ := h.targets home d known
    exact ⟨home, d, m, known, memory, visited, backed.of_memory (memory?_eq_some_iff.1 memory)⟩
  obtain ⟨home, d, m, known, memory, visited, -, pointer, -⟩ := placed a inside
  refine ⟨home, d, m, known, memory, fun b within => ?_, visited⟩
  -- the window points into one block, and different memories have different blocks
  obtain ⟨home', d', m', -, memory', -, place, pointer', writable⟩ := placed b within
  have block : m'.block = m.block := by
    have here := congrArg HostPointer.storage pointer
    have there := congrArg HostPointer.storage pointer'
    exact Option.some.inj (there.symm.trans here)
  have same : m' = m := by
    rw [h.apart _ _ m' m memory' memory block, memory] at memory'
    exact (Option.some.inj memory').symm
  subst same
  exact ⟨place, pointer', writable⟩

/-- **An access touches one memory:** that behind its gate, or, through a window, that behind a gate
which the initiator has gone through before. -/
theorem Sorted.exists_home (h : Sorted i events s) (connected : s.connections.find? id = some c)
    (ended : s.access i id c command address data mode = .ok ((bytes, done), t)) :
    ∃ home d m, s.connections.find? home = some d ∧ s.memory? d.target = some m ∧
      (home = id ∨ done.direct = true ∧ Visited events home) ∧
      Event.Touches ⟨i.owner, command, address, data, mode, bytes, done⟩ m s.world.storage
        t.world.storage := by
  obtain ⟨after, rfl, passed⟩ := exists_of_access ended
  rcases Initiator.access_cases passed with ⟨ptr, found, moves, moved⟩ | ⟨net, -, through⟩
  · obtain ⟨-, positive, rfl, -, -, range, made, w, cached, inside, -, serves⟩ :=
      Initiator.exists_window_of_direct (s := s.station c) found moves moved
    obtain ⟨home, d, m, known, memory, lies, visited⟩ := h.exists_liesIn cached inside
    exact ⟨home, d, m, known, memory, .inr ⟨rfl, visited⟩,
      Event.touches_of_served positive made (serves m lies).symm fun _ => rfl⟩
  · obtain ⟨m, memory⟩ := h.targets id c connected
    have mirrors := Platform.mirrors_target (memory?_eq_some_iff.1 memory)
    obtain ⟨-, ⟨-, same, idle⟩ | ⟨range, buffer, positive, made, -, served, read, -⟩⟩ :=
      Initiator.throughGate_cases_of_mirrors (s := { s.station c with network := net }) mirrors
        through
    · refine ⟨id, c, m, connected, memory, .inl rfl, fun block _ => ?_, fun reads ok => ?_⟩
      · exact congrArg (fun bank => bank.contents block) same
      · cases reads.symm.trans (idle ok)
    · exact ⟨id, c, m, connected, memory, .inl rfl,
        Event.touches_of_served positive made served read⟩

/-! ### Any number of accesses -/

/-- **The windows stay sorted.** -/
theorem sorted_of_run (start : Sorted i [] s) (run : Run i s events t) : Sorted i events t := by
  induction run with
  | start => exact start
  | access _ id c connected command address data mode bytes done after ended ih =>
      exact ih.access connected ended

/-- Two memories of two bytes each: after a read through the gate to the first, a read of the same
addresses through the gate to the second goes through the window of the first. -/
theorem exists_read_elsewhere :
    ∃ start i events s c m bytes done t, Assembled start ∧ start.initiators.find? 0 = some i ∧
      Run i start events s ∧ s.connections.find? 1 = some c ∧ s.memory? c.target = some m ∧
      s.access i 1 c .read 0 [0, 0] .plain = .ok ((bytes, done), t) ∧ done.response = .ok ∧
      bytes = [1, 1] ∧
      s.world.storage.load ((HostPointer.toBlock m.block).advance 0) 2 = [2, 2] := by
  have assembled : Assembled _ :=
    ((((Assembled.empty.newMemory [1, 1] false false none).newMemory [2, 2] false false
      none).openGate 0 _ rfl .standard none 0 _ rfl).openGate 1 _ rfl .standard none 1 _
      rfl).newInitiator 7 none
  exact ⟨_, _, _, _, _, _, _, _, _, assembled, rfl,
    .access .start 0 _ rfl .read 0 [0, 0] .plain _ _ _ rfl, rfl, rfl, rfl, rfl, rfl, rfl⟩

/-- **An access touches one memory.**  Whatever an initiator has done through any of the gates to
separate memories, its next access through gate `id` changes no byte of any memory but one, and a
read that succeeds returns bytes of that one.  It is the memory behind gate `id`; or else the access
went through a window, and it is the memory behind a gate that the initiator has gone through
before. -/
theorem exists_home_of_access {start : System} (assembled : Assembled start) {k : InitiatorId}
    (made : start.initiators.find? k = some i) (run : Run i start events s)
    (connected : s.connections.find? id = some c)
    (ended : s.access i id c command address data mode = .ok ((bytes, done), t)) :
    ∃ home d m, s.connections.find? home = some d ∧ s.memory? d.target = some m ∧
      (home = id ∨ done.direct = true ∧ Visited events home) ∧
      Event.Touches ⟨i.owner, command, address, data, mode, bytes, done⟩ m s.world.storage
        t.world.storage :=
  (sorted_of_run ((unused_of_assembled assembled).sorted made) run).exists_home connected ended

/-- So it is with the read through the gate to the second memory. -/
theorem exists_home_elsewhere :
    ∃ start i events s c bytes done t, Assembled start ∧ start.initiators.find? 0 = some i ∧
      Run i start events s ∧ s.connections.find? 1 = some c ∧
      s.access i 1 c .read 0 [0, 0] .plain = .ok ((bytes, done), t) ∧
      ∃ home d m, s.connections.find? home = some d ∧ s.memory? d.target = some m ∧
        (home = 1 ∨ done.direct = true ∧ Visited events home) ∧
        Event.Touches ⟨i.owner, .read, 0, [0, 0], .plain, bytes, done⟩ m s.world.storage
          t.world.storage := by
  obtain ⟨start, i, events, s, c, m, bytes, done, t, assembled, made, run, connected, -, ended,
    -⟩ := exists_read_elsewhere
  exact ⟨start, i, events, s, c, bytes, done, t, assembled, made, run, connected, ended,
    exists_home_of_access assembled made run connected ended⟩

/-- It need not be the memory behind the gate of the access. -/
theorem not_forall_touched_own :
    ¬ ∀ (start s t : System) (i : Initiator) (k : InitiatorId) (events : List (GateId × Event))
      (id : GateId) (c : Connection) (m : Memory) (command : Command) (address : UInt64)
      (data : Bytes) (mode : AccessMode) (bytes : Bytes) (done : Completion),
      Assembled start → start.initiators.find? k = some i → Run i start events s →
      s.connections.find? id = some c → s.memory? c.target = some m →
      s.access i id c command address data mode = .ok ((bytes, done), t) →
      Event.Touches ⟨i.owner, command, address, data, mode, bytes, done⟩ m s.world.storage
        t.world.storage := by
  intro own
  obtain ⟨start, i, events, s, c, m, bytes, done, t, assembled, made, run, connected, memory,
    ended, ok, first, second⟩ := exists_read_elsewhere
  have touched := own _ _ _ _ _ _ _ _ _ _ _ _ _ _ _ assembled made run connected memory ended
  have same : [1, 1] = ([2, 2] : Bytes) := first.symm.trans ((touched.read rfl ok).trans second)
  exact absurd same (by decide)

end System

end Interconnect
