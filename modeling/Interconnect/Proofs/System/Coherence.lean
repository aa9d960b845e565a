import Interconnect.Proofs.System.Loss

/-!
# Cached windows through buses

However buses are mapped and unmapped behind a gate, however deep they are nested, and whatever
happens to the memories, a window in a cache leads to the byte that an access through the buses
would reach.

## Main Definitions

* `System.Coherent` — the invariant of a system with one gate

## Main Statements

* `Coherent.step_cases` — what a step at an open gate does
* `coherent_of_reachable` — every reachable state is coherent
* `backs_of_reachable` — no cached window is stale

### The two ways

A window comes up from a memory, cut and moved by every bus on its way; a withdrawal comes up
through handles, clipped and rebased by every mapping.  They agree because both are described by
where an access goes down: `Platform.honest_target` for windows, `Wired.exists_reaches` for
withdrawals.
-/

namespace Interconnect

namespace System

/-- **What holds of gate `id` to target `root`** with everything that it acts upon. -/
structure Coherent (root : TargetId) (config : GateConfig) (id : GateId) (s : System)
    (c : Connection) : Prop where
  /-- The gate is open. -/
  connected : s.connections.find? id = some c
  /-- It stands before the target. -/
  target : c.target = root
  /-- It has the rules that it was opened with. -/
  config : c.gate.config = config
  /-- Every mapping has its handle. -/
  wired : s.Wired
  /-- The gate hears what the target withdraws. -/
  listens : s.Listens root c.gate.handle
  /-- Its cache is bound. -/
  bound : c.gate.grants ∈ (s.network.handle c.gate.handle).caches
  /-- No cached window covers a reserved address. -/
  shielded : (s.station c).Shielded s.users
  /-- Every cached mapping leads to the byte that an access would reach. -/
  backed : (s.station c).Backed s.world (s.world.Backs root) s.users

variable {root : TargetId} {config : GateConfig} {id : GateId} {s t : System} {c : Connection}

/-! ### A gate that has just been opened -/

theorem wired_empty : empty.Wired := by
  have nothing : ∀ id, empty.world.endpoint? id = none := fun _ => rfl
  refine ⟨⟨?_, ?_⟩, ?_, ?_⟩
  · intro id e found
    rw [nothing] at found
    cases found
  · intro id b found
    rw [nothing] at found
    cases found
  · intro id b found
    rw [nothing] at found
    cases found
  · intro id b found
    rw [nothing] at found
    cases found

/-- What is built before there is a gate. -/
theorem carries_of_targetSteps (wired : s.Wired)
    (steps : Relation.ReflTransGen TargetStep s t) : s.Carries t := by
  induction steps with
  | refl => exact .refl wired
  | tail _ step ih => exact ih.trans (carries_of_targetStep ih.wired step)

/-- A new gate is a new cache and a new handle. -/
theorem grows_handles_create (s : System) (config : GateConfig) :
    (∀ h, (s.network.handle h).caches ⊆ ((Gate.create config s.network).2.handle h).caches) ∧
      ∀ h, (s.network.handle h).links ⊆ ((Gate.create config s.network).2.handle h).links := by
  have blank : s.network.handle s.network.handles.fresh = ⟨[], []⟩ := by simp [Network.handle]
  constructor
  · intro h
    rw [Gate.handle_create, Gate.handle_create_eq]
    split
    · next new =>
        rw [new, blank]
        exact List.nil_subset _
    · exact List.Subset.refl _
  · intro h
    rw [Gate.handle_create, Gate.handle_create_eq]
    split
    · next new =>
        rw [new, blank]
        exact List.nil_subset _
    · exact List.Subset.refl _

/-- A gate whose cache is empty is coherent where no initiator is. -/
theorem coherent_of_insert {gate : Gate} (rules : gate.config = config) (wired : s.Wired)
    (listens : s.Listens root gate.handle)
    (bound : gate.grants ∈ (s.network.handle gate.handle).caches)
    (present : s.network.HasCache gate.grants)
    (hollow : (s.network.cache gate.grants).windows = []) (nobody : s.users = ∅) :
    Coherent root config id { s with connections := s.connections.insert id ⟨gate, root⟩ }
      ⟨gate, root⟩ where
  connected := Table.find?_insert_self _ _ _
  target := rfl
  config := rules
  wired := wired.of_links (fun _ => rfl) (fun _ => List.Subset.refl _) fun _ known => known
  listens := listens
  bound := bound
  shielded := by
    have empty : ∀ cache, cache ∉ s.users := fun cache used => by rw [nobody] at used; exact used
    exact .of_isEmpty present (empty _) fun cache used => absurd used (empty cache)
  backed := by
    have empty : ∀ cache, cache ∉ s.users := fun cache used => by rw [nobody] at used; exact used
    exact ⟨.refl _,
      fun a q p offered => absurd offered (WindowCache.not_covers_of_windows_eq_nil hollow a q p),
      fun cache used => absurd used (empty cache)⟩

/-- **A gate that has just been opened is coherent.** -/
theorem coherent_of_opened (h : Opened root config id s) : ∃ c, Coherent root config id s c := by
  obtain ⟨before, frequency, built, known, opened⟩ := h
  have carried := carries_of_targetSteps wired_empty built
  have nobody : before.users = ∅ := by
    rw [System.users, carried.initiators]
    exact Set.eq_empty_of_forall_notMem fun _ ⟨_, _, found, _⟩ => by cases found
  -- the new cache and handle, and their attachment to the target
  obtain ⟨caches, links⟩ := grows_handles_create before config
  have wired : ({ before with network := (Gate.create config before.network).2 } : System).Wired :=
    carried.wired.of_links (fun _ => rfl) links fun _ => Gate.hasHandle_create
  have grown := grows_attach wired root (Gate.create config before.network).1.handle
  have listens := listens_attach wired known (h := (Gate.create config before.network).1.handle)
    fun b found same => before.network.not_hasHandle_fresh
      (Gate.handle_create_eq config before.network ▸ same ▸ carried.wired.made root b found)
  have fresh : (Gate.create config before.network).2.caches.find?
      (Gate.create config before.network).1.grants = some (.withLimit config.entryLimit) := by
    rw [Gate.caches_create, Table.find?_insert_self]
  unfold openGate at opened
  dsimp only at opened
  split at opened
  · cases opened
  · next clock =>
      cases opened
      refine ⟨_, coherent_of_insert rfl (wired_attach wired _ _) listens
        (grown.bound _ ?_) ?_ ?_ ?_⟩
      · simp [Gate.handle_create]
      · rw [Network.HasCache, grown.caches]
        simp [fresh]
      · rw [Network.cache, grown.caches]
        simp [fresh]
      · rw [System.users, grown.initiators]
        exact nobody

/-! ### What happens at an open gate -/

/-- **A change of the targets keeps the gate coherent.** -/
theorem Coherent.of_carries (h : Coherent root config id s c) (carried : s.Carries t) :
    Coherent root config id t c := by
  have users : t.users = s.users := by
    unfold System.users
    rw [carried.initiators]
  have heard : s.Listens c.target c.gate.handle := h.target ▸ h.listens
  -- whatever is cached was cached before, by a cache that hears from the target
  have still : ∀ cache ∈ (s.network.handle c.gate.handle).caches, ∀ a q p,
      t.network.Offers cache a q p → s.world.Backs root a q p → t.world.Backs root a q p := by
    intro cache bound a q p offered backed
    have kept := carried.backs id c h.connected _ heard cache bound a q p offered
    rw [h.target] at kept
    exact kept backed
  refine ⟨carried.connections ▸ h.connected, h.target, h.config, carried.wired, ?_,
    carried.bound _ h.bound, ?_, ⟨.refl _, ?_, ?_⟩⟩
  · have listens := carried.listens id c h.connected _ heard
    rwa [h.target] at listens
  · rw [users]
    exact h.shielded.of_le rfl (carried.bound _) rfl (carried.present _ h.shielded.present)
      (fun cache _ a q p => carried.fewer cache a q p) (List.Subset.refl _)
  · intro a q p offered
    exact still _ h.bound a q p offered (h.backed.granted a q p (carried.fewer _ a q p offered))
  · rw [users]
    intro cache used a q p offered
    have old := carried.fewer cache a q p offered
    exact still cache (h.shielded.bound cache used a q p old) a q p offered
      (h.backed.kept cache used a q p old)

/-- **A gate stays coherent while it is set up as before** and nothing else but bytes changes. -/
theorem Coherent.of_settled (h : Coherent root config id s c) {after : Station Platform}
    (settled : (s.station c).Settled after) (shielded : after.Shielded s.users)
    (backed : after.Backed s.world (s.world.Backs root) s.users) :
    Coherent root config id (s.putStation id c after) { c with gate := after.gate } := by
  have handle : after.gate.handle = c.gate.handle := settled.handle
  have grants : after.gate.grants = c.gate.grants := settled.grants
  have backs : ∀ a q p, s.world.Backs root a q p → after.world.Backs root a q p :=
    fun a q p => backed.alike.backs h.wired.plain
  have links : ∀ h, (s.network.handle h).links ⊆ (after.network.handle h).links :=
    fun h _ old => (settled.links h).symm ▸ old
  refine ⟨Table.find?_insert_self _ _ _, h.target,
    settled.config.trans h.config, h.wired.of_links backed.alike.endpoint? links settled.made, ?_,
    ?_, shielded, .refl _, ?_, ?_⟩
  · have still : (s.putStation id c after).Listens root c.gate.handle :=
      h.listens.of_links backed.alike.endpoint? links
    rw [handle]
    exact still
  · have still : c.gate.grants ∈ (after.network.handle c.gate.handle).caches :=
      settled.bound _ h.bound
    rw [handle, grants]
    exact still
  · exact fun a q p offered => backs a q p (backed.granted a q p offered)
  · exact fun cache used a q p offered => backs a q p (backed.kept cache used a q p offered)

/-- **What changes caches and initiators only keeps the gate coherent,** if no handle loses
anything. -/
theorem Coherent.of_caches (h : Coherent root config id s c) {net : Network}
    {initiators : Table Initiator} (handles : net.handles = s.network.handles)
    (shielded : (⟨c.gate, net, s.world⟩ : Station Platform).Shielded
      ({ s with initiators := initiators } : System).users)
    (backed : (⟨c.gate, net, s.world⟩ : Station Platform).Backed s.world (s.world.Backs root)
      ({ s with initiators := initiators } : System).users) :
    Coherent root config id { s with network := net, initiators := initiators } c := by
  have each : ∀ h, net.handle h = s.network.handle h := fun h => by
    rw [Network.handle, handles, Network.handle]
  have links : ∀ h, (s.network.handle h).links ⊆ (net.handle h).links := fun h => by
    rw [each]
    exact List.Subset.refl _
  refine ⟨h.connected, h.target, h.config, h.wired.of_links (fun _ => rfl) links fun h known => ?_,
    h.listens.of_links (fun _ => rfl) links, ?_, shielded, backed⟩
  · rw [Network.HasHandle, handles]
    exact known
  · show c.gate.grants ∈ (net.handle c.gate.handle).caches
    rw [each]
    exact h.bound

/-- **What a step at an open gate does:** the user does something with the targets, or caches are
made or emptied, or the gate acts. -/
theorem Coherent.step_cases (h : Coherent root config id s c) (step : PortStep id s t) :
    TargetStep s t ∨
      (∃ net initiators, t = { s with network := net, initiators := initiators } ∧
        net.handles = s.network.handles ∧
        (⟨c.gate, net, s.world⟩ : Station Platform).Shielded t.users ∧
        (⟨c.gate, net, s.world⟩ : Station Platform).Backed s.world (s.world.Backs root) t.users) ∨
      ∃ after, t = s.putStation id c after ∧ (s.station c).Settled after ∧
        after.Shielded s.users ∧ after.Backed s.world (s.world.Backs root) s.users := by
  have only : ∀ connection, s.connections.find? id = some connection → connection = c :=
    fun connection connected => Option.some.inj (connected.symm.trans h.connected)
  have acted : ∀ {after : Station Platform},
      Station.Effects (s.target root) s.users (s.station c) after →
        (s.station c).Settled after ∧ after.Shielded s.users ∧
          after.Backed s.world (s.world.Backs root) s.users :=
    fun steps => ⟨Station.settled_of_effects steps, h.shielded.effects steps,
      h.backed.effects (Platform.honest_target h.wired.plain _ root) steps⟩
  cases step with
  | target step => exact .inl step
  | join owner limit =>
      have more := users_newInitiator_subset s owner limit
      exact .inr (.inl ⟨_, _, rfl, rfl, (h.shielded.join owner limit).mono more,
        (h.backed.join owner limit).mono more⟩)
  | allow k i known allowed =>
      have same := users_setAllowDirect_subset known allowed
      refine .inr (.inl ⟨_, _, rfl, ?_, (h.shielded.allow i allowed).mono same,
        (h.backed.allow i allowed).mono same⟩)
      cases allowed <;> rfl
  | bind k i known connection connected =>
      cases only connection connected
      exact .inr (.inr ⟨_, rfl, .bind _ i.cache, h.shielded.bind i.cache, h.backed.bind i.cache⟩)
  | submit connection connected tx outcome after submitted =>
      cases only connection connected
      obtain rfl := of_submit submitted
      rw [h.target]
      exact .inr (.inr ⟨_, rfl, acted (Station.effects_of_passed _ _ _ tx)⟩)
  | access k i known connection connected command address data mode outcome after ended =>
      cases only connection connected
      obtain ⟨after, rfl, passed⟩ := exists_of_access ended
      rw [h.target] at passed
      exact .inr (.inr ⟨_, rfl, acted (Initiator.effects_of_access (mem_users known) passed)⟩)

/-- **Whatever happens, the gate stays coherent.** -/
theorem Coherent.step (h : Coherent root config id s c) (step : PortStep id s t) :
    ∃ d, Coherent root config id t d := by
  rcases h.step_cases step with step | ⟨net, initiators, rfl, handles, shielded, backed⟩ |
    ⟨after, rfl, settled, shielded, backed⟩
  · exact ⟨c, h.of_carries (carries_of_targetStep h.wired step)⟩
  · exact ⟨c, h.of_caches handles shielded backed⟩
  · exact ⟨_, h.of_settled settled shielded backed⟩

/-- **Every reachable state is coherent.** -/
theorem coherent_of_reachable (h : Reachable root config id s) :
    ∃ c, Coherent root config id s c := by
  obtain ⟨opened, start, steps⟩ := h
  induction steps with
  | refl => exact coherent_of_opened start
  | tail _ step ih =>
      obtain ⟨c, coherent⟩ := ih
      exact coherent.step step

/-- The same for the gate as it is connected. -/
theorem coherent_of_connected (h : Reachable root config id s)
    (connected : s.connections.find? id = some c) : Coherent root config id s c := by
  obtain ⟨c', coherent⟩ := coherent_of_reachable h
  cases Option.some.inj (connected.symm.trans coherent.connected)
  exact coherent

/-- What is cached is backed. -/
theorem backed_of_reachable (h : Reachable root config id s) {connection : Connection}
    (connected : s.connections.find? id = some connection) {cache : CacheId}
    (held : cache = connection.gate.grants ∨ cache ∈ s.users) {w : DirectWindow}
    (cached : w ∈ (s.network.cache cache).windows) {a : UInt64} (inside : a ∈ w.range) :
    s.world.Backs root a w.permission (w.pointerFor a) := by
  have coherent := coherent_of_connected h connected
  have offered := Network.offers_of_mem cached inside
  rcases held with rfl | used
  · exact coherent.backed.granted a _ _ offered
  · exact coherent.backed.kept cache used a _ _ offered

/-- **No cached window is stale.**  Every address of a window in the cache of an initiator, or in
the cache of the gate, is routed through the buses as they are mapped now to a memory, and the
window points to the very byte of its storage that is there; it may be written only if the memory
stores what is written. -/
theorem backs_of_reachable (h : Reachable root config id s) {connection : Connection}
    (connected : s.connections.find? id = some connection) {cache : CacheId}
    (held : cache = connection.gate.grants ∨ cache ∈ s.users) {w : DirectWindow}
    (cached : w ∈ (s.network.cache cache).windows) {a : UInt64} (inside : a ∈ w.range) :
    ∃ target o m, s.world.Routes root a target o ∧
      s.world.endpoint? target = some (.memory m) ∧
      o.toNat < (m.contents s.world.storage).length ∧ w.pointerAt a = some ⟨some m.block, o⟩ ∧
      (w.permission.allows .write = true → m.readOnly = false ∧ m.discardWrites = false) := by
  obtain ⟨target, o, m, extent, routes, found, whole, within, pointer, writable⟩ :=
    backed_of_reachable h connected held cached inside
  refine ⟨target, o, m, routes, found, (Memory.mem_extent_iff whole).1 within, ?_, writable⟩
  rw [DirectWindow.pointerAt, if_pos inside, pointer]
  simp [HostPointer.toBlock, HostPointer.advance]

/-- A memory of sixteen bytes that a bus shows from address 256 on: the window that a read brings
leads there. -/
theorem exists_window_through_bus :
    ∃ s : System, Reachable 1 .standard 0 s ∧ ∃ cache ∈ s.users,
      ∃ w ∈ (s.network.cache cache).windows, (256 : UInt64) ∈ w.range ∧ ∃ target o m,
        s.world.Routes 1 256 target o ∧ s.world.endpoint? target = some (.memory m) ∧
        o.toNat < (m.contents s.world.storage).length ∧
        w.pointerAt 256 = some ⟨some m.block, o⟩ ∧
        (w.permission.allows .write = true → m.readOnly = false ∧ m.discardWrites = false) := by
  have built : Relation.ReflTransGen TargetStep empty _ :=
    ((Relation.ReflTransGen.single (.newMemory empty (List.replicate 16 0) false false none)).tail
      (.newBus _)).tail (.map _ 1 ⟨256, 271, by decide⟩ 0 0 ⟨_, rfl⟩ _ rfl)
  have opened : Opened 1 .standard 0 _ := ⟨_, none, built, ⟨_, rfl⟩, rfl⟩
  have run : Reachable 1 .standard 0 _ :=
    ⟨_, opened, (Relation.ReflTransGen.single (.join _ 7 none)).tail
      (.access _ 0 _ rfl _ rfl .read 256 [0, 0] .plain _ _ rfl)⟩
  exact ⟨_, run, _, mem_users (k := 0) rfl, _, List.mem_cons_self, by decide,
    backs_of_reachable run rfl (.inr (mem_users (k := 0) rfl)) List.mem_cons_self (by decide)⟩

end System

end Interconnect
