import Interconnect.Proofs.System.Run

/-!
# How withdrawals find their way

Every target tells certain handles what it withdraws, and every mapping of a bus has a handle that
carries it from the shown target to the bus.  So a withdrawal at a target comes to whoever reaches
the target through buses, at the very addresses that lead there.

## Main Definitions

* `System.Listens` — a handle hears what a target withdraws
* `System.Wired` — every mapping has its handle
* `System.Carries` — what a change of the targets must keep for the gates that stand before them

## Main Statements

* `Wired.exists_reaches` — a withdrawal comes up the way that an access takes down
* `World.backs_or_exists` — what a change leaves of the memory behind an address
* `carries_of_lost` — what a change loses must have been withdrawn
-/

namespace Interconnect

namespace World

/-- **A change of the targets leaves the memory behind an address,** unless the access meets on its
way something that `lost` names: a mapping that has ended or a memory that has changed. -/
theorem backs_or_exists {w v : World Platform} (before : w.Plain) (after : v.Plain)
    (lost : TargetId → UInt64 → Prop)
    (buses : ∀ id b, w.endpoint? id = some (.bus b) → ∀ m ∈ b.mappings, ∀ a ∈ m.range,
      lost id a ∨ ∃ b', v.endpoint? id = some (.bus b') ∧ m ∈ b'.mappings)
    (memories : ∀ id m, w.endpoint? id = some (.memory m) → ∀ extent,
      m.extent w.storage = some extent → ∀ a ∈ extent, lost id a ∨ ∃ m',
        v.endpoint? id = some (.memory m') ∧ m'.block = m.block ∧ m'.readOnly = m.readOnly ∧
          m'.discardWrites = m.discardWrites)
    (length : ∀ block, (w.storage.contents block).length ≠ 0 →
      (v.storage.contents block).length = (w.storage.contents block).length)
    {root : TargetId} {a : UInt64} {q : Permission} {p : HostPointer} (h : w.Backs root a q p) :
    v.Backs root a q p ∨ ∃ id o, w.Routes root a id o ∧ lost id o := by
  obtain ⟨id, o, m, extent, routes, found, whole, inside, rfl, writable⟩ := h
  -- the first change on the way decides
  induction routes with
  | here id a =>
      rcases memories id m found extent whole a inside with
        gone | ⟨m', found', block, readOnly, discard⟩
      · exact .inr ⟨id, a, .here id a, gone⟩
      · refine .inl ⟨id, a, m', extent, .here id a, found', ?_, inside, by rw [block], ?_⟩
        · rw [← whole]
          refine Memory.extent_congr ?_
          rw [Memory.contents, block]
          exact length m.block (Memory.extent_eq_some_iff.1 whole).1
        · rw [readOnly, discard]
          exact writable
  | @through id a b n place other final bus routed rest ih =>
      obtain ⟨shown, within, same⟩ := (before.ordered id b bus).route_single_eq_some_iff.1 routed
      rcases buses id b bus n shown a within with gone | ⟨b', bus', shown'⟩
      · exact .inr ⟨id, a, .here id a, gone⟩
      · have routed' := (after.ordered id b' bus').route_single_eq_some_iff.2
          ⟨shown', within, same⟩
        rcases ih found inside with ⟨id', o', m', extent', routes', backed⟩ |
          ⟨id', o', routes', gone⟩
        · exact .inl ⟨id', o', m', extent', .through bus' routed' routes', backed⟩
        · exact .inr ⟨id', o', .through bus routed routes', gone⟩

/-- A change of bytes leaves the memory behind every address. -/
theorem Alike.backs {w v : World Platform} (plain : w.Plain) (same : w.Alike v) {root : TargetId}
    {a : UInt64} {q : Permission} {p : HostPointer} (h : w.Backs root a q p) :
    v.Backs root a q p := by
  have after : v.Plain :=
    ⟨fun id e found => plain.kinds id e ((same.endpoint? id).symm.trans found),
      fun id b found => plain.ordered id b ((same.endpoint? id).symm.trans found)⟩
  rcases backs_or_exists plain after (fun _ _ => False)
    (fun id b found m shown _ _ => .inr ⟨b, (same.endpoint? id).trans found, shown⟩)
    (fun id m found _ _ _ _ => .inr ⟨m, (same.endpoint? id).trans found, rfl, rfl, rfl⟩)
    (fun block _ => same.length block) h with backed | ⟨_, _, _, gone⟩
  · exact backed
  · exact gone.elim

end World

namespace System

/-- **Handle `h` hears what target `id` withdraws.** -/
def Listens (s : System) (id : TargetId) (h : HandleId) : Prop :=
  (∃ m, s.world.endpoint? id = some (.memory m) ∧ h ∈ m.handles) ∨
    ∃ b, s.world.endpoint? id = some (.bus b) ∧ ⟨h, none⟩ ∈ (s.network.handle b.handle).links

/-- The handles through which target `id` withdraws. -/
def Withdraws (s : System) (id : TargetId) (h : HandleId) : Prop :=
  (∃ m, s.world.endpoint? id = some (.memory m) ∧ h ∈ m.handles) ∨
    ∃ b, s.world.endpoint? id = some (.bus b) ∧ h = b.handle

/-- **Every mapping has its handle,** which hears what the shown target withdraws and passes it on
to the handle of the bus. -/
structure Wired (s : System) : Prop where
  /-- There are memories and well-ordered buses only. -/
  plain : s.world.Plain
  /-- The handle of a bus has been made. -/
  made : ∀ id b, s.world.endpoint? id = some (.bus b) → s.network.HasHandle b.handle
  /-- What a shown target withdraws comes to the bus. -/
  heard : ∀ id b, s.world.endpoint? id = some (.bus b) → ∀ m ∈ b.mappings, ∃ h,
    s.Listens m.target h ∧ ⟨b.handle, some m.rebase⟩ ∈ (s.network.handle h).links

/-- Whoever listens keeps listening while the targets stay and links are only added. -/
theorem Listens.of_links {s t : System} {id : TargetId} {h : HandleId} (heard : s.Listens id h)
    (same : ∀ id, t.world.endpoint? id = s.world.endpoint? id)
    (links : ∀ h, (s.network.handle h).links ⊆ (t.network.handle h).links) : t.Listens id h := by
  rcases heard with ⟨m, seen, bound⟩ | ⟨b, seen, linked⟩
  · exact .inl ⟨m, (same id).trans seen, bound⟩
  · exact .inr ⟨b, (same id).trans seen, links _ linked⟩

/-- The wiring stays complete while the targets stay and handles and links are only added. -/
theorem Wired.of_links {s t : System} (wired : s.Wired)
    (same : ∀ id, t.world.endpoint? id = s.world.endpoint? id)
    (links : ∀ h, (s.network.handle h).links ⊆ (t.network.handle h).links)
    (made : ∀ h, s.network.HasHandle h → t.network.HasHandle h) : t.Wired where
  plain := ⟨fun id e found => wired.plain.kinds id e ((same id).symm.trans found),
    fun id b found => wired.plain.ordered id b ((same id).symm.trans found)⟩
  made := fun id b found => made _ (wired.made id b ((same id).symm.trans found))
  heard := by
    intro id b found m shown
    obtain ⟨h, heard, up⟩ := wired.heard id b ((same id).symm.trans found) m shown
    exact ⟨h, heard.of_links same links, links _ up⟩

/-- **A withdrawal comes up the way that an access takes down.** -/
theorem Wired.exists_reaches {s : System} (wired : s.Wired) {root : TargetId} {a : UInt64}
    {id : TargetId} {o : UInt64} (routes : s.world.Routes root a id o) {h : HandleId}
    (listens : s.Listens root h) {range : AddressRange} (inside : o ∈ range) :
    ∃ start final, s.Withdraws id start ∧ s.network.Reaches start range h final ∧ a ∈ final := by
  -- on the way up it comes to the bus through the handle of the mapping, then to whoever listens
  induction routes generalizing h with
  | here id a =>
      rcases listens with ⟨m, found, bound⟩ | ⟨b, found, linked⟩
      · exact ⟨h, range, .inl ⟨m, found, bound⟩, .here h range, inside⟩
      · exact ⟨b.handle, range, .inr ⟨b, found, rfl⟩, .along linked rfl (.here h range), inside⟩
  | @through id a b m place other final bus routed rest ih =>
      obtain ⟨shown, within, same⟩ :=
        (wired.plain.ordered id b bus).route_single_eq_some_iff.1 routed
      have behind : place = m.behind a := by
        simpa [AddressRange.single] using congrArg AddressRange.start same
      obtain ⟨own, heard, up⟩ := wired.heard id b bus m shown
      obtain ⟨start, below, withdraws, reaches, arrived⟩ := ih heard inside
      rw [behind] at arrived
      obtain ⟨image, moved, covered⟩ := Mapping.exists_image_rebase within arrived
      have atBus : s.network.Reaches start range b.handle image := reaches.snoc up moved
      rcases listens with ⟨mem, found, -⟩ | ⟨b', found, linked⟩
      · rw [bus] at found
        cases found
      · rw [bus] at found
        cases found
        exact ⟨start, image, withdraws, atBus.snoc linked rfl, covered⟩

/-- **What a change of the targets keeps for the gates before them:** whoever listened still does,
caches only lose mappings, and what they still map is backed if it was backed before. -/
structure Carries (s t : System) : Prop where
  /-- The gates are as before. -/
  connections : t.connections = s.connections
  /-- The initiators are as before. -/
  initiators : t.initiators = s.initiators
  /-- The wiring is complete. -/
  wired : t.Wired
  /-- No cache is unbound. -/
  bound : ∀ h, (s.network.handle h).caches ⊆ (t.network.handle h).caches
  /-- The caches are still there. -/
  present : ∀ c, s.network.HasCache c → t.network.HasCache c
  /-- Nothing is mapped that was not mapped before. -/
  fewer : ∀ c a q p, t.network.Offers c a q p → s.network.Offers c a q p
  /-- A gate still listens to its target. -/
  listens : ∀ k c, s.connections.find? k = some c → ∀ h, s.Listens c.target h →
    t.Listens c.target h
  /-- A mapping of a cache that hears from the target of a gate is still backed. -/
  backs : ∀ k c, s.connections.find? k = some c → ∀ h, s.Listens c.target h →
    ∀ cache ∈ (s.network.handle h).caches, ∀ a q p, t.network.Offers cache a q p →
      s.world.Backs c.target a q p → t.world.Backs c.target a q p

theorem Carries.refl {s : System} (wired : s.Wired) : s.Carries s :=
  ⟨rfl, rfl, wired, fun _ => List.Subset.refl _, fun _ h => h, fun _ _ _ _ h => h,
    fun _ _ _ _ h => h, fun _ _ _ _ _ _ _ _ _ _ _ h => h⟩

theorem Carries.trans {s t u : System} (first : s.Carries t) (second : t.Carries u) :
    s.Carries u where
  connections := second.connections.trans first.connections
  initiators := second.initiators.trans first.initiators
  wired := second.wired
  bound := fun h c bound => second.bound h (first.bound h bound)
  present := fun c h => second.present c (first.present c h)
  fewer := fun c a q p h => first.fewer c a q p (second.fewer c a q p h)
  listens := fun k c connected h listens =>
    second.listens k c (first.connections ▸ connected) h (first.listens k c connected h listens)
  backs := by
    intro k c connected h listens cache bound a q p offered backed
    have middle := first.backs k c connected h listens cache bound a q p
      (second.fewer cache a q p offered) backed
    exact second.backs k c (first.connections ▸ connected) h
      (first.listens k c connected h listens) cache (first.bound h bound) a q p offered middle

/-- **A change of the targets keeps what the gates need if what it loses has been withdrawn.** -/
theorem carries_of_lost {s t : System} (wired : s.Wired) (rewired : t.Wired)
    (connections : t.connections = s.connections) (initiators : t.initiators = s.initiators)
    (sheds : s.network.Sheds t.network)
    (length : ∀ block, (s.world.storage.contents block).length ≠ 0 →
      (t.world.storage.contents block).length = (s.world.storage.contents block).length)
    (listens : ∀ k c, s.connections.find? k = some c → ∀ h, s.Listens c.target h →
      t.Listens c.target h)
    (lost : TargetId → UInt64 → Prop)
    (buses : ∀ id b, s.world.endpoint? id = some (.bus b) → ∀ m ∈ b.mappings, ∀ a ∈ m.range,
      lost id a ∨ ∃ b', t.world.endpoint? id = some (.bus b') ∧ m ∈ b'.mappings)
    (memories : ∀ id m, s.world.endpoint? id = some (.memory m) → ∀ extent,
      m.extent s.world.storage = some extent → ∀ a ∈ extent, lost id a ∨ ∃ m',
        t.world.endpoint? id = some (.memory m') ∧ m'.block = m.block ∧ m'.readOnly = m.readOnly ∧
          m'.discardWrites = m.discardWrites)
    (withdrawn : ∀ k c, s.connections.find? k = some c → ∀ h, s.Listens c.target h →
      ∀ cache ∈ (s.network.handle h).caches, ∀ a id o, s.world.Routes c.target a id o →
        lost id o → ∀ q p, ¬ t.network.Offers cache a q p) : s.Carries t where
  connections := connections
  initiators := initiators
  wired := rewired
  bound := fun h => by
    rw [sheds.handle]
    exact List.Subset.refl _
  present := sheds.present
  fewer := sheds.fewer
  listens := listens
  backs := by
    intro k c connected h heard cache bound a q p offered backed
    rcases World.backs_or_exists wired.plain rewired.plain lost buses memories length backed with
      still | ⟨id, o, routes, gone⟩
    · exact still
    · exact absurd offered (withdrawn k c connected h heard cache bound a id o routes gone q p)

end System

end Interconnect
