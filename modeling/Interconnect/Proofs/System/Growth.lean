import Interconnect.Proofs.System.Wiring

/-!
# Changes that add

Making targets, showing them on buses, attaching handles to them and filling memories leaves
everything that was there before in its place.

## Main Definitions

* `System.Grows` — nothing that was there has gone

## Main Statements

* `Grows.carries` — such a change keeps what the gates need
* `carries_newMemory`, `carries_newBus`, `carries_map`, `carries_loadMemory`, `carries_resetMemory`
-/

namespace Interconnect

namespace System

@[simp] theorem endpoint?_setEndpoint (s : System) (id : TargetId) (e : Endpoint)
    (other : TargetId) :
    (s.setEndpoint id e).world.endpoint? other =
      if other = id then some e else s.world.endpoint? other := by
  simp [setEndpoint, World.setEndpoint, World.endpoint?]

theorem endpoint?_setEndpoint_self (s : System) (id : TargetId) (e : Endpoint) :
    (s.setEndpoint id e).world.endpoint? id = some e :=
  (endpoint?_setEndpoint s id e id).trans (if_pos rfl)

theorem endpoint?_setEndpoint_of_ne (s : System) {id other : TargetId} (e : Endpoint)
    (different : other ≠ id) :
    (s.setEndpoint id e).world.endpoint? other = s.world.endpoint? other :=
  (endpoint?_setEndpoint s id e other).trans (if_neg different)

/-- A target that is replaced by itself leaves the system as it was. -/
theorem setEndpoint_of_endpoint?_eq_some {s : System} {id : TargetId} {e : Endpoint}
    (found : s.world.endpoint? id = some e) : s.setEndpoint id e = s := by
  have same : s.world.state.endpoints.insert id e = s.world.state.endpoints :=
    Table.insert_of_find?_eq_some found
  rw [setEndpoint, World.setEndpoint, same]

/-- **Nothing that was there has gone.** -/
structure Grows (s t : System) : Prop where
  /-- The gates are as before. -/
  connections : t.connections = s.connections
  /-- The initiators are as before. -/
  initiators : t.initiators = s.initiators
  /-- The caches are as before. -/
  caches : t.network.caches = s.network.caches
  /-- No cache is unbound. -/
  bound : ∀ h, (s.network.handle h).caches ⊆ (t.network.handle h).caches
  /-- No link is cut. -/
  links : ∀ h, (s.network.handle h).links ⊆ (t.network.handle h).links
  /-- The handles are still there. -/
  made : ∀ h, s.network.HasHandle h → t.network.HasHandle h
  /-- Buses show what they showed. -/
  buses : ∀ id b, s.world.endpoint? id = some (.bus b) → ∃ b',
    t.world.endpoint? id = some (.bus b') ∧ b'.handle = b.handle ∧ b.mappings ⊆ b'.mappings
  /-- Memories stand where they stood, and may be written as before. -/
  memories : ∀ id m, s.world.endpoint? id = some (.memory m) → ∃ m',
    t.world.endpoint? id = some (.memory m') ∧ m'.block = m.block ∧ m'.readOnly = m.readOnly ∧
      m'.discardWrites = m.discardWrites ∧ m.handles ⊆ m'.handles
  /-- A block that holds anything keeps its length. -/
  length : ∀ block, (s.world.storage.contents block).length ≠ 0 →
    (t.world.storage.contents block).length = (s.world.storage.contents block).length

namespace Grows

variable {s t u : System}

theorem refl (s : System) : s.Grows s :=
  ⟨rfl, rfl, rfl, fun _ => List.Subset.refl _, fun _ => List.Subset.refl _, fun _ h => h,
    fun _ b found => ⟨b, found, rfl, List.Subset.refl _⟩,
    fun _ m found => ⟨m, found, rfl, rfl, rfl, List.Subset.refl _⟩, fun _ _ => rfl⟩

theorem trans (first : s.Grows t) (second : t.Grows u) : s.Grows u where
  connections := second.connections.trans first.connections
  initiators := second.initiators.trans first.initiators
  caches := second.caches.trans first.caches
  bound := fun h => List.Subset.trans (first.bound h) (second.bound h)
  links := fun h => List.Subset.trans (first.links h) (second.links h)
  made := fun h known => second.made h (first.made h known)
  buses := by
    intro id b found
    obtain ⟨b', found', handle, shown⟩ := first.buses id b found
    obtain ⟨b'', found'', handle', shown'⟩ := second.buses id b' found'
    exact ⟨b'', found'', handle'.trans handle, List.Subset.trans shown shown'⟩
  memories := by
    intro id m found
    obtain ⟨m', found', block, readOnly, discard, handles⟩ := first.memories id m found
    obtain ⟨m'', found'', block', readOnly', discard', handles'⟩ := second.memories id m' found'
    exact ⟨m'', found'', block'.trans block, readOnly'.trans readOnly, discard'.trans discard,
      List.Subset.trans handles handles'⟩
  length := by
    intro block holds
    have same := first.length block holds
    rw [← same] at holds
    exact (second.length block holds).trans same

/-- Whoever listened still does. -/
theorem listens (h : s.Grows t) {id : TargetId} {handle : HandleId}
    (heard : s.Listens id handle) : t.Listens id handle := by
  rcases heard with ⟨m, found, bound⟩ | ⟨b, found, linked⟩
  · obtain ⟨m', found', -, -, -, handles⟩ := h.memories id m found
    exact .inl ⟨m', found', handles bound⟩
  · obtain ⟨b', found', same, -⟩ := h.buses id b found
    exact .inr ⟨b', found', same ▸ h.links _ linked⟩

/-- The memory behind an address is still there. -/
theorem backs (h : s.Grows t) (before : s.world.Plain) (after : t.world.Plain) {root : TargetId}
    {a : UInt64} {q : Permission} {p : HostPointer} (backed : s.world.Backs root a q p) :
    t.world.Backs root a q p := by
  have outcome := World.backs_or_exists before after (fun _ _ => False)
    (fun id b found m shown a _ => by
      obtain ⟨b', found', -, shown'⟩ := h.buses id b found
      exact .inr ⟨b', found', shown' shown⟩)
    (fun id m found _ _ a _ => by
      obtain ⟨m', found', block, readOnly, discard, -⟩ := h.memories id m found
      exact .inr ⟨m', found', block, readOnly, discard⟩) h.length backed
  rcases outcome with still | ⟨_, _, _, gone⟩
  · exact still
  · exact gone.elim

/-- **The wiring stays complete if what is new is wired.** -/
theorem wired (h : s.Grows t) (wired : s.Wired) (plain : t.world.Plain)
    (news : ∀ id b', t.world.endpoint? id = some (.bus b') → t.network.HasHandle b'.handle ∧
      ∀ m ∈ b'.mappings,
        (∃ b, s.world.endpoint? id = some (.bus b) ∧ b.handle = b'.handle ∧ m ∈ b.mappings) ∨
        ∃ h, t.Listens m.target h ∧ ⟨b'.handle, some m.rebase⟩ ∈ (t.network.handle h).links) :
    t.Wired where
  plain := plain
  made := fun id b' found => (news id b' found).1
  heard := by
    intro id b' found m shown
    rcases (news id b' found).2 m shown with ⟨b, old, same, shown'⟩ | new
    · obtain ⟨handle, heard, up⟩ := wired.heard id b old m shown'
      exact ⟨handle, h.listens heard, same ▸ h.links _ up⟩
    · exact new

/-- **What has only grown keeps what the gates need.** -/
theorem carries (h : s.Grows t) (before : s.world.Plain) (after : t.Wired) : s.Carries t where
  connections := h.connections
  initiators := h.initiators
  wired := after
  bound := h.bound
  present := fun c known => by
    rw [Network.HasCache, h.caches]
    exact known
  fewer := fun c a q p covers => by
    rw [Network.Offers, Network.cache, h.caches] at covers
    exact covers
  listens := fun _ _ _ _ heard => h.listens heard
  backs := fun _ _ _ _ _ _ _ _ _ _ _ backed => h.backs before after.plain backed

end Grows

/-! ### New targets -/

theorem endpoint?_fresh (s : System) :
    s.world.endpoint? s.world.state.endpoints.fresh = none := by
  simp [World.endpoint?]

theorem endpoint?_addEndpoint (s : System) (e : Endpoint) (id : TargetId) :
    (s.addEndpoint e).2.world.endpoint? id =
      if id = s.world.state.endpoints.fresh then some e else s.world.endpoint? id :=
  endpoint?_setEndpoint s _ e id

/-- A new target stands where none stood. -/
theorem grows_addEndpoint (s : System) (e : Endpoint) : s.Grows (s.addEndpoint e).2 := by
  have others : ∀ id e', s.world.endpoint? id = some e' →
      (s.addEndpoint e).2.world.endpoint? id = some e' := by
    intro id e' found
    have different : id ≠ s.world.state.endpoints.fresh := by
      rintro rfl
      rw [endpoint?_fresh] at found
      cases found
    exact (endpoint?_addEndpoint s e id).trans ((if_neg different).trans found)
  exact ⟨rfl, rfl, rfl, fun _ => List.Subset.refl _, fun _ => List.Subset.refl _, fun _ h => h,
    fun id b found => ⟨b, others id _ found, rfl, List.Subset.refl _⟩,
    fun id m found => ⟨m, others id _ found, rfl, rfl, rfl, List.Subset.refl _⟩,
    fun _ _ => rfl⟩

/-- Storage may change as long as no block that holds anything changes its length. -/
theorem grows_storage (s : System) (storage : StorageBank)
    (length : ∀ block, (s.world.storage.contents block).length ≠ 0 →
      (storage.contents block).length = (s.world.storage.contents block).length) :
    s.Grows { s with world := { s.world with storage := storage } } :=
  ⟨rfl, rfl, rfl, fun _ => List.Subset.refl _, fun _ => List.Subset.refl _, fun _ h => h,
    fun _ b found => ⟨b, found, rfl, List.Subset.refl _⟩,
    fun _ m found => ⟨m, found, rfl, rfl, rfl, List.Subset.refl _⟩, length⟩

/-- Handles may be added and linked. -/
theorem grows_network (s : System) (net : Network) (caches : net.caches = s.network.caches)
    (bound : ∀ h, (s.network.handle h).caches ⊆ (net.handle h).caches)
    (links : ∀ h, (s.network.handle h).links ⊆ (net.handle h).links)
    (made : ∀ h, s.network.HasHandle h → net.HasHandle h) : s.Grows { s with network := net } :=
  ⟨rfl, rfl, caches, bound, links, made, fun _ b found => ⟨b, found, rfl, List.Subset.refl _⟩,
    fun _ m found => ⟨m, found, rfl, rfl, rfl, List.Subset.refl _⟩, fun _ _ => rfl⟩

/-- A new block stands where none stood. -/
theorem grows_allocate (s : System) (bytes : Bytes) : s.Grows (s.allocate bytes).2 := by
  refine s.grows_storage _ fun block holds => ?_
  rw [StorageBank.contents_setContents, if_neg]
  rintro rfl
  simp [StorageBank.contents] at holds

/-- A handle that is new changes no other. -/
theorem grows_setHandle_fresh (s : System) (made : Handle) :
    s.Grows { s with network := s.network.setHandle s.network.handles.fresh made } := by
  have others : ∀ h, h ≠ s.network.handles.fresh →
      (s.network.setHandle s.network.handles.fresh made).handle h = s.network.handle h := by
    intro h different
    rw [Network.handle_setHandle, if_neg different]
  have blank : s.network.handle s.network.handles.fresh = ⟨[], []⟩ := by simp [Network.handle]
  refine s.grows_network _ rfl ?_ ?_ fun h => Network.hasHandle_setHandle
  · intro h
    by_cases new : h = s.network.handles.fresh
    · rw [new, blank]
      exact List.nil_subset _
    · rw [others h new]
      exact List.Subset.refl _
  · intro h
    by_cases new : h = s.network.handles.fresh
    · rw [new, blank]
      exact List.nil_subset _
    · rw [others h new]
      exact List.Subset.refl _

/-- The memories and buses of a system with one more. -/
theorem wired_addEndpoint {s : System} (wired : s.Wired) {e : Endpoint}
    (kind : (∃ m, e = .memory m) ∨ ∃ b, e = .bus b)
    (hollow : ∀ b, e = .bus b → b.mappings = [] ∧ s.network.HasHandle b.handle) :
    (s.addEndpoint e).2.Wired := by
  have seen := endpoint?_addEndpoint s e
  refine (grows_addEndpoint s e).wired wired ⟨?_, ?_⟩ ?_
  · intro id e' found
    rw [seen] at found
    split at found
    · cases found
      exact kind
    · exact wired.plain.kinds id e' found
  · intro id b found
    rw [seen] at found
    split at found
    · cases found
      exact BusOver.ordered_of_mappings_eq_nil (hollow b rfl).1
    · exact wired.plain.ordered id b found
  · intro id b found
    rw [seen] at found
    split at found
    · cases found
      rw [(hollow b rfl).1]
      exact ⟨(hollow b rfl).2, fun _ absent => absurd absent List.not_mem_nil⟩
    · exact ⟨wired.made id b found, fun m shown => .inl ⟨b, found, rfl, shown⟩⟩

/-- A system whose storage or handles have grown, but whose targets are the same. -/
theorem Grows.wired_of_state {s t : System} (h : s.Grows t) (wired : s.Wired)
    (state : t.world.state = s.world.state) : t.Wired :=
  wired.of_links (fun id => by rw [World.endpoint?, state, World.endpoint?]) h.links h.made

/-- A memory over a new block. -/
theorem carries_allocate_memory {s : System} (wired : s.Wired) (bytes : Bytes) (m : Memory) :
    s.Carries ((s.allocate bytes).2.addEndpoint (.memory m)).2 := by
  have grown := grows_allocate s bytes
  have middle := grown.wired_of_state wired rfl
  exact (grown.trans (grows_addEndpoint _ _)).carries wired.plain
    (wired_addEndpoint middle (.inl ⟨_, rfl⟩) fun b absurd => by cases absurd)

theorem carries_newMemory {s : System} (wired : s.Wired) (bytes : Bytes)
    (readOnly discardWrites : Bool) (poison : Option UInt8) :
    s.Carries (s.newMemory bytes readOnly discardWrites poison).2 :=
  carries_allocate_memory wired _ _

theorem carries_newBus {s : System} (wired : s.Wired) : s.Carries s.newBus.2 := by
  have grown := grows_setHandle_fresh s ⟨[], []⟩
  have middle := grown.wired_of_state wired rfl
  refine (grown.trans (grows_addEndpoint _ _)).carries wired.plain
    (wired_addEndpoint middle (.inr ⟨_, rfl⟩) ?_)
  rintro b ⟨⟩
  exact ⟨BusOver.mappings_ofHandle _, Network.hasHandle_setHandle_self⟩

/-! ### Contents -/

/-- A change of bytes alone keeps everything. -/
theorem carries_of_alike {s : System} (wired : s.Wired) {storage : StorageBank}
    (same : s.world.Alike { s.world with storage := storage }) :
    s.Carries { s with world := { s.world with storage := storage } } := by
  have grown := s.grows_storage storage fun block _ => same.length block
  exact grown.carries wired.plain (grown.wired_of_state wired rfl)

theorem carries_loadMemory {s after : System} (wired : s.Wired) {id : TargetId} {offset : UInt64}
    {bytes : Bytes} (loaded : s.loadMemory id offset bytes = .ok after) : s.Carries after := by
  unfold loadMemory at loaded
  split at loaded
  · next m found =>
      obtain ⟨storage, stored, rfl⟩ := map_eq_ok_iff.1 loaded
      unfold Memory.load at stored
      dsimp only at stored
      split at stored
      · cases stored
        exact carries_of_alike wired
          ((World.Alike.refl s.world).setContents (Bytes.length_overwrite _ _ _))
      · cases stored
  · cases loaded
    exact .refl wired

theorem carries_resetMemory {s : System} (wired : s.Wired) (id : TargetId) :
    s.Carries (s.resetMemory id) := by
  unfold resetMemory
  split
  · next m found =>
      exact carries_of_alike wired
        ((World.Alike.refl s.world).setContents List.length_replicate)
  · exact .refl wired

/-! ### Attachment -/

/-- A memory notes the handle, and a bus passes on to it what comes to its own. -/
theorem attach_cases {s : System} (wired : s.Wired) (id : TargetId) (h : HandleId) :
    (∃ m, s.world.endpoint? id = some (.memory m) ∧
        s.attach id h = s.setEndpoint id (.memory { m with handles := m.handles ++ [h] })) ∨
      (∃ b, s.world.endpoint? id = some (.bus b) ∧
        s.attach id h = { s with network := s.network.forward b.handle h }) ∨
      s.world.endpoint? id = none ∧ s.attach id h = s := by
  unfold attach
  cases found : s.world.endpoint? id with
  | none => exact .inr (.inr ⟨rfl, rfl⟩)
  | some e =>
      rcases wired.plain.kinds id e found with ⟨m, rfl⟩ | ⟨b, rfl⟩
      · exact .inl ⟨m, rfl, rfl⟩
      · exact .inr (.inl ⟨b, rfl, rfl⟩)

/-- Attachment leaves all buses as they are. -/
theorem endpoint?_attach_of_bus {s : System} (wired : s.Wired) (id : TargetId) (h : HandleId)
    {other : TargetId} {b : Bus} :
    (s.attach id h).world.endpoint? other = some (.bus b) ↔
      s.world.endpoint? other = some (.bus b) := by
  rcases attach_cases wired id h with ⟨m, found, attached⟩ | ⟨_, _, attached⟩ | ⟨-, attached⟩
  · rw [attached, endpoint?_setEndpoint]
    split
    · next same => simp [same, found]
    · rfl
  · rw [attached]
  · rw [attached]

theorem grows_attach {s : System} (wired : s.Wired) (id : TargetId) (h : HandleId) :
    s.Grows (s.attach id h) := by
  rcases attach_cases wired id h with ⟨m, found, attached⟩ | ⟨b, found, attached⟩ | ⟨-, attached⟩
  · rw [attached]
    refine ⟨rfl, rfl, rfl, fun _ => List.Subset.refl _, fun _ => List.Subset.refl _,
      fun _ h => h, ?_, ?_, fun _ _ => rfl⟩
    · intro other b found'
      refine ⟨b, ?_, rfl, List.Subset.refl _⟩
      rw [endpoint?_setEndpoint, if_neg, found']
      rintro rfl
      rw [found] at found'
      cases found'
    · intro other m' found'
      by_cases same : other = id
      · subst same
        rw [found] at found'
        cases found'
        exact ⟨_, endpoint?_setEndpoint_self _ _ _, rfl, rfl, rfl,
          List.subset_append_left _ _⟩
      · exact ⟨m', (endpoint?_setEndpoint_of_ne _ _ same).trans found', rfl, rfl,
          rfl, List.Subset.refl _⟩
  · rw [attached]
    refine s.grows_network _ (Network.caches_forward _ _ _) ?_ ?_ fun _ => Network.hasHandle_forward
    · intro other
      rw [Network.caches_handle_forward]
      exact List.Subset.refl _
    · exact fun other link old => Network.mem_links_forward_iff.2 (.inl old)
  · rw [attached]
    exact .refl s

theorem wired_attach {s : System} (wired : s.Wired) (id : TargetId) (h : HandleId) :
    (s.attach id h).Wired := by
  refine (grows_attach wired id h).wired wired ⟨?_, ?_⟩ ?_
  · intro other e found
    rcases attach_cases wired id h with ⟨m, -, attached⟩ | ⟨b, -, attached⟩ | ⟨-, attached⟩
    · rw [attached, endpoint?_setEndpoint] at found
      split at found
      · cases found
        exact .inl ⟨_, rfl⟩
      · exact wired.plain.kinds other e found
    · rw [attached] at found
      exact wired.plain.kinds other e found
    · rw [attached] at found
      exact wired.plain.kinds other e found
  · exact fun other b found =>
      wired.plain.ordered other b ((endpoint?_attach_of_bus wired id h).1 found)
  · intro other b found
    have old := (endpoint?_attach_of_bus wired id h).1 found
    exact ⟨(grows_attach wired id h).made _ (wired.made other b old),
      fun m shown => .inl ⟨b, old, rfl, shown⟩⟩

/-- **A handle that has been attached to a target hears from it.** -/
theorem listens_attach {s : System} (wired : s.Wired) {id : TargetId} (known : s.HasTarget id)
    {h : HandleId} (other : ∀ b, s.world.endpoint? id = some (.bus b) → b.handle ≠ h) :
    (s.attach id h).Listens id h := by
  rcases attach_cases wired id h with ⟨m, found, attached⟩ | ⟨b, found, attached⟩ | ⟨absent, -⟩
  · rw [attached]
    exact .inl ⟨_, endpoint?_setEndpoint_self _ _ _, by simp⟩
  · rw [attached]
    exact .inr ⟨b, found, Network.mem_links_forward_iff.2 (.inr ⟨rfl, other b found, rfl⟩)⟩
  · obtain ⟨e, found⟩ := known
    rw [absent] at found
    cases found

/-! ### Mappings -/

theorem bus?_eq_some_iff {s : System} {id : TargetId} {b : Bus} :
    s.bus? id = some b ↔ s.world.endpoint? id = some (.bus b) := by
  unfold bus?
  split
  · next found => simp [found]
  · next other =>
      refine ⟨fun h => (by cases h), fun found => ?_⟩
      exact absurd found (other b)

/-- Whoever listens does not mind what a bus shows. -/
theorem listens_setBus {s : System} {id : TargetId} {b : Bus}
    (found : s.world.endpoint? id = some (.bus b)) (b' : Bus) (handle : b'.handle = b.handle)
    {other : TargetId} {h : HandleId} (heard : s.Listens other h) :
    (s.setEndpoint id (.bus b')).Listens other h := by
  rcases heard with ⟨m, found', bound⟩ | ⟨n, found', linked⟩
  · refine .inl ⟨m, (endpoint?_setEndpoint_of_ne _ _ ?_).trans found', bound⟩
    rintro rfl
    rw [found] at found'
    cases found'
  · by_cases same : other = id
    · subst same
      rw [found] at found'
      cases found'
      exact .inr ⟨b', endpoint?_setEndpoint_self _ _ _, handle ▸ linked⟩
    · exact .inr ⟨n, (endpoint?_setEndpoint_of_ne _ _ same).trans found', linked⟩

/-- **The mappings of a bus may change if those that are new are wired.** -/
theorem wired_setBus {s : System} (wired : s.Wired) {id : TargetId} {b : Bus}
    (found : s.world.endpoint? id = some (.bus b)) (b' : Bus) (handle : b'.handle = b.handle)
    (ordered : b'.Ordered)
    (news : ∀ m ∈ b'.mappings, m ∈ b.mappings ∨ ∃ h,
      s.Listens m.target h ∧ ⟨b.handle, some m.rebase⟩ ∈ (s.network.handle h).links) :
    (s.setEndpoint id (.bus b')).Wired := by
  refine ⟨⟨?_, ?_⟩, ?_, ?_⟩
  · intro other e seen
    rw [endpoint?_setEndpoint] at seen
    split at seen
    · cases seen
      exact .inr ⟨_, rfl⟩
    · exact wired.plain.kinds other e seen
  · intro other n seen
    rw [endpoint?_setEndpoint] at seen
    split at seen
    · cases seen
      exact ordered
    · exact wired.plain.ordered other n seen
  · intro other n seen
    rw [endpoint?_setEndpoint] at seen
    split at seen
    · cases seen
      rw [handle]
      exact wired.made id b found
    · exact wired.made other n seen
  · intro other n seen m shown
    rw [endpoint?_setEndpoint] at seen
    split at seen
    · cases seen
      have heard : ∃ h, s.Listens m.target h ∧
          ⟨b.handle, some m.rebase⟩ ∈ (s.network.handle h).links :=
        (news m shown).elim (wired.heard id b found m) fun new => new
      obtain ⟨h, heard, up⟩ := heard
      exact ⟨h, listens_setBus found b' handle heard, handle ▸ up⟩
    · obtain ⟨h, heard, up⟩ := wired.heard other n seen m shown
      exact ⟨h, listens_setBus found b' handle heard, up⟩

/-- A bus may show more. -/
theorem grows_setBus {s : System} {id : TargetId} {b : Bus}
    (found : s.world.endpoint? id = some (.bus b)) (b' : Bus) (handle : b'.handle = b.handle)
    (more : b.mappings ⊆ b'.mappings) : s.Grows (s.setEndpoint id (.bus b')) := by
  refine ⟨rfl, rfl, rfl, fun _ => List.Subset.refl _, fun _ => List.Subset.refl _, fun _ h => h,
    ?_, ?_, fun _ _ => rfl⟩
  · intro other n found'
    by_cases same : other = id
    · subst same
      rw [found] at found'
      cases found'
      exact ⟨b', endpoint?_setEndpoint_self _ _ _, handle, more⟩
    · exact ⟨n, (endpoint?_setEndpoint_of_ne _ _ same).trans found', rfl,
        List.Subset.refl _⟩
  · intro other m found'
    refine ⟨m, (endpoint?_setEndpoint_of_ne _ _ ?_).trans found', rfl, rfl, rfl,
      List.Subset.refl _⟩
    rintro rfl
    rw [found] at found'
    cases found'

/-- **What a mapping does that succeeds:** a handle is made that relays to the bus, the target is
given it, and the bus shows the target.  What is no bus stays as it is. -/
theorem map_cases {s after : System} {id : TargetId} {range : AddressRange} {offset : UInt64}
    {target : TargetId} (mapped : s.map id range offset target = (.ok (), after)) :
    s.bus? id = none ∧ after = s ∨
      ∃ b m b', s.world.endpoint? id = some (.bus b) ∧ b.map range offset target = (.ok m, b') ∧
        after = ({ s with network := (s.network.rebased b'.handle m.rebase).2 }.attach target
          s.network.handles.fresh).setEndpoint id (.bus b') := by
  unfold map at mapped
  split at mapped
  · next b known =>
      split at mapped
      · cases mapped
      · next m b' made =>
          cases mapped
          exact .inr ⟨b, m, b', bus?_eq_some_iff.1 known, made, rfl⟩
  · next absent =>
      cases mapped
      exact .inl ⟨absent, rfl⟩

/-- **A bus that shows one more target.**  The new mapping has its handle, and no other mapping is
in its way. -/
theorem carries_map {s after : System} (wired : s.Wired) {id : TargetId} {range : AddressRange}
    {offset : UInt64} {target : TargetId} (known : s.HasTarget target)
    (mapped : s.map id range offset target = (.ok (), after)) : s.Carries after := by
  obtain ⟨-, rfl⟩ | ⟨b, m, b', found, made, rfl⟩ := map_cases mapped
  · exact .refl wired
  · obtain ⟨⟨-, -, same⟩, ordered, handle, shows⟩ :=
      (wired.plain.ordered id b found).of_map_eq_ok made
    -- the handle of the new mapping, the attachment, and the mapping itself
    have first := grows_setHandle_fresh s ⟨[], [⟨b'.handle, some m.rebase⟩]⟩
    have wiredFirst := first.wired_of_state wired rfl
    have second := grows_attach wiredFirst target s.network.handles.fresh
    have wiredSecond := wired_attach wiredFirst target s.network.handles.fresh
    have shown := (endpoint?_attach_of_bus wiredFirst target s.network.handles.fresh).2 found
    have heard := listens_attach wiredFirst known (h := s.network.handles.fresh) ?_
    · have third := grows_setBus shown b' handle fun n old => (shows n).2 (.inr old)
      refine ((first.trans second).trans third).carries wired.plain ?_
      refine wired_setBus wiredSecond shown b' handle ordered fun n there => ?_
      rcases (shows n).1 there with rfl | old
      · refine .inr ⟨s.network.handles.fresh, same ▸ heard, second.links _ ?_⟩
        simp [Network.handle_setHandle, handle]
      · exact .inl old
    · -- no target has the new handle as its own
      intro n seen same
      exact s.network.not_hasHandle_fresh (same ▸ wired.made target n seen)

end System

end Interconnect
