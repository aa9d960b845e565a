import Interconnect.Proofs.Gate.Effect

/-!
# Grants and accesses

Where a granted window comes from, which accesses go through a cached window, and what an access
does to everything else.

## Main Statements

* `Station.offer_cases` — a window is remembered or has just been offered
* `Station.exists_maps_of_grant` — a granted window is a part of it
* `Initiator.access_cases` — an access goes through a cached window or through the gate
* `Initiator.effects_of_access` — an access is a sequence of effects
* `Station.settled_of_effects` — what no effect changes
-/

namespace Interconnect

universe u

variable {σ : Type u}

namespace Gate

/-! ### A new gate -/

/-- A new gate has a new cache, and no other cache changes. -/
theorem caches_create (config : GateConfig) (net : Network) :
    (create config net).2.caches =
      net.caches.insert (create config net).1.grants (.withLimit config.entryLimit) := by
  simp [create, Network.addCache, Network.addHandle, Network.setCache, Network.setHandle]

/-- A new gate has a new handle, to which its cache is bound, and no other handle changes. -/
theorem handle_create (config : GateConfig) (net : Network) (id : HandleId) :
    (create config net).2.handle id =
      if id = (create config net).1.handle then ⟨[(create config net).1.grants], []⟩
      else net.handle id := by
  simp only [create, Network.addCache, Network.addHandle, Network.bind,
    Network.handle_setHandle, if_true, List.contains_nil, Bool.false_eq_true, if_false,
    List.nil_append]
  split <;> rfl

theorem handle_create_eq (config : GateConfig) (net : Network) :
    (create config net).1.handle = net.handles.fresh := rfl

theorem hasHandle_create {config : GateConfig} {net : Network} {id : HandleId}
    (h : net.HasHandle id) : (create config net).2.HasHandle id :=
  Network.hasHandle_bind (Network.hasHandle_setHandle h)

end Gate

namespace Station

variable {T : Target σ}

/-! ### Where a window comes from -/

@[simp] theorem grants_setGrants (s : Station σ) (c : WindowCache) :
    (s.setGrants c).grants = c := by
  simp [grants, setGrants]

@[simp] theorem grants_setWorld (s : Station σ) (world : World σ) :
    (s.setWorld world).grants = s.grants := rfl

/-- **A window is remembered by the gate, or has just been offered by the target.** -/
theorem offer_cases (T : Target σ) (access : Access) (s : Station σ) :
    (∃ w ∈ s.grants.windows, s.offer T access =
        (some w, s.setGrants (s.grants.lookup access.range access.command).2)) ∨
      (∃ w world,
        T.window access.range (s.attributes access.owner false access.exclusive) s.world =
          (some w, world) ∧
        s.offer T access = (some w,
          ((s.setGrants (s.grants.lookup access.range access.command).2).setWorld world).setGrants
            ((s.grants.lookup access.range access.command).2.insert w))) ∨
      ∃ world,
        T.window access.range (s.attributes access.owner false access.exclusive) s.world =
          (none, world) ∧
        s.offer T access =
          (none, (s.setGrants (s.grants.lookup access.range access.command).2).setWorld world) := by
  -- the target is asked only if the gate remembers nothing
  cases known : (s.grants.lookup access.range access.command).1 with
  | some w =>
      refine .inl ⟨w, (WindowCache.mem_windows_of_lookup known).1, ?_⟩
      simp [offer, known]
  | none =>
      have asked : (s.setGrants (s.grants.lookup access.range access.command).2).attributes
          access.owner false access.exclusive =
          s.attributes access.owner false access.exclusive := rfl
      cases answer : T.window access.range (s.attributes access.owner false access.exclusive)
          s.world with
      | mk offered world =>
          cases offered with
          | some w =>
              refine .inr (.inl ⟨w, world, rfl, ?_⟩)
              simp [offer, known, asked, answer]
          | none =>
              refine .inr (.inr ⟨world, rfl, ?_⟩)
              simp [offer, known, asked, answer]

/-- A gate that grants windows carves what is offered; another grants none. -/
theorem grant_cases (T : Target σ) (access : Access) (s : Station σ) :
    (s.gate.config.allowDirect = true ∧ s.grant T access =
        ((s.offer T access).1.bind (s.gate.monitor.carve access), (s.offer T access).2)) ∨
      (s.gate.config.allowDirect = false ∧ s.grant T access = (none, s)) := by
  unfold grant
  split
  · next allowed =>
      refine .inl ⟨allowed, ?_⟩
      simp
  · next refused => exact .inr ⟨Bool.not_eq_true _ ▸ refused, rfl⟩

/-- A granted window has been carved out of one that the gate remembers, by a gate that grants
windows. -/
theorem exists_carve_of_grant {s : Station σ} {access : Access} {w : DirectWindow}
    (h : (s.grant T access).1 = some w) :
    s.gate.config.allowDirect = true ∧ ∃ v, (s.offer T access).1 = some v ∧
      s.gate.monitor.carve access v = some w := by
  rcases grant_cases T access s with ⟨allowed, granted⟩ | ⟨-, granted⟩
  · rw [granted] at h
    exact ⟨allowed, Option.bind_eq_some_iff.1 h⟩
  · rw [granted] at h
    cases h

/-! ### What a grant leaves alone -/

@[simp] theorem handles_grant (T : Target σ) (access : Access) (s : Station σ) :
    (s.grant T access).2.network.handles = s.network.handles := by
  rcases grant_cases T access s with ⟨-, granted⟩ | ⟨-, granted⟩
  · rw [granted]
    rcases offer_cases T access s with ⟨w, -, offered⟩ | ⟨w, world, -, offered⟩ |
      ⟨world, -, offered⟩
    · rw [offered]
      rfl
    · rw [offered]
      rfl
    · rw [offered]
      rfl
  · rw [granted]

@[simp] theorem handle_grant (T : Target σ) (access : Access) (s : Station σ) (id : HandleId) :
    (s.grant T access).2.network.handle id = s.network.handle id := by
  rw [Network.handle, handles_grant, Network.handle]

theorem hasCache_grant {access : Access} {s : Station σ} {id : CacheId}
    (h : s.network.HasCache id) : (s.grant T access).2.network.HasCache id := by
  rcases grant_cases T access s with ⟨-, granted⟩ | ⟨-, granted⟩
  · rw [granted]
    rcases offer_cases T access s with ⟨w, -, offered⟩ | ⟨w, world, -, offered⟩ |
      ⟨world, -, offered⟩
    · rw [offered]
      exact Network.hasCache_setCache h
    · rw [offered]
      exact Network.hasCache_setCache (Network.hasCache_setCache h)
    · rw [offered]
      exact Network.hasCache_setCache h
  · rwa [granted]

/-- A grant changes no cache but the gate's own. -/
theorem offers_grant_of_ne {access : Access} {s : Station σ} {id : CacheId}
    (other : id ≠ s.gate.grants) {a : UInt64} {q : Permission} {ptr : HostPointer} :
    (s.grant T access).2.network.Offers id a q ptr ↔ s.network.Offers id a q ptr := by
  rcases grant_cases T access s with ⟨-, granted⟩ | ⟨-, granted⟩
  · rw [granted]
    rcases offer_cases T access s with ⟨w, -, offered⟩ | ⟨w, world, -, offered⟩ |
      ⟨world, -, offered⟩
    · rw [offered]
      exact Network.offers_setCache_of_ne _ other
    · rw [offered]
      exact (Network.offers_setCache_of_ne _ other).trans (Network.offers_setCache_of_ne _ other)
    · rw [offered]
      exact Network.offers_setCache_of_ne _ other
  · rw [granted]

/-- **After a grant the gate remembers what it did before and what the target has offered.** -/
theorem offers_grant_grants {access : Access} {s : Station σ} {a : UInt64} {q : Permission}
    {ptr : HostPointer}
    (h : (s.grant T access).2.network.Offers s.gate.grants a q ptr) :
    s.network.Offers s.gate.grants a q ptr ∨
      ∃ w world,
        T.window access.range (s.attributes access.owner false access.exclusive) s.world =
          (some w, world) ∧ w.Maps a q ptr := by
  rcases grant_cases T access s with ⟨-, granted⟩ | ⟨-, granted⟩
  · rw [granted] at h
    rcases offer_cases T access s with ⟨w, -, offered⟩ | ⟨w, world, asked, offered⟩ |
      ⟨world, -, offered⟩
    · rw [offered] at h
      exact .inl (WindowCache.covers_lookup_iff.1 ((Network.offers_setCache_self _).1 h))
    · rw [offered] at h
      rcases WindowCache.covers_of_covers_insert ((Network.offers_setCache_self _).1 h) with
        old | new
      · exact .inl (WindowCache.covers_lookup_iff.1 old)
      · exact .inr ⟨w, world, asked, new⟩
    · rw [offered] at h
      exact .inl (WindowCache.covers_lookup_iff.1 ((Network.offers_setCache_self _).1 h))
  · rw [granted] at h
    exact .inl h

/-- **A granted window maps only what the gate remembered or the target has offered.** -/
theorem exists_maps_of_grant {s : Station σ} {access : Access} {w : DirectWindow}
    (h : (s.grant T access).1 = some w) {a : UInt64} {q : Permission} {ptr : HostPointer}
    (maps : w.Maps a q ptr) :
    s.network.Offers s.gate.grants a q ptr ∨
      ∃ v world,
        T.window access.range (s.attributes access.owner false access.exclusive) s.world =
          (some v, world) ∧ v.Maps a q ptr := by
  obtain ⟨-, v, found, carved⟩ := exists_carve_of_grant h
  have whole := Monitor.maps_of_carve carved maps
  rcases offer_cases T access s with ⟨x, cached, offered⟩ | ⟨x, world, asked, offered⟩ |
    ⟨world, -, offered⟩
  · rw [offered] at found
    cases found
    exact .inl ⟨v, cached, whole⟩
  · rw [offered] at found
    cases found
    exact .inr ⟨v, world, asked, whole⟩
  · rw [offered] at found
    cases found

/-- **A window inserted into a cache adds its mappings to that cache only.** -/
theorem offers_of_offers_insert {s : Station σ} {cache c : CacheId} {w : DirectWindow} {a : UInt64}
    {q : Permission} {ptr : HostPointer}
    (h : ((s.bind cache).network.setCache cache
      (((s.bind cache).network.cache cache).insert w)).Offers c a q ptr) :
    s.network.Offers c a q ptr ∨ (c = cache ∧ w.Maps a q ptr) := by
  by_cases same : c = cache
  · subst same
    rcases WindowCache.covers_of_covers_insert ((Network.offers_setCache_self _).1 h) with
      old | new
    · exact .inl (by simpa [Network.Offers, Station.bind] using old)
    · exact .inr ⟨rfl, new⟩
  · rw [Network.offers_setCache_of_ne _ same] at h
    exact .inl (by simpa [Network.Offers, Station.bind] using h)

/-- The world after a grant is the old one, or the one that the target left. -/
theorem world_grant (T : Target σ) (access : Access) (s : Station σ) :
    (s.grant T access).2.world = s.world ∨ (s.grant T access).2.world =
      (T.window access.range (s.attributes access.owner false access.exclusive) s.world).2 := by
  rcases grant_cases T access s with ⟨-, granted⟩ | ⟨-, granted⟩
  · rw [granted]
    rcases offer_cases T access s with ⟨w, -, offered⟩ | ⟨w, world, asked, offered⟩ |
      ⟨world, asked, offered⟩
    · rw [offered]
      exact .inl rfl
    · rw [offered, asked]
      exact .inr rfl
    · rw [offered, asked]
      exact .inr rfl
  · rw [granted]
    exact .inl rfl

end Station

namespace Initiator

open Station

variable {T : Target σ} {users : Set CacheId}

/-! ### Caches of initiators -/

/-- A new initiator has a new cache with nothing in it. -/
theorem offers_of_offers_create (owner : Owner) {limit : Option Nat} {net : Network}
    {cache : CacheId} {a : UInt64} {q : Permission} {ptr : HostPointer}
    (h : (create owner limit net).2.Offers cache a q ptr) :
    cache ≠ (create owner limit net).1.cache ∧ net.Offers cache a q ptr := by
  by_cases same : cache = net.caches.fresh
  · subst same
    exact absurd ((Network.offers_setCache_self _).1 h)
      (WindowCache.not_covers_of_windows_eq_nil rfl a q ptr)
  · exact ⟨same, (Network.offers_setCache_of_ne _ same).1 h⟩

/-- An initiator that stops using windows drops those it has. -/
theorem offers_of_offers_setAllowDirect {i : Initiator} {allowed : Bool} {net : Network}
    {cache : CacheId} {a : UInt64} {q : Permission} {ptr : HostPointer}
    (h : (i.setAllowDirect allowed net).2.Offers cache a q ptr) : net.Offers cache a q ptr := by
  cases allowed with
  | true => exact h
  | false =>
      by_cases same : cache = i.cache
      · subst same
        exact absurd ((Network.offers_setCache_self _).1 h)
          (WindowCache.not_covers_of_windows_eq_nil rfl a q ptr)
      · exact (Network.offers_setCache_of_ne _ same).1 h

/-! ### Through a window or through the gate -/

/-- A pointer found for a range comes from a cached window over it that allows the command. -/
theorem exists_of_pointerFor {i : Initiator} {range : AddressRange} {command : Command}
    {net : Network} {ptr : HostPointer} (h : (i.pointerFor range command net).1 = some ptr) :
    ∃ w ∈ (net.cache i.cache).windows, range.start ∈ w.range ∧ w.range.contains range = true ∧
      w.permission.allows command = true ∧ w.pointerFor range.start = ptr ∧ ptr.isNull = false := by
  unfold pointerFor at h
  split at h
  · dsimp only at h
    obtain ⟨w, known, found⟩ := Option.bind_eq_some_iff.1 h
    obtain ⟨pointed, real⟩ := Option.filter_eq_some_iff.1 found
    obtain ⟨cached, contains, allows⟩ := WindowCache.mem_windows_of_lookup known
    obtain ⟨inside, -, same⟩ := DirectWindow.pointerAt_eq_some_iff.1 pointed
    exact ⟨w, cached, inside, contains, allows, same, by simpa using real⟩
  · cases h

/-- A search changes nothing, or it counts as a use of the initiator's cache. -/
theorem network_shortcut (i : Initiator) (command : Command) (address : UInt64) (length : Nat)
    (mode : AccessMode) (net : Network) :
    (i.shortcut command address length mode net).2 = net ∨ ∃ range wanted,
      (i.shortcut command address length mode net).2 =
        net.setCache i.cache ((net.cache i.cache).lookup range wanted).2 := by
  unfold shortcut
  split
  · exact .inl rfl
  · split
    · exact .inl rfl
    · next range made =>
        unfold pointerFor
        split
        · exact .inr ⟨_, _, rfl⟩
        · exact .inl rfl

/-- **Only an access that is not exclusive, does not bypass windows and moves something goes through
a window,** and then through one over all its addresses. -/
theorem exists_of_shortcut {i : Initiator} {command : Command} {address : UInt64} {length : Nat}
    {mode : AccessMode} {net : Network} {ptr : HostPointer}
    (h : (i.shortcut command address length mode net).1 = some ptr) :
    mode.exclusive = false ∧ mode.bypass = false ∧ length ≠ 0 ∧ ∃ range,
      AddressRange.ofSize address length = .ok range ∧
      ∃ w ∈ (net.cache i.cache).windows, address ∈ w.range ∧ w.range.contains range = true ∧
        w.permission.allows (if mode.debug then .read else command) = true ∧
        w.pointerFor address = ptr := by
  unfold shortcut at h
  split at h
  · cases h
  · next plain =>
      simp only [Bool.or_eq_true, decide_eq_true_eq, not_or, Bool.not_eq_true] at plain
      obtain ⟨⟨shared, through⟩, nonempty⟩ := plain
      split at h
      · cases h
      · next range made =>
          obtain ⟨-, start, -⟩ := (AddressRange.ofSize_eq_ok_iff nonempty).1 made
          obtain ⟨w, cached, inside, contains, allows, same, -⟩ := exists_of_pointerFor h
          rw [start] at inside same
          exact ⟨shared, through, nonempty, range, made, w, cached, inside, contains, allows, same⟩

/-- **An access goes through a pointer that was found for it, or else through the gate.** -/
theorem access_cases {i : Initiator} {command : Command} {address : UInt64} {data : Bytes}
    {mode : AccessMode} {s t : Station σ} {bytes : Bytes} {done : Completion}
    (h : i.access T command address data mode s = .ok (bytes, done, t)) :
    (∃ ptr, (i.shortcut command address data.length mode s.network).1 = some ptr ∧
        command ≠ .ignore ∧ (bytes, done, t) = direct command ptr data
          { s with network := (i.shortcut command address data.length mode s.network).2 }) ∨
      ∃ net, (net = s.network ∨ net = (i.shortcut command address data.length mode s.network).2) ∧
        i.throughGate T command address data mode { s with network := net } =
          .ok (bytes, done, t) := by
  unfold access at h
  split at h
  · exact .inr ⟨s.network, .inl rfl, h⟩
  · next moves =>
      dsimp only at h
      split at h
      · next ptr found =>
          exact .inl ⟨ptr, found, moves, (Except.ok.inj h).symm⟩
      · exact .inr ⟨_, .inr rfl, h⟩

/-- An access through the gate is a transaction whose window is kept. -/
theorem throughGate_eq_ok_iff {i : Initiator} {command : Command} {address : UInt64} {data : Bytes}
    {mode : AccessMode} {s t : Station σ} {bytes : Bytes} {done : Completion} :
    i.throughGate T command address data mode s = .ok (bytes, done, t) ↔
      ∃ p, s.submit T (i.transaction command address data mode) = (.ok (), p) ∧
        bytes = (if command = .read then p.tx.data else data) ∧
        done = ⟨p.tx.response,
          if mode.exclusive && p.tx.response ≠ .ok then 0 else p.delivery.bytes, false⟩ ∧
        t = i.keep p.delivery.grant mode p.station := by
  unfold throughGate
  generalize s.submit T (i.transaction command address data mode) = ended
  obtain ⟨outcome, p⟩ := ended
  cases outcome with
  | error cause => simp
  | ok answered =>
      simp only [Except.ok.injEq, Prod.mk.injEq, true_and, exists_eq_left', eq_comm]

/-- An access is marked as direct exactly if it went through a window. -/
theorem direct_of_throughGate {i : Initiator} {command : Command} {address : UInt64} {data : Bytes}
    {mode : AccessMode} {s t : Station σ} {bytes : Bytes} {done : Completion}
    (h : i.throughGate T command address data mode s = .ok (bytes, done, t)) :
    done.direct = false := by
  obtain ⟨p, -, -, rfl, -⟩ := throughGate_eq_ok_iff.1 h
  rfl

/-- An access through a window brings no window. -/
theorem offers_of_direct {i : Initiator} {command : Command} {address : UInt64} {data : Bytes}
    {mode : AccessMode} {s t : Station σ} {bytes : Bytes} {done : Completion}
    (h : i.access T command address data mode s = .ok (bytes, done, t))
    (direct : done.direct = true) {cache : CacheId} {a : UInt64} {q : Permission}
    {ptr : HostPointer} (offered : t.network.Offers cache a q ptr) :
    s.network.Offers cache a q ptr := by
  rcases access_cases h with ⟨place, -, -, moved⟩ | ⟨net, -, passed⟩
  · have network : t.network = (i.shortcut command address data.length mode s.network).2 := by
      rw [show t = _ from congrArg (fun outcome => outcome.2.2) moved]
      cases command <;> rfl
    rw [network] at offered
    rcases network_shortcut i command address data.length mode s.network with
      same | ⟨range, wanted, used⟩
    · rwa [same] at offered
    · rw [used] at offered
      exact Network.offers_setCache_lookup_iff.1 offered
  · rw [direct_of_throughGate passed] at direct
    cases direct

/-- **An access through the gate is a sequence of effects.** -/
theorem effects_of_throughGate {i : Initiator} (member : i.cache ∈ users) {command : Command}
    {address : UInt64} {data : Bytes} {mode : AccessMode} {s t : Station σ} {bytes : Bytes}
    {done : Completion} (h : i.throughGate T command address data mode s = .ok (bytes, done, t)) :
    Effects T users s t := by
  obtain ⟨p, submitted, -, -, rfl⟩ := throughGate_eq_ok_iff.1 h
  obtain ⟨reached, effects, ended⟩ :=
    effects_of_submit T users s (i.transaction command address data mode)
  rw [submitted] at ended
  rcases ended with ⟨ungranted, rfl⟩ | ⟨access, granted⟩
  · rw [ungranted]
    exact effects
  · refine effects.tail ?_
    rw [show p.delivery.grant = (reached.grant T access).1 by rw [granted],
      show p.station = (reached.grant T access).2 by rw [granted]]
    exact .keep reached i member access mode

/-- The search for a window is an effect, if anything. -/
theorem effects_of_shortcut (i : Initiator) (command : Command) (address : UInt64) (length : Nat)
    (mode : AccessMode) (s : Station σ) :
    Effects T users s
      { s with network := (i.shortcut command address length mode s.network).2 } := by
  rcases network_shortcut i command address length mode s.network with same | ⟨range, wanted, used⟩
  · rw [same]
  · rw [used]
    exact .single (.search s i.cache range wanted)

/-- **An access is a sequence of effects.** -/
theorem effects_of_access {i : Initiator} (member : i.cache ∈ users) {command : Command}
    {address : UInt64} {data : Bytes} {mode : AccessMode} {s t : Station σ} {bytes : Bytes}
    {done : Completion} (h : i.access T command address data mode s = .ok (bytes, done, t)) :
    Effects T users s t := by
  have searched : Effects T users s
      { s with network := (i.shortcut command address data.length mode s.network).2 } :=
    effects_of_shortcut i command address data.length mode s
  rcases access_cases h with ⟨ptr, -, -, moved⟩ | ⟨net, rfl | rfl, passed⟩
  · cases command with
    | read =>
        cases moved
        exact searched
    | write =>
        cases moved
        exact searched.tail (.store _ ptr data)
    | ignore =>
        cases moved
        exact searched
  · exact effects_of_throughGate member passed
  · exact searched.trans (effects_of_throughGate member passed)

end Initiator

/-! ### What no effect changes -/

namespace Station

/-- **The gate is set up as before, and no handle has lost a cache or changed a link.** -/
structure Settled (s t : Station σ) : Prop where
  /-- The cache of the gate is the same. -/
  grants : t.gate.grants = s.gate.grants
  /-- The handle of the gate is the same. -/
  handle : t.gate.handle = s.gate.handle
  /-- The rules are the same. -/
  config : t.gate.config = s.gate.config
  /-- No cache is unbound. -/
  bound : ∀ h, (s.network.handle h).caches ⊆ (t.network.handle h).caches
  /-- The links are the same. -/
  links : ∀ h, (t.network.handle h).links = (s.network.handle h).links
  /-- The handles are still there. -/
  made : ∀ h, s.network.HasHandle h → t.network.HasHandle h

namespace Settled

variable {T : Target σ} {users : Set CacheId} {s t u : Station σ}

/-- Only the clock, the monitor, the caches and the world have changed. -/
theorem of_handles (grants : t.gate.grants = s.gate.grants) (handle : t.gate.handle = s.gate.handle)
    (config : t.gate.config = s.gate.config) (same : t.network.handles = s.network.handles) :
    s.Settled t := by
  have each : ∀ h, t.network.handle h = s.network.handle h := fun h => by
    rw [Network.handle, same, Network.handle]
  refine ⟨grants, handle, config, fun h => ?_, fun h => ?_, fun h known => ?_⟩
  · rw [each]
    exact List.Subset.refl _
  · rw [each]
  · rw [Network.HasHandle, same]
    exact known

theorem refl (s : Station σ) : s.Settled s := of_handles rfl rfl rfl rfl

theorem trans (first : s.Settled t) (second : t.Settled u) : s.Settled u :=
  ⟨second.grants.trans first.grants, second.handle.trans first.handle,
    second.config.trans first.config,
    fun h => List.Subset.trans (first.bound h) (second.bound h),
    fun h => (second.links h).trans (first.links h),
    fun h known => second.made h (first.made h known)⟩

theorem bind (s : Station σ) (cache : CacheId) : s.Settled (s.bind cache) := by
  refine ⟨rfl, rfl, rfl, ?_, ?_, fun h => Network.hasHandle_bind⟩
  · exact fun h c old => Network.mem_caches_bind_iff.2 (.inl old)
  · intro h
    rw [Station.bind, Network.links_bind]

theorem grant (T : Target σ) (s : Station σ) (access : Access) :
    s.Settled (s.grant T access).2 :=
  of_handles (by simp) (by simp) (by simp) (handles_grant T access s)

theorem of_effect (step : Effect T users s t) : s.Settled t := by
  cases step with
  | read => exact of_handles rfl rfl rfl rfl
  | write => exact of_handles rfl rfl rfl rfl
  | store => exact of_handles rfl rfl rfl rfl
  | charge => exact of_handles rfl rfl rfl rfl
  | withdraw t range count ended =>
      obtain ⟨net, rfl, sheds, -⟩ := exists_of_withdraw ended
      exact of_handles rfl rfl rfl sheds.handles
  | release => exact of_handles rfl rfl rfl rfl
  | reserve => exact of_handles rfl rfl rfl rfl
  | grant access => exact grant T s access
  | search => exact of_handles rfl rfl rfl rfl
  | keep i member access mode =>
      refine (grant T s access).trans ?_
      unfold Initiator.keep
      split
      · exact refl _
      · split
        · exact (bind _ i.cache).trans (of_handles rfl rfl rfl rfl)
        · exact refl _

end Settled

/-- **Effects leave the gate set up as it was.** -/
theorem settled_of_effects {T : Target σ} {users : Set CacheId} {s t : Station σ}
    (steps : Effects T users s t) : s.Settled t := by
  induction steps with
  | refl => exact .refl s
  | tail _ step ih => exact ih.trans (.of_effect step)

/-- **A cache that neither the gate nor its users own can only lose mappings.** -/
theorem offers_of_effects {T : Target σ} {users : Set CacheId} {s t : Station σ}
    (steps : Effects T users s t) {cache : CacheId} (foreign : cache ≠ s.gate.grants)
    (unused : cache ∉ users) {a : UInt64} {q : Permission} {ptr : HostPointer}
    (h : t.network.Offers cache a q ptr) : s.network.Offers cache a q ptr := by
  induction steps with
  | refl => exact h
  | tail before step ih =>
      refine ih ?_
      have foreign : cache ≠ _ := fun same =>
        foreign (same.trans (settled_of_effects before).grants)
      cases step with
      | read => exact h
      | write => exact h
      | store => exact h
      | charge => exact h
      | withdraw _ range count ended =>
          obtain ⟨net, rfl, sheds, -⟩ := exists_of_withdraw ended
          exact sheds.fewer _ _ _ _ h
      | release => exact h
      | reserve => exact h
      | grant => exact (offers_grant_of_ne foreign).1 h
      | search => exact Network.offers_setCache_lookup_iff.1 h
      | keep i member access mode =>
          unfold Initiator.keep at h
          split at h
          · exact (offers_grant_of_ne foreign).1 h
          · split at h
            · rcases offers_of_offers_insert h with old | ⟨same, -⟩
              · exact (offers_grant_of_ne foreign).1 old
              · exact absurd (same ▸ member) unused
            · exact (offers_grant_of_ne foreign).1 h

end Station

end Interconnect
