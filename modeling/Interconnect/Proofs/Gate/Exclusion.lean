import Interconnect.Endpoint.Memory
import Interconnect.Proofs.Gate.Access

/-!
# Reservations and cached windows

Accesses through cached windows pass the monitor by.  They break no reservation only because no
window in the cache of an initiator ever covers a reserved address, and this module shows that: for
any target, whatever windows it offers, and whatever happens at the gate.

## Main Definitions

* `Port`, `Port.Step`, `Port.Reachable` — a gate with the initiators that use no other, and its runs
* `Station.Shielded` — the invariant

## Main Statements

* `Station.Shielded.effects` — every sequence of effects keeps the invariant
* `Port.overlaps_eq_false_of_reachable` — no cached window overlaps a reservation

### Why the invariant holds

An exclusive read withdraws windows through the handle of the gate, so it reaches the caches that
are bound there.  Hence a cache that is not bound must cover nothing: `bound` says so, and it is
kept because a cache is bound before its first window is inserted.  The cache of the gate itself
holds windows as the target offers them, reservations or not, and is none of the users' caches.
-/

namespace Interconnect

universe u

variable {σ : Type u}

namespace Station

/-- **What keeps reservations out of the caches `users`.** -/
structure Shielded (users : Set CacheId) (s : Station σ) : Prop where
  /-- The cache of the gate has been made. -/
  present : s.network.HasCache s.gate.grants
  /-- The cache of the gate is used by no initiator. -/
  apart : s.gate.grants ∉ users
  /-- A cache that covers anything is bound to the gate. -/
  bound : ∀ c ∈ users, ∀ a q ptr, s.network.Offers c a q ptr →
    c ∈ (s.network.handle s.gate.handle).caches
  /-- A gate without windows leaves all caches empty. -/
  silent : s.gate.config.allowDirect = false →
    ∀ c ∈ users, ∀ a q ptr, ¬ s.network.Offers c a q ptr
  /-- No address that a cache covers is reserved. -/
  unreserved : ∀ c ∈ users, ∀ a q ptr, s.network.Offers c a q ptr →
    ∀ r ∈ s.gate.monitor.reservations, a ∉ r.range

namespace Shielded

variable {T : Target σ} {users : Set CacheId} {s t : Station σ}

/-- Fewer users are shielded, too. -/
theorem mono {others : Set CacheId} (h : s.Shielded users) (fewer : others ⊆ users) :
    s.Shielded others where
  present := h.present
  apart := fun used => h.apart (fewer used)
  bound := fun c used => h.bound c (fewer used)
  silent := fun quiet c used => h.silent quiet c (fewer used)
  unreserved := fun c used => h.unreserved c (fewer used)

/-- Nobody is shielded from the start, as long as the gate has its cache. -/
theorem of_isEmpty (present : s.network.HasCache s.gate.grants) (apart : s.gate.grants ∉ users)
    (hollow : ∀ c ∈ users, ∀ a q ptr, ¬ s.network.Offers c a q ptr) : s.Shielded users where
  present := present
  apart := apart
  bound := fun c used a q ptr covers => absurd covers (hollow c used a q ptr)
  silent := fun _ => hollow
  unreserved := fun c used a q ptr covers => absurd covers (hollow c used a q ptr)

/-- **The invariant survives whatever takes mappings away from caches and adds no reservation.** -/
theorem of_le (h : s.Shielded users) (gate : t.gate.grants = s.gate.grants)
    (handle : (s.network.handle s.gate.handle).caches ⊆ (t.network.handle t.gate.handle).caches)
    (config : t.gate.config = s.gate.config) (present : t.network.HasCache t.gate.grants)
    (fewer : ∀ c ∈ users, ∀ a q ptr, t.network.Offers c a q ptr → s.network.Offers c a q ptr)
    (released : t.gate.monitor.reservations ⊆ s.gate.monitor.reservations) :
    t.Shielded users where
  present := present
  apart := gate ▸ h.apart
  bound := fun c used a q ptr covers =>
    handle (h.bound c used a q ptr (fewer c used a q ptr covers))
  silent := fun quiet c used a q ptr covers =>
    h.silent (config ▸ quiet) c used a q ptr (fewer c used a q ptr covers)
  unreserved := fun c used a q ptr covers r stands =>
    h.unreserved c used a q ptr (fewer c used a q ptr covers) r (released stands)

/-- Only the world has changed. -/
theorem setWorld (h : s.Shielded users) (world : World σ) : (s.setWorld world).Shielded users :=
  ⟨h.present, h.apart, h.bound, h.silent, h.unreserved⟩

/-- A withdrawal takes mappings away. -/
theorem withdraw (h : s.Shielded users) {range : AddressRange} {count : Nat}
    (ended : s.withdraw range = some (count, t)) : t.Shielded users := by
  obtain ⟨net, rfl, sheds, -⟩ := exists_of_withdraw ended
  refine h.of_le rfl ?_ rfl (sheds.present _ h.present) ?_ (List.Subset.refl _)
  · rw [sheds.handle]
    exact List.Subset.refl _
  · exact fun c _ => sheds.fewer c

/-- A write takes reservations away. -/
theorem release (h : s.Shielded users) (range : AddressRange) :
    (s.setMonitor (s.gate.monitor.breakRange range)).Shielded users :=
  h.of_le rfl (List.Subset.refl _) rfl h.present (fun _ _ _ _ _ covers => covers)
    fun _ stands => (Monitor.mem_breakRange.1 stands).1

/-- **A reservation is made only where no bound cache covers anything.** -/
theorem reserve (h : s.Shielded users) (owner : Owner) (range : AddressRange)
    (clear : s.gate.config.allowDirect = true → ∀ c ∈ (s.network.handle s.gate.handle).caches,
      ∀ a q ptr, s.network.Offers c a q ptr → a ∉ range) :
    (s.setMonitor (s.gate.monitor.reserve owner range)).Shielded users where
  present := h.present
  apart := h.apart
  bound := h.bound
  silent := h.silent
  unreserved := by
    intro c used a q ptr covers r stands
    rw [monitor_setMonitor, Monitor.reservations_reserve, List.mem_append,
      List.mem_singleton] at stands
    rcases stands with old | rfl
    · exact h.unreserved c used a q ptr covers r old
    · cases windows : s.gate.config.allowDirect with
      | false => exact absurd covers (h.silent windows c used a q ptr)
      | true => exact clear windows c (h.bound c used a q ptr covers) a q ptr covers

/-- A grant fills the cache of the gate, which is none of the users'. -/
theorem grant (h : s.Shielded users) (T : Target σ) (access : Access) :
    (s.grant T access).2.Shielded users := by
  refine h.of_le (by simp) (by simp) (by simp) ?_ ?_ (by simp)
  · simpa using hasCache_grant (T := T) h.present
  · intro c used a q ptr covers
    exact (offers_grant_of_ne fun same => h.apart (same ▸ used)).1 covers

/-- A lookup changes no mapping. -/
theorem search (h : s.Shielded users) (cache : CacheId) (range : AddressRange)
    (command : Command) :
    ({ s with
      network := s.network.setCache cache
        ((s.network.cache cache).lookup range command).2 } : Station σ).Shielded users :=
  h.of_le rfl (List.Subset.refl _) rfl (Network.hasCache_setCache h.present)
    (fun _ _ _ _ _ covers => Network.offers_setCache_lookup_iff.1 covers) (List.Subset.refl _)

/-- A new initiator starts with an empty cache. -/
theorem join (h : s.Shielded users) (owner : Owner) (limit : Option Nat) :
    ({ s with network := (Initiator.create owner limit s.network).2 } : Station σ).Shielded
      (insert (Initiator.create owner limit s.network).1.cache users) := by
  -- what is cached was cached by one of the old users
  have stood : ∀ c ∈ Insert.insert (Initiator.create owner limit s.network).1.cache users,
      ∀ a q ptr, (Initiator.create owner limit s.network).2.Offers c a q ptr →
        c ∈ users ∧ s.network.Offers c a q ptr := by
    intro c used a q ptr covers
    obtain ⟨other, old⟩ := Initiator.offers_of_offers_create owner covers
    exact ⟨used.resolve_left other, old⟩
  refine ⟨Network.hasCache_setCache h.present, ?_, ?_, ?_, ?_⟩
  · rintro (same | used)
    · have same : s.gate.grants = s.network.caches.fresh := same
      exact s.network.not_hasCache_fresh (same ▸ h.present)
    · exact h.apart used
  · intro c used a q ptr covers
    obtain ⟨used, covers⟩ := stood c used a q ptr covers
    exact h.bound c used a q ptr covers
  · intro quiet c used a q ptr covers
    obtain ⟨used, covers⟩ := stood c used a q ptr covers
    exact h.silent quiet c used a q ptr covers
  · intro c used a q ptr covers
    obtain ⟨used, covers⟩ := stood c used a q ptr covers
    exact h.unreserved c used a q ptr covers

/-- A cache that is bound needlessly does no harm. -/
theorem bind (h : s.Shielded users) (cache : CacheId) : (s.bind cache).Shielded users := by
  refine h.of_le rfl ?_ rfl ?_ ?_ (List.Subset.refl _)
  · exact fun c old => Network.mem_caches_bind_iff.2 (.inl old)
  · simpa [Network.HasCache, Station.bind] using h.present
  · intro c used a q ptr covers
    simpa [Network.Offers, Station.bind] using covers

/-- An initiator that stops using windows drops those it has. -/
theorem allow (h : s.Shielded users) (i : Initiator) (allowed : Bool) :
    ({ s with network := (i.setAllowDirect allowed s.network).2 } : Station σ).Shielded users := by
  cases allowed with
  | true => exact h
  | false =>
      refine h.of_le rfl (List.Subset.refl _) rfl (Network.hasCache_setCache h.present) ?_
        (List.Subset.refl _)
      exact fun c _ a q ptr covers => Initiator.offers_of_offers_setAllowDirect covers

/-- **A window may be kept if no address of it is reserved,** since the cache is bound first. -/
theorem insert (h : s.Shielded users) {cache : CacheId} (member : cache ∈ users)
    {w : DirectWindow} (windows : s.gate.config.allowDirect = true)
    (free : ∀ r ∈ s.gate.monitor.reservations, w.range.overlaps r.range = false) :
    ({ s.bind cache with
      network := (s.bind cache).network.setCache cache
        (((s.bind cache).network.cache cache).insert w) } : Station σ).Shielded users := by
  refine ⟨?_, h.apart, ?_, ?_, ?_⟩
  · refine Network.hasCache_setCache ?_
    simpa [Network.HasCache, Station.bind] using h.present
  · intro c used a q ptr covers
    refine Network.mem_caches_bind_iff.2 ?_
    rcases offers_of_offers_insert covers with old | ⟨rfl, -⟩
    · exact .inl (h.bound c used a q ptr old)
    · exact .inr ⟨rfl, rfl⟩
  · intro quiet
    exact absurd (windows.symm.trans quiet) (by simp)
  · intro c used a q ptr covers r stands
    rcases offers_of_offers_insert covers with old | ⟨-, new⟩
    · exact h.unreserved c used a q ptr old r stands
    · exact AddressRange.overlaps_eq_false_iff.1 (free r stands) a new.1

/-- **What is granted is carved by the monitor of that very state, and may be kept.** -/
theorem keep (h : s.Shielded users) (T : Target σ) {i : Initiator} (member : i.cache ∈ users)
    (access : Access) (mode : AccessMode) :
    (i.keep (s.grant T access).1 mode (s.grant T access).2).Shielded users := by
  have given := h.grant T access
  unfold Initiator.keep
  split
  · exact given
  · next w granted =>
      split
      · -- the monitor is still the one that has carved the window
        obtain ⟨windows, v, -, carved⟩ := exists_carve_of_grant granted
        refine given.insert member (by simpa using windows) fun r stands => ?_
        rw [gate_grant] at stands
        exact Monitor.overlaps_eq_false_of_carve carved stands
      · exact given

/-- **Every effect keeps reservations out of the caches.** -/
theorem effect (h : s.Shielded users) (step : Effect T users s t) : t.Shielded users := by
  cases step with
  | read => exact h.setWorld _
  | write => exact h.setWorld _
  | store => exact h.setWorld _
  | charge => exact ⟨h.present, h.apart, h.bound, h.silent, h.unreserved⟩
  | withdraw _ range count ended => exact h.withdraw ended
  | release range => exact h.release range
  | reserve owner range clear => exact h.reserve owner range clear
  | grant access => exact h.grant T access
  | search cache range command => exact h.search cache range command
  | keep i member access mode => exact h.keep T member access mode

/-- **So does every sequence of effects.** -/
theorem effects (h : s.Shielded users) (steps : Effects T users s t) : t.Shielded users := by
  induction steps with
  | refl => exact h
  | tail _ step ih => exact ih.effect step

/-- **A cached window that overlaps no reservation is what the invariant is for.** -/
theorem overlaps_eq_false (h : s.Shielded users) {c : CacheId} (used : c ∈ users)
    {w : DirectWindow} (cached : w ∈ (s.network.cache c).windows) {r : Reservation}
    (stands : r ∈ s.gate.monitor.reservations) : w.range.overlaps r.range = false := by
  rw [AddressRange.overlaps_eq_false_iff]
  intro a inside
  exact h.unreserved c used a _ _ (Network.offers_of_mem cached inside) r stands

end Shielded

end Station

/-! ### A gate and its initiators -/

/-- **A gate with the initiators that use it and no other.** -/
structure Port (σ : Type u) where
  /-- The gate and what it acts upon. -/
  station : Station σ
  /-- The initiators. -/
  initiators : List Initiator

namespace Port

/-- The caches of the initiators. -/
def users (p : Port σ) : Set CacheId := { c | ∃ i ∈ p.initiators, i.cache = c }

/-- A new gate, opened by initiators that are already there. -/
def opened (config : GateConfig) (clock : Clock) (net : Network) (world : World σ)
    (initiators : List Initiator) : Port σ :=
  ⟨⟨{ (Gate.create config net).1 with clock := clock }, (Gate.create config net).2, world⟩,
    initiators⟩

/-- **What may happen at a gate.**  Between the accesses the target may change as it likes, and may
take windows back. -/
inductive Step (T : Target σ) : Port σ → Port σ → Prop
  /-- An initiator is made. -/
  | join (p : Port σ) (owner : Owner) (limit : Option Nat) :
      Step T p
        ⟨{ p.station with network := (Initiator.create owner limit p.station.network).2 },
          (Initiator.create owner limit p.station.network).1 :: p.initiators⟩
  /-- An initiator is allowed or forbidden the use of windows. -/
  | allow (p : Port σ) (i : Initiator) (member : i ∈ p.initiators) (allowed : Bool) :
      Step T p
        ⟨{ p.station with network := (i.setAllowDirect allowed p.station.network).2 },
          (i.setAllowDirect allowed p.station.network).1 :: p.initiators.erase i⟩
  /-- An initiator's cache is bound before it needs to be. -/
  | bind (p : Port σ) (i : Initiator) (member : i ∈ p.initiators) :
      Step T p ⟨p.station.bind i.cache, p.initiators⟩
  /-- A transaction is submitted, and comes to some end. -/
  | submit (p : Port σ) (tx : Transaction) :
      Step T p ⟨(p.station.submit T tx).2.station, p.initiators⟩
  /-- An initiator makes an access. -/
  | access (p : Port σ) (i : Initiator) (member : i ∈ p.initiators) (command : Command)
      (address : UInt64) (data : Bytes) (mode : AccessMode) (bytes : Bytes) (done : Completion)
      (after : Station σ)
      (ended : i.access T command address data mode p.station = .ok (bytes, done, after)) :
      Step T p ⟨after, p.initiators⟩
  /-- Somebody asks for a window. -/
  | grant (p : Port σ) (access : Access) :
      Step T p ⟨(p.station.grant T access).2, p.initiators⟩
  /-- The target takes windows back. -/
  | withdraw (p : Port σ) (range : AddressRange) (count : Nat) (after : Station σ)
      (ended : p.station.withdraw range = some (count, after)) : Step T p ⟨after, p.initiators⟩
  /-- The target changes. -/
  | act (p : Port σ) (world : World σ) : Step T p ⟨p.station.setWorld world, p.initiators⟩

/-- **The states that a gate can come to** from its opening on, when the caches of all initiators
are empty. -/
inductive Reachable (T : Target σ) : Port σ → Prop
  /-- The gate has just been opened. -/
  | opened (config : GateConfig) (clock : Clock) (net : Network) (world : World σ)
      (initiators : List Initiator)
      (hollow : ∀ i ∈ initiators, net.HasCache i.cache ∧ (net.cache i.cache).windows = []) :
      Reachable T (opened config clock net world initiators)
  /-- Something has happened since. -/
  | step {p q : Port σ} (before : Reachable T p) (step : Step T p q) : Reachable T q

variable {T : Target σ}

/-- The cache of a new gate is none of the caches that are there already. -/
theorem cache_ne_grants {net : Network} {i : Initiator} (made : net.HasCache i.cache)
    (config : GateConfig) : i.cache ≠ (Gate.create config net).1.grants := by
  intro same
  have same : i.cache = net.caches.fresh := same
  exact net.not_hasCache_fresh (same ▸ made)

/-- **Where the caches of all initiators are empty, a new gate starts with nothing cached.** -/
theorem not_offers_opened {config : GateConfig} {clock : Clock} {net : Network} {world : World σ}
    {initiators : List Initiator}
    (hollow : ∀ i ∈ initiators, net.HasCache i.cache ∧ (net.cache i.cache).windows = [])
    {c : CacheId} (used : c = (Gate.create config net).1.grants ∨
      c ∈ (opened config clock net world initiators).users) (a : UInt64) (q : Permission)
    (ptr : HostPointer) :
    ¬ (opened config clock net world initiators).station.network.Offers c a q ptr := by
  refine WindowCache.not_covers_of_windows_eq_nil ?_ a q ptr
  rcases used with rfl | ⟨i, member, rfl⟩
  · simp [Network.cache, opened, Gate.caches_create, WindowCache.windows, WindowCache.withLimit]
  · have empty := (hollow i member).2
    simpa [Network.cache, opened, Gate.caches_create,
      cache_ne_grants (hollow i member).1 config] using empty

/-- A new gate shields the initiators whose caches are empty. -/
theorem shielded_opened {config : GateConfig} {clock : Clock} {net : Network} {world : World σ}
    {initiators : List Initiator}
    (hollow : ∀ i ∈ initiators, net.HasCache i.cache ∧ (net.cache i.cache).windows = []) :
    (opened config clock net world initiators).station.Shielded
      (opened config clock net world initiators).users := by
  refine .of_isEmpty ?_ ?_ fun c used => not_offers_opened hollow (.inr used)
  · simp [Network.HasCache, opened, Gate.caches_create]
  · rintro ⟨i, member, same⟩
    exact cache_ne_grants (hollow i member).1 config same

/-- **What holds after every step,** if it holds after an initiator has joined, has been allowed or
forbidden windows or has been bound, after effects, and after the target has changed. -/
theorem Step.lift {P Q : Set CacheId → Station σ → Prop}
    (mono : ∀ {users others s}, Q users s → others ⊆ users → Q others s)
    (join : ∀ {users s} (owner : Owner) (limit : Option Nat), P users s →
      Q (insert (Initiator.create owner limit s.network).1.cache users)
        { s with network := (Initiator.create owner limit s.network).2 })
    (allow : ∀ {users s} (i : Initiator) (allowed : Bool), P users s →
      Q users { s with network := (i.setAllowDirect allowed s.network).2 })
    (bind : ∀ {users s} (cache : CacheId), P users s → Q users (s.bind cache))
    (effects : ∀ {users s t}, Station.Effects T users s t → P users s → Q users t)
    (act : ∀ {users s} (world : World σ), P users s → Q users (s.setWorld world))
    {p q : Port σ} (step : Step T p q) (h : P p.users p.station) : Q q.users q.station := by
  cases step with
  | join owner limit =>
      refine mono (join owner limit h) ?_
      rintro c ⟨i, member, rfl⟩
      rcases List.mem_cons.1 member with rfl | old
      · exact .inl rfl
      · exact .inr ⟨i, old, rfl⟩
  | allow i member allowed =>
      refine mono (allow i allowed h) ?_
      rintro c ⟨j, used, rfl⟩
      rcases List.mem_cons.1 used with rfl | old
      · exact ⟨i, member, rfl⟩
      · exact ⟨j, List.mem_of_mem_erase old, rfl⟩
  | bind i member => exact bind i.cache h
  | submit tx => exact effects (Station.effects_of_passed T p.users p.station tx) h
  | access i member command address data mode bytes done after ended =>
      have used : i.cache ∈ p.users := ⟨i, member, rfl⟩
      exact effects (Initiator.effects_of_access used ended) h
  | grant access => exact effects (.single (.grant p.station access)) h
  | withdraw range count after ended =>
      exact effects (.single (.withdraw p.station after range count ended)) h
  | act world => exact act world h

/-- **Every step keeps reservations out of the caches of the initiators.** -/
theorem shielded_step {p q : Port σ} (h : p.station.Shielded p.users) (step : Step T p q) :
    q.station.Shielded q.users :=
  step.lift (P := fun users s => s.Shielded users) (Q := fun users s => s.Shielded users)
    .mono (fun owner limit h => h.join owner limit) (fun i allowed h => h.allow i allowed)
    (fun cache h => h.bind cache) (fun steps h => h.effects steps) (fun world h => h.setWorld world)
    h

/-- **A step leaves the gate set up as it was.** -/
theorem settled_step {p q : Port σ} (step : Step T p q) : p.station.Settled q.station :=
  step.lift (P := fun _ s => p.station.Settled s) (Q := fun _ s => p.station.Settled s)
    (fun h _ => h) (fun _ _ h => h.trans (.of_handles rfl rfl rfl rfl))
    (fun _ allowed h => h.trans (.of_handles rfl rfl rfl (by cases allowed <;> rfl)))
    (fun cache h => h.trans (.bind _ cache))
    (fun steps h => h.trans (Station.settled_of_effects steps))
    (fun _ h => h.trans (.of_handles rfl rfl rfl rfl)) (.refl p.station)

/-- The invariant of all runs. -/
theorem shielded_of_reachable {p : Port σ} (h : p.Reachable T) : p.station.Shielded p.users := by
  induction h with
  | opened config clock net world initiators hollow => exact shielded_opened hollow
  | step _ step ih => exact shielded_step ih step

/-- **No cached window ever overlaps a reservation.** -/
theorem overlaps_eq_false_of_reachable {p : Port σ} (h : p.Reachable T) {i : Initiator}
    (member : i ∈ p.initiators) {w : DirectWindow}
    (cached : w ∈ (p.station.network.cache i.cache).windows) {r : Reservation}
    (stands : r ∈ p.station.gate.monitor.reservations) : w.range.overlaps r.range = false :=
  (shielded_of_reachable h).overlaps_eq_false ⟨i, member, rfl⟩ cached stands

/-- A memory of sixteen bytes, four of which are reserved: the next access is granted a window that
ends before them. -/
theorem exists_window_beside_reservation :
    ∃ p : Port Memory, p.Reachable Memory.target ∧ ∃ i ∈ p.initiators,
      ∃ w ∈ (p.station.network.cache i.cache).windows,
      ∃ r ∈ p.station.gate.monitor.reservations, w.range.overlaps r.range = false := by
  have fresh : Reachable Memory.target (opened .standard .standard .empty
      ⟨(StorageBank.empty.allocate (List.replicate 16 0)).2, .ofBlock 0⟩ []) :=
    .opened _ _ _ _ _ (by simp)
  have joined := fresh.step (.join _ 7 none)
  have reserved := joined.step
    (.access _ _ List.mem_cons_self .read 4 [0, 0, 0, 0] ⟨false, true, false⟩ _ _ _ rfl)
  have granted := reserved.step
    (.access _ _ List.mem_cons_self .read 0 [0, 0] .plain _ _ _ rfl)
  exact ⟨_, granted, _, List.mem_cons_self, _, List.mem_cons_self, _, List.mem_cons_self,
    overlaps_eq_false_of_reachable granted List.mem_cons_self List.mem_cons_self
      List.mem_cons_self⟩

end Port

end Interconnect
