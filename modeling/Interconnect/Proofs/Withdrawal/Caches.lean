import Interconnect.Proofs.Window.Cache
import Interconnect.Withdrawal.Network

/-!
# The caches of a network

What cutting, binding and creating do to each cache and each handle of a network.

## Main Definitions

* `Network.Offers` — a cache of the network maps an address

## Main Statements

* `offers_cutCaches_iff`, `offers_cutBound_iff` — which mappings a cut leaves
* `mem_caches_bind_iff` — what is bound after a binding
-/

namespace Interconnect

namespace Network

/-- **The cache with number `id` maps address `a` to the host pointer `p` with permission `q`.** -/
def Offers (net : Network) (id : CacheId) (a : UInt64) (q : Permission) (p : HostPointer) : Prop :=
  (net.cache id).Covers a q p

theorem offers_of_mem {net : Network} {id : CacheId} {w : DirectWindow}
    (cached : w ∈ (net.cache id).windows) {a : UInt64} (inside : a ∈ w.range) :
    net.Offers id a w.permission (w.pointerFor a) :=
  WindowCache.covers_of_mem cached inside

/-! ### Replacing a cache -/

theorem offers_setCache_of_ne {net : Network} {id other : CacheId} (c : WindowCache)
    (different : other ≠ id) {a : UInt64} {q : Permission} {p : HostPointer} :
    (net.setCache id c).Offers other a q p ↔ net.Offers other a q p := by
  rw [Offers, cache_setCache, if_neg different, Offers]

theorem offers_setCache_self {net : Network} {id : CacheId} (c : WindowCache) {a : UInt64}
    {q : Permission} {p : HostPointer} :
    (net.setCache id c).Offers id a q p ↔ c.Covers a q p := by
  rw [Offers, cache_setCache, if_pos rfl]

/-- A lookup in one cache leaves the mappings of all as they are. -/
theorem offers_setCache_lookup_iff {net : Network} {id other : CacheId} {range : AddressRange}
    {command : Command} {a : UInt64} {q : Permission} {p : HostPointer} :
    (net.setCache id ((net.cache id).lookup range command).2).Offers other a q p ↔
      net.Offers other a q p := by
  by_cases same : other = id
  · subst same
    rw [offers_setCache_self, WindowCache.covers_lookup_iff, Offers]
  · exact offers_setCache_of_ne _ same

/-! ### Cuts -/

/-- The cut of one cache, and the count of those that were touched. -/
def cutCache (range : AddressRange) (state : Nat × Network) (id : CacheId) : Nat × Network :=
  if (state.2.cache id).touches range then
    (state.1 + 1, state.2.setCache id ((state.2.cache id).cut range))
  else state

/-- A cache that is not touched is left alone, which is what a cut of it would do. -/
theorem cache_cutCache (range : AddressRange) (state : Nat × Network) (id other : CacheId) :
    (cutCache range state id).2.cache other =
      if other = id then (state.2.cache id).cut range else state.2.cache other := by
  unfold cutCache
  split
  · exact cache_setCache _ _ _ _
  · next untouched =>
      split
      · next same =>
          subst same
          exact (WindowCache.cut_eq_self (Bool.not_eq_true _ ▸ untouched)).symm
      · rfl

theorem handles_cutCache (range : AddressRange) (state : Nat × Network) (id : CacheId) :
    (cutCache range state id).2.handles = state.2.handles := by
  unfold cutCache
  split <;> rfl

theorem handles_cutCaches (range : AddressRange) (ids : List CacheId) (net : Network) :
    (cutCaches range ids net).2.handles = net.handles := by
  have kept : ∀ state : Nat × Network,
      (ids.foldl (cutCache range) state).2.handles = state.2.handles := by
    induction ids with
    | nil => exact fun _ => rfl
    | cons id rest ih =>
        intro state
        rw [List.foldl_cons, ih, handles_cutCache]
  exact kept (0, net)

@[simp] theorem handles_cutBound (net : Network) (id : HandleId) (range : AddressRange) :
    (net.cutBound id range).2.handles = net.handles :=
  handles_cutCaches range _ net

/-- **A cut takes the addresses of the range from the given caches, and nothing from others.** -/
theorem offers_cutCaches_iff {range : AddressRange} {ids : List CacheId} {net : Network}
    {id : CacheId} {a : UInt64} {q : Permission} {p : HostPointer} :
    (cutCaches range ids net).2.Offers id a q p ↔
      net.Offers id a q p ∧ (id ∈ ids → a ∉ range) := by
  have each : ∀ state : Nat × Network, (ids.foldl (cutCache range) state).2.Offers id a q p ↔
      state.2.Offers id a q p ∧ (id ∈ ids → a ∉ range) := by
    induction ids with
    | nil => simp
    | cons first rest ih =>
        intro state
        rw [List.foldl_cons, ih, Offers, cache_cutCache, List.mem_cons]
        split
        · next same =>
            rw [WindowCache.covers_cut_iff, Offers, same]
            grind
        · next different =>
            rw [Offers]
            grind
  exact each (0, net)

@[simp] theorem handle_cutBound (net : Network) (id : HandleId) (range : AddressRange)
    (other : HandleId) : (net.cutBound id range).2.handle other = net.handle other := by
  rw [handle, handles_cutBound, handle]

theorem offers_cutBound_iff {net : Network} {handle : HandleId} {range : AddressRange}
    {id : CacheId} {a : UInt64} {q : Permission} {p : HostPointer} :
    (net.cutBound handle range).2.Offers id a q p ↔
      net.Offers id a q p ∧ (id ∈ (net.handle handle).caches → a ∉ range) :=
  offers_cutCaches_iff

/-! ### Presence -/

/-- A cache has been made under this number. -/
def HasCache (net : Network) (id : CacheId) : Prop := (net.caches.find? id).isSome = true

theorem hasCache_setCache {net : Network} {id : CacheId} {c : WindowCache} {other : CacheId}
    (h : net.HasCache other) : (net.setCache id c).HasCache other := by
  unfold HasCache setCache
  rw [Table.find?_insert]
  split
  · rfl
  · exact h

theorem not_hasCache_fresh (net : Network) : ¬ net.HasCache net.caches.fresh := by
  simp [HasCache]

theorem hasCache_cutCaches {range : AddressRange} {ids : List CacheId} {net : Network}
    {id : CacheId} (h : net.HasCache id) : (cutCaches range ids net).2.HasCache id := by
  have kept : ∀ state : Nat × Network, state.2.HasCache id →
      (ids.foldl (cutCache range) state).2.HasCache id := by
    induction ids with
    | nil => exact fun _ present => present
    | cons first rest ih =>
        intro state present
        rw [List.foldl_cons]
        refine ih _ ?_
        unfold cutCache
        split
        · exact hasCache_setCache present
        · exact present
  exact kept (0, net) h

/-- A handle has been made under this number. -/
def HasHandle (net : Network) (id : HandleId) : Prop := (net.handles.find? id).isSome = true

theorem not_hasHandle_fresh (net : Network) : ¬ net.HasHandle net.handles.fresh := by
  simp [HasHandle]

theorem hasHandle_setHandle {net : Network} {id other : HandleId} {made : Handle}
    (h : net.HasHandle other) : (net.setHandle id made).HasHandle other := by
  unfold HasHandle setHandle
  rw [Table.find?_insert]
  split
  · rfl
  · exact h

theorem hasHandle_setHandle_self {net : Network} {id : HandleId} {made : Handle} :
    (net.setHandle id made).HasHandle id := by
  simp [HasHandle, setHandle]

/-! ### Bindings -/

/-- Handles and caches are kept apart. -/
@[simp] theorem caches_bind (net : Network) (handle : HandleId) (cache : CacheId) :
    (net.bind handle cache).caches = net.caches := by
  unfold bind
  dsimp only
  split <;> rfl

/-- **After a binding the cache is bound there, and everything else as before.** -/
theorem mem_caches_bind_iff {net : Network} {handle : HandleId} {cache : CacheId}
    {other : HandleId} {id : CacheId} :
    id ∈ ((net.bind handle cache).handle other).caches ↔
      id ∈ (net.handle other).caches ∨ (other = handle ∧ id = cache) := by
  unfold bind
  dsimp only
  split
  · next bound =>
      rw [List.contains_iff_mem] at bound
      refine ⟨.inl, fun h => h.elim (fun old => old) ?_⟩
      rintro ⟨rfl, rfl⟩
      exact bound
  · rw [handle_setHandle]
    split
    · next same => simp [same]
    · next different => simp [different]

theorem hasHandle_bind {net : Network} {handle : HandleId} {cache : CacheId} {other : HandleId}
    (h : net.HasHandle other) : (net.bind handle cache).HasHandle other := by
  unfold bind
  dsimp only
  split
  · exact h
  · exact hasHandle_setHandle h

@[simp] theorem links_bind (net : Network) (handle : HandleId) (cache : CacheId)
    (other : HandleId) :
    ((net.bind handle cache).handle other).links = (net.handle other).links := by
  unfold bind
  dsimp only
  split
  · rfl
  · rw [handle_setHandle]
    split
    · next same => simp [same]
    · rfl

/-! ### Links -/

/-- **A plain link is added once,** unless a handle would hear from itself. -/
theorem mem_links_forward_iff {net : Network} {id listener other : HandleId} {link : Link} :
    link ∈ ((net.forward id listener).handle other).links ↔
      link ∈ (net.handle other).links ∨
        (other = id ∧ id ≠ listener ∧ link = ⟨listener, none⟩) := by
  unfold forward
  dsimp only
  split
  · next known =>
      simp only [Bool.or_eq_true, decide_eq_true_eq, List.contains_iff_mem] at known
      refine ⟨.inl, fun h => h.elim (fun old => old) ?_⟩
      rintro ⟨rfl, different, rfl⟩
      exact known.resolve_left different
  · next unknown =>
      simp only [Bool.or_eq_true, decide_eq_true_eq, not_or] at unknown
      rw [handle_setHandle]
      split
      · next same => simp [same, unknown.1]
      · next different => simp [different]

@[simp] theorem caches_handle_forward (net : Network) (id listener other : HandleId) :
    ((net.forward id listener).handle other).caches = (net.handle other).caches := by
  unfold forward
  dsimp only
  split
  · rfl
  · rw [handle_setHandle]
    split
    · next same => simp [same]
    · rfl

/-- Links and caches are kept apart. -/
@[simp] theorem caches_forward (net : Network) (id listener : HandleId) :
    (net.forward id listener).caches = net.caches := by
  unfold forward
  dsimp only
  split <;> rfl

theorem hasHandle_forward {net : Network} {id listener other : HandleId}
    (h : net.HasHandle other) : (net.forward id listener).HasHandle other := by
  unfold forward
  dsimp only
  split
  · exact h
  · exact hasHandle_setHandle h

end Network

end Interconnect
