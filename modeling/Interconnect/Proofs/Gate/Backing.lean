import Interconnect.Proofs.Gate.Exclusion

/-!
# What stands behind cached windows

A target that offers only windows onto what it stands for makes all caches hold only such windows,
as long as accesses leave the world fit for it.

## Main Definitions

* `Target.Confined` — accesses keep the world fit, and windows map only what is good
* `Station.Holds` — the world is fit, and all cached mappings are good
* `World.Alike` — the same targets over storage of the same shape
* `Target.Honest`, `Station.Backed` — the same where the world is fit that has a given shape

## Main Statements

* `Station.Holds.effects` — every sequence of effects keeps cached mappings good
* `Port.holds_step` — so does whatever happens at a gate
* `Station.Backed.effects` — the same where only the contents of storage may change
-/

namespace Interconnect

universe u

variable {σ : Type u}

/-- **A target that keeps the world fit and offers only windows that map what is good.** -/
structure Target.Confined (T : Target σ) (fit : World σ → Prop)
    (good : UInt64 → Permission → HostPointer → Prop) : Prop where
  /-- Reads keep the world fit. -/
  read : ∀ range attributes buffer w, fit w → fit (T.read range attributes buffer w).2.2
  /-- Writes keep the world fit. -/
  write : ∀ range attributes data w, fit w → fit (T.write range attributes data w).2
  /-- Requests for windows keep the world fit. -/
  window : ∀ range attributes w, fit w → fit (T.window range attributes w).2
  /-- Bytes may be stored through any pointer. -/
  store : ∀ ptr data w, fit w → fit { w with storage := w.storage.store ptr data }
  /-- What is offered is good. -/
  offered : ∀ range attributes w v after, fit w →
    T.window range attributes w = (some v, after) → ∀ a q ptr, v.Maps a q ptr → good a q ptr

/-- More may be good than is offered. -/
theorem Target.Confined.mono {T : Target σ} {fit : World σ → Prop}
    {good better : UInt64 → Permission → HostPointer → Prop} (h : T.Confined fit good)
    (wider : ∀ a q ptr, good a q ptr → better a q ptr) : T.Confined fit better :=
  ⟨h.read, h.write, h.window, h.store, fun range attributes w v after fits offered a q ptr maps =>
    wider a q ptr (h.offered range attributes w v after fits offered a q ptr maps)⟩

namespace Station

/-- **The world is fit, and all mappings in the caches `users` and in the cache of the gate are
good.** -/
structure Holds (fit : World σ → Prop) (good : UInt64 → Permission → HostPointer → Prop)
    (users : Set CacheId) (s : Station σ) : Prop where
  /-- The world is fit for the target. -/
  fits : fit s.world
  /-- The gate remembers only what is good. -/
  granted : ∀ a q ptr, s.network.Offers s.gate.grants a q ptr → good a q ptr
  /-- The users keep only what is good. -/
  kept : ∀ c ∈ users, ∀ a q ptr, s.network.Offers c a q ptr → good a q ptr

namespace Holds

variable {T : Target σ} {fit : World σ → Prop} {good : UInt64 → Permission → HostPointer → Prop}
  {users : Set CacheId} {s t : Station σ}

/-- Nothing that only takes mappings away does harm. -/
theorem of_le (h : s.Holds fit good users) (fits : fit t.world)
    (gate : t.gate.grants = s.gate.grants)
    (fewer : ∀ c a q ptr, t.network.Offers c a q ptr → s.network.Offers c a q ptr) :
    t.Holds fit good users where
  fits := fits
  granted := fun a q ptr covers => h.granted a q ptr (gate ▸ fewer _ a q ptr covers)
  kept := fun c used a q ptr covers => h.kept c used a q ptr (fewer c a q ptr covers)

theorem setWorld (h : s.Holds fit good users) {world : World σ} (fits : fit world) :
    (s.setWorld world).Holds fit good users :=
  ⟨fits, h.granted, h.kept⟩

/-- Fewer users keep only what is good, too. -/
theorem mono {others : Set CacheId} (h : s.Holds fit good users) (fewer : others ⊆ users) :
    s.Holds fit good others :=
  ⟨h.fits, h.granted, fun c used => h.kept c (fewer used)⟩

/-- A new initiator has nothing cached. -/
theorem join (h : s.Holds fit good users) (owner : Owner) (limit : Option Nat) :
    ({ s with network := (Initiator.create owner limit s.network).2 } : Station σ).Holds fit good
      (Insert.insert (Initiator.create owner limit s.network).1.cache users) := by
  refine ⟨h.fits, ?_, ?_⟩
  · intro a q ptr covers
    exact h.granted a q ptr (Initiator.offers_of_offers_create owner covers).2
  · intro c used a q ptr covers
    obtain ⟨other, old⟩ := Initiator.offers_of_offers_create owner covers
    exact h.kept c (used.resolve_left other) a q ptr old

/-- An initiator that stops using windows has nothing cached. -/
theorem allow (h : s.Holds fit good users) (i : Initiator) (allowed : Bool) :
    ({ s with network := (i.setAllowDirect allowed s.network).2 } : Station σ).Holds fit good
      users :=
  h.of_le h.fits rfl fun _ _ _ _ covers => Initiator.offers_of_offers_setAllowDirect covers

/-- A cache that is bound holds what it held. -/
theorem bind (h : s.Holds fit good users) (cache : CacheId) :
    (s.bind cache).Holds fit good users := by
  refine h.of_le h.fits rfl fun c a q ptr covers => ?_
  simpa [Network.Offers, Station.bind] using covers

/-- **A grant remembers what the target offers.** -/
theorem grant (h : s.Holds fit good users) (confined : T.Confined fit good) (access : Access) :
    (s.grant T access).2.Holds fit good users := by
  have remembered : ∀ a q ptr, (s.grant T access).2.network.Offers s.gate.grants a q ptr →
      good a q ptr := by
    intro a q ptr covers
    rcases offers_grant_grants covers with old | ⟨w, world, asked, maps⟩
    · exact h.granted a q ptr old
    · exact confined.offered _ _ _ _ _ h.fits asked a q ptr maps
  refine ⟨?_, ?_, ?_⟩
  · rcases world_grant T access s with same | asked
    · rw [same]
      exact h.fits
    · rw [asked]
      exact confined.window _ _ _ h.fits
  · rw [gate_grant]
    exact remembered
  · intro c used a q ptr covers
    by_cases own : c = s.gate.grants
    · exact remembered a q ptr (own ▸ covers)
    · exact h.kept c used a q ptr ((offers_grant_of_ne own).1 covers)

/-- **A granted window maps only what is good.** -/
theorem good_of_grant (h : s.Holds fit good users) (confined : T.Confined fit good)
    {access : Access} {w : DirectWindow} (granted : (s.grant T access).1 = some w) {a : UInt64}
    {q : Permission} {ptr : HostPointer} (maps : w.Maps a q ptr) : good a q ptr := by
  rcases exists_maps_of_grant granted maps with old | ⟨v, world, asked, maps⟩
  · exact h.granted a q ptr old
  · exact confined.offered _ _ _ _ _ h.fits asked a q ptr maps

/-- A cache may be given a window that maps only what is good. -/
theorem insert (h : s.Holds fit good users) (cache : CacheId) {w : DirectWindow}
    (fine : ∀ a q ptr, w.Maps a q ptr → good a q ptr) :
    ({ s.bind cache with
      network := (s.bind cache).network.setCache cache
        (((s.bind cache).network.cache cache).insert w) } : Station σ).Holds fit good users := by
  refine ⟨h.fits, ?_, ?_⟩
  · intro a q ptr covers
    rcases offers_of_offers_insert covers with old | ⟨-, new⟩
    · exact h.granted a q ptr old
    · exact fine a q ptr new
  · intro c used a q ptr covers
    rcases offers_of_offers_insert covers with old | ⟨-, new⟩
    · exact h.kept c used a q ptr old
    · exact fine a q ptr new

/-- **Every effect keeps the cached mappings good,** whoever uses the gate. -/
theorem effect {others : Set CacheId} (h : s.Holds fit good users) (confined : T.Confined fit good)
    (step : Effect T others s t) : t.Holds fit good users := by
  cases step with
  | read => exact h.setWorld (confined.read _ _ _ _ h.fits)
  | write => exact h.setWorld (confined.write _ _ _ _ h.fits)
  | store ptr data => exact h.setWorld (confined.store ptr data _ h.fits)
  | charge => exact ⟨h.fits, h.granted, h.kept⟩
  | withdraw _ range count ended =>
      obtain ⟨net, rfl, sheds, -⟩ := exists_of_withdraw ended
      exact h.of_le h.fits rfl sheds.fewer
  | release => exact ⟨h.fits, h.granted, h.kept⟩
  | reserve => exact ⟨h.fits, h.granted, h.kept⟩
  | grant access => exact h.grant confined access
  | search =>
      exact h.of_le h.fits rfl fun _ _ _ _ covers => Network.offers_setCache_lookup_iff.1 covers
  | keep i member access mode =>
      have given := h.grant confined access
      unfold Initiator.keep
      split
      · exact given
      · next w granted =>
          split
          · exact given.insert i.cache fun a q ptr maps => h.good_of_grant confined granted maps
          · exact given

/-- **So does every sequence of effects.** -/
theorem effects {others : Set CacheId} (h : s.Holds fit good users) (confined : T.Confined fit good)
    (steps : Effects T others s t) : t.Holds fit good users := by
  induction steps with
  | refl => exact h
  | tail _ step ih => exact ih.effect confined step

/-- In a world that is fit for another target the mappings are as good. -/
theorem refit {others : World σ → Prop} (h : s.Holds fit good users) (fits : others s.world) :
    s.Holds others good users :=
  ⟨fits, h.granted, h.kept⟩

end Holds

end Station

/-- **Whatever happens at a gate,** the cached mappings stay good, if the world was fit before. -/
theorem Port.holds_step {T : Target σ} {fit : World σ → Prop}
    {good : UInt64 → Permission → HostPointer → Prop} {p q : Port σ}
    (confined : T.Confined fit good) (step : Step T p q)
    (h : p.station.Holds fit good p.users) : q.station.Holds (fun _ => True) good q.users :=
  step.lift (P := fun users s => s.Holds fit good users)
    (Q := fun users s => s.Holds (fun _ => True) good users)
    .mono (fun owner limit h => (h.join owner limit).refit trivial)
    (fun i allowed h => (h.allow i allowed).refit trivial)
    (fun cache h => (h.bind cache).refit trivial)
    (fun steps h => (h.effects confined steps).refit trivial)
    (fun _ h => (h.refit trivial).setWorld trivial) h

namespace World

/-- **The same targets over storage of the same shape,** whatever the bytes in it. -/
structure Alike (w v : World σ) : Prop where
  /-- The targets are in the same state. -/
  state : v.state = w.state
  /-- Every block has the same length. -/
  length : ∀ block, (v.storage.contents block).length = (w.storage.contents block).length

theorem Alike.refl (w : World σ) : w.Alike w := ⟨rfl, fun _ => rfl⟩

theorem Alike.trans {w v u : World σ} (first : w.Alike v) (second : v.Alike u) : w.Alike u :=
  ⟨second.state.trans first.state, fun block => (second.length block).trans (first.length block)⟩

/-- Storing through a pointer changes bytes only. -/
theorem Alike.store {base w : World σ} (h : base.Alike w) (ptr : HostPointer) (data : Bytes) :
    base.Alike { w with storage := w.storage.store ptr data } :=
  h.trans ⟨rfl, fun block => by simp⟩

end World

/-- **A target that keeps the shape of `base` and offers only windows that map what is good.** -/
structure Target.Honest (T : Target σ) (base : World σ)
    (good : UInt64 → Permission → HostPointer → Prop) : Prop where
  /-- Reads keep the shape. -/
  read : ∀ range attributes buffer w, base.Alike w →
    base.Alike (T.read range attributes buffer w).2.2
  /-- Writes keep the shape. -/
  write : ∀ range attributes data w, base.Alike w →
    base.Alike (T.write range attributes data w).2
  /-- Requests for windows keep the shape. -/
  window : ∀ range attributes w, base.Alike w → base.Alike (T.window range attributes w).2
  /-- What is offered is good. -/
  offered : ∀ range attributes w v after, base.Alike w →
    T.window range attributes w = (some v, after) → ∀ a q ptr, v.Maps a q ptr → good a q ptr

/-- A target that answers as an honest one does is honest. -/
theorem Target.Honest.of_agree {T U : Target σ} {base : World σ}
    {good : UInt64 → Permission → HostPointer → Prop} (h : U.Honest base good)
    (read : ∀ range attributes buffer w, base.Alike w →
      T.read range attributes buffer w = U.read range attributes buffer w)
    (write : ∀ range attributes data w, base.Alike w →
      T.write range attributes data w = U.write range attributes data w)
    (window : ∀ range attributes w, base.Alike w →
      T.window range attributes w = U.window range attributes w) : T.Honest base good where
  read := fun range attributes buffer w same => by
    rw [read _ _ _ _ same]
    exact h.read range attributes buffer w same
  write := fun range attributes data w same => by
    rw [write _ _ _ _ same]
    exact h.write range attributes data w same
  window := fun range attributes w same => by
    rw [window _ _ _ same]
    exact h.window range attributes w same
  offered := fun range attributes w v after same offered => by
    rw [window _ _ _ same] at offered
    exact h.offered range attributes w v after same offered

/-- Accesses that keep the shape of the world keep it fit. -/
theorem Target.Honest.confined {T : Target σ} {base : World σ}
    {good : UInt64 → Permission → HostPointer → Prop} (h : T.Honest base good) :
    T.Confined base.Alike good :=
  ⟨h.read, h.write, h.window, fun ptr data _ same => same.store ptr data, h.offered⟩

namespace Station

/-- **All mappings in the caches `users` and in the cache of the gate are good.** -/
structure Backed (base : World σ) (good : UInt64 → Permission → HostPointer → Prop)
    (users : Set CacheId) (s : Station σ) : Prop where
  /-- The world still has the shape in which the mappings are judged. -/
  alike : base.Alike s.world
  /-- The gate remembers only what is good. -/
  granted : ∀ a q ptr, s.network.Offers s.gate.grants a q ptr → good a q ptr
  /-- The users keep only what is good. -/
  kept : ∀ c ∈ users, ∀ a q ptr, s.network.Offers c a q ptr → good a q ptr

/-- The shape of the world is what makes it fit. -/
theorem backed_iff {base : World σ} {good : UInt64 → Permission → HostPointer → Prop}
    {users : Set CacheId} {s : Station σ} :
    s.Backed base good users ↔ s.Holds base.Alike good users :=
  ⟨fun h => ⟨h.alike, h.granted, h.kept⟩, fun h => ⟨h.fits, h.granted, h.kept⟩⟩

namespace Backed

variable {T : Target σ} {base : World σ} {good : UInt64 → Permission → HostPointer → Prop}
  {users : Set CacheId} {s t : Station σ}

/-- Fewer users keep only what is good, too. -/
theorem mono {others : Set CacheId} (h : s.Backed base good users) (fewer : others ⊆ users) :
    s.Backed base good others :=
  backed_iff.2 ((backed_iff.1 h).mono fewer)

/-- A new initiator has nothing cached. -/
theorem join (h : s.Backed base good users) (owner : Owner) (limit : Option Nat) :
    ({ s with network := (Initiator.create owner limit s.network).2 } : Station σ).Backed base good
      (Insert.insert (Initiator.create owner limit s.network).1.cache users) :=
  backed_iff.2 ((backed_iff.1 h).join owner limit)

/-- An initiator that stops using windows has nothing cached. -/
theorem allow (h : s.Backed base good users) (i : Initiator) (allowed : Bool) :
    ({ s with network := (i.setAllowDirect allowed s.network).2 } : Station σ).Backed base good
      users :=
  backed_iff.2 ((backed_iff.1 h).allow i allowed)

/-- A cache that is bound holds what it held. -/
theorem bind (h : s.Backed base good users) (cache : CacheId) :
    (s.bind cache).Backed base good users :=
  backed_iff.2 ((backed_iff.1 h).bind cache)

/-- **Every sequence of effects keeps the cached mappings good,** whoever uses the gate. -/
theorem effects {others : Set CacheId} (h : s.Backed base good users) (honest : T.Honest base good)
    (steps : Effects T others s t) : t.Backed base good users :=
  backed_iff.2 ((backed_iff.1 h).effects honest.confined steps)

end Backed

end Station

end Interconnect
