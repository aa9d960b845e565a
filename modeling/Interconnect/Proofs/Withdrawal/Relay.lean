import Interconnect.Proofs.Withdrawal.Exact

/-!
# Handles that relay

A router gives every target behind it a handle of the target's own, which does nothing but pass on,
rebased, what the target withdraws.  Such a handle relays to the router for good: nobody else knows
it, so nothing is ever bound to it and no link is added.

## Main Definitions

* `Network.Relays` — a handle passes on to another, rebased, and does nothing else
* `Network.Plain` — a handle that passes on what it withdraws as it is
* `Network.Retains` — a change of the network that leaves the relays as they are

## Main Statements

* `Relays.meant_iff`, `Relays.offers_iff` — what a withdrawal at a relay takes
* `Relays.exists_withdraw?` — it ends if it ends beyond the relay
* `retains_bind`, `retains_forward`, `retains_rebased` — what leaves the relays as they are
-/

namespace Interconnect

namespace Network

variable {net after : Network} {id up : HandleId} {r : Rebase} {x : AddressRange}

/-- **Handle `id` passes on to `up` what is withdrawn,** rebased, and does nothing else. -/
def Relays (net : Network) (id up : HandleId) (r : Rebase) : Prop :=
  net.handle id = ⟨[], [⟨up, some r⟩]⟩

/-- **The handle has been made, and passes on as it is what it withdraws.** -/
structure Plain (net : Network) (id : HandleId) : Prop where
  /-- It has been made. -/
  made : net.HasHandle id
  /-- Nothing is rebased. -/
  straight : ∀ link ∈ (net.handle id).links, link.rebase = none

/-! ### What comes through a relay -/

namespace Relays

/-- **A withdrawal at a relay is meant for what it is meant for beyond it,** address by address of
the rebased range. -/
theorem meant_iff (h : net.Relays id up r) (fits : net.Fits) {c : CacheId} {v : UInt64} :
    net.Meant id x c v ↔
      ∃ a, (∃ image, r.image x = some image ∧ a ∈ image) ∧ net.Meant up (.single a) c v := by
  rw [← comes_iff_meant fits, comes_iff, h]
  simp only [List.not_mem_nil, false_and, false_or, List.mem_singleton, exists_eq_left]
  constructor
  · rintro ⟨image, moved, comes⟩
    obtain ⟨a, inside, leads⟩ := (comes_iff_meant fits).1 comes
    exact ⟨a, ⟨image, moved, inside⟩, a, AddressRange.mem_single.2 rfl, leads⟩
  · rintro ⟨a, ⟨image, moved, inside⟩, place, same, leads⟩
    cases AddressRange.mem_single.1 same
    exact ⟨image, moved, (comes_iff_meant fits).2 ⟨a, inside, leads⟩⟩

/-- **What a withdrawal at a relay leaves,** whenever it ends. -/
theorem offers_iff (h : net.Relays id up r) (fits : net.Fits) {depth : Nat}
    {outcome : Nat × Network} (done : net.withdraw? depth id x = some outcome) {c : CacheId}
    {v : UInt64} {q : Permission} {p : HostPointer} :
    outcome.2.Offers c v q p ↔ net.Offers c v q p ∧
      ¬ ∃ a, (∃ image, r.image x = some image ∧ a ∈ image) ∧ net.Meant up (.single a) c v := by
  rw [(takes_withdraw? done).offers, comes_iff_meant fits, h.meant_iff fits]

/-- A withdrawal at a relay ends if it ends beyond it. -/
theorem ends (h : net.Relays id up r)
    (beyond : ∀ image, r.image x = some image → net.Ends up image) : net.Ends id x := by
  refine .intro fun link member image moved => ?_
  rw [h, List.mem_singleton] at member
  subst member
  exact beyond image moved

theorem exists_withdraw (h : net.Relays id up r)
    (beyond : ∀ image, r.image x = some image → net.Ends up image) :
    ∃ outcome, net.withdraw id x = some outcome :=
  exists_withdraw_of_ends (h.ends beyond)

end Relays

/-! ### What leaves the relays alone -/

/-- **Relays relay as before, plain handles stay plain, and no link is lost.** -/
structure Retains (net after : Network) : Prop where
  /-- Rebased addresses still have places. -/
  fits : net.Fits → after.Fits
  /-- Relays do what they did. -/
  relays : ∀ id up r, net.Relays id up r → after.Relays id up r
  /-- Plain handles stay plain. -/
  plain : ∀ id, net.Plain id → after.Plain id
  /-- No link is lost. -/
  links : ∀ id, (net.handle id).links ⊆ (after.handle id).links

namespace Retains

theorem of_handles (same : after.handles = net.handles) : net.Retains after := by
  have handle : after.handle = net.handle := funext (handle_of_handles_eq same)
  refine ⟨?_, ?_, ?_, ?_⟩
  · intro fits
    rwa [Fits, handle]
  · intro id up r relays
    rwa [Relays, handle]
  · intro id plain
    refine ⟨?_, ?_⟩
    · rw [HasHandle, same]
      exact plain.made
    · rw [handle]
      exact plain.straight
  · intro id
    rw [handle]
    exact List.Subset.refl _

theorem refl (net : Network) : net.Retains net := of_handles rfl

theorem trans {last : Network} (first : net.Retains after) (second : after.Retains last) :
    net.Retains last where
  fits := fun h => second.fits (first.fits h)
  relays := fun id up r h => second.relays id up r (first.relays id up r h)
  plain := fun id h => second.plain id (first.plain id h)
  links := fun id => List.Subset.trans (first.links id) (second.links id)

end Retains

/-- **A handle may be replaced if it is new or plain,** and stays plain where it was. -/
theorem retains_setHandle {made : Handle} (kept : (net.handle id).links ⊆ made.links)
    (fits : ∀ link ∈ made.links, link.Fits)
    (free : net.handle id = ⟨[], []⟩ ∧ ¬ net.HasHandle id ∨
      net.Plain id ∧ ∀ link ∈ made.links, link.rebase = none) :
    net.Retains (net.setHandle id made) := by
  refine ⟨fun old => old.setHandle fits, ?_, ?_, ?_⟩
  · intro other up r relays
    rw [Relays, handle_setHandle, if_neg]
    · exact relays
    · rintro rfl
      -- a relay is neither new nor plain
      rcases free with ⟨blank, -⟩ | ⟨plain, -⟩
      · rw [relays] at blank
        cases blank
      · have straight := plain.straight
        rw [relays] at straight
        cases straight _ List.mem_cons_self
  · intro other plain
    refine ⟨hasHandle_setHandle plain.made, ?_⟩
    rw [handle_setHandle]
    split
    · next same =>
        subst same
        exact free.elim (fun new => absurd plain.made new.2) And.right
    · exact plain.straight
  · intro other
    rw [handle_setHandle]
    split
    · next same => exact same ▸ kept
    · exact List.Subset.refl _

theorem handle_fresh (net : Network) : net.handle net.handles.fresh = ⟨[], []⟩ := by
  simp [handle]

/-- A new handle changes no other. -/
theorem retains_setHandle_fresh {made : Handle} (fits : ∀ link ∈ made.links, link.Fits) :
    net.Retains (net.setHandle net.handles.fresh made) := by
  refine retains_setHandle ?_ fits (.inl ⟨handle_fresh net, not_hasHandle_fresh net⟩)
  rw [handle_fresh]
  exact List.nil_subset _

theorem retains_addHandle (net : Network) : net.Retains net.addHandle.2 :=
  retains_setHandle_fresh fun _ absent => absurd absent List.not_mem_nil

theorem plain_addHandle (net : Network) : net.addHandle.2.Plain net.addHandle.1 := by
  refine ⟨hasHandle_setHandle_self, fun link member => ?_⟩
  rw [addHandle, handle_setHandle, if_pos rfl] at member
  cases member

theorem retains_rebased (id : HandleId) (fits : r.Fits) : net.Retains (net.rebased id r).2 := by
  refine retains_setHandle_fresh fun link member r' shown => ?_
  rw [List.mem_singleton.1 member] at shown
  cases shown
  exact fits

theorem relays_rebased (net : Network) (id : HandleId) (r : Rebase) :
    (net.rebased id r).2.Relays (net.rebased id r).1 id r := by
  rw [Relays, rebased, handle_setHandle, if_pos rfl]

/-- A plain handle may be replaced by one that has its links and is plain. -/
theorem retains_setHandle_plain (plain : net.Plain id) {made : Handle}
    (kept : (net.handle id).links ⊆ made.links)
    (straight : ∀ link ∈ made.links, link.rebase = none) :
    net.Retains (net.setHandle id made) := by
  refine retains_setHandle kept (fun link member r shown => ?_) (.inr ⟨plain, straight⟩)
  rw [straight link member] at shown
  cases shown

/-- A cache may be bound to a plain handle. -/
theorem retains_bind (plain : net.Plain id) (c : CacheId) : net.Retains (net.bind id c) := by
  unfold bind
  dsimp only
  split
  · exact .refl net
  · exact retains_setHandle_plain plain (List.Subset.refl _) plain.straight

/-- A plain handle may pass on to one more. -/
theorem retains_forward (plain : net.Plain id) (listener : HandleId) :
    net.Retains (net.forward id listener) := by
  unfold forward
  dsimp only
  split
  · exact .refl net
  · refine retains_setHandle_plain plain (List.subset_append_left _ _) fun link member => ?_
    rcases List.mem_append.1 member with old | new
    · exact plain.straight link old
    · rw [List.mem_singleton.1 new]

end Network

end Interconnect
