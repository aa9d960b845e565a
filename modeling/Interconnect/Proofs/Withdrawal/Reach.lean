import Mathlib.Data.Finset.Card
import Mathlib.Data.Finset.Prod
import Interconnect.Proofs.Withdrawal.Caches

/-!
# What a withdrawal reaches

A withdrawal passes from handle to handle along links, rebased on the way, and cuts a range out of
the caches bound to each.  This module says which handles it comes to, when it ends, and that it
leaves none of the mappings that it was meant for.

## Main Definitions

* `Network.Reaches` — a withdrawal at one handle arrives at another
* `Network.Ends` — a withdrawal does not go round for ever

## Main Statements

* `clears_of_withdraw?` — what a withdrawal that ends has cut
* `isSome_withdraw?_of_ends` — `depthBound` suffices for every withdrawal that ends
* `withdrawThrough_spec`, `withdrawAll_spec` — what withdrawals through several handles have cut
* `ends_of_descent` — handles whose links only lead downwards end every withdrawal
-/

namespace Interconnect

/-- **What every step keeps still holds after a fold that runs to its end.** -/
theorem of_foldlM_eq_some {α β : Type} {P : α → Prop} {f : α → β → Option α}
    (step : ∀ {a : α} {b : β} {next : α}, P a → f a b = some next → P next) {items : List β}
    {a final : α} (before : P a) (done : items.foldlM f a = some final) : P final := by
  induction items generalizing a with
  | nil =>
      cases done
      exact before
  | cons b rest ih =>
      rw [List.foldlM_cons] at done
      obtain ⟨next, first, later⟩ := Option.bind_eq_some_iff.1 done
      exact ih (step before first) later

/-- A fold runs to its end if every step does from where the steps before it lead. -/
theorem exists_foldlM_eq_some {α β : Type} {P : α → Prop} {f : α → β → Option α}
    (step : ∀ {a : α} (b : β), P a → ∃ next, f a b = some next ∧ P next) (items : List β) {a : α}
    (before : P a) : ∃ final, items.foldlM f a = some final ∧ P final := by
  induction items generalizing a with
  | nil => exact ⟨a, rfl, before⟩
  | cons b rest ih =>
      obtain ⟨next, first, kept⟩ := step b before
      obtain ⟨final, later, done⟩ := ih kept
      exact ⟨final, by rw [List.foldlM_cons, first, Option.bind_eq_bind, Option.bind_some, later],
        done⟩

namespace Network

/-- **A withdrawal of `range` at `id` arrives as one of `final` at `other`.** -/
inductive Reaches (net : Network) : HandleId → AddressRange → HandleId → AddressRange → Prop
  /-- At the handle itself. -/
  | here (id : HandleId) (range : AddressRange) : Reaches net id range id range
  /-- Along a link. -/
  | along {id : HandleId} {range : AddressRange} {link : Link} {image : AddressRange}
      {other : HandleId} {final : AddressRange} (member : link ∈ (net.handle id).links)
      (moved : link.image range = some image) (rest : Reaches net link.listener image other final) :
      Reaches net id range other final

/-- **Whatever way a withdrawal of `range` at `id` takes comes to an end.** -/
inductive Ends (net : Network) : HandleId → AddressRange → Prop
  /-- It ends on all links. -/
  | intro {id : HandleId} {range : AddressRange}
      (onward : ∀ link ∈ (net.handle id).links, ∀ image, link.image range = some image →
        Ends net link.listener image) : Ends net id range

namespace Reaches

variable {net : Network} {id middle other : HandleId} {range image final : AddressRange}

theorem trans (first : Reaches net id range middle image)
    (second : Reaches net middle image other final) : Reaches net id range other final := by
  induction first with
  | here => exact second
  | along member moved _ ih => exact .along member moved (ih second)

/-- One link more. -/
theorem snoc {link : Link} (first : Reaches net id range middle image)
    (member : link ∈ (net.handle middle).links) (moved : link.image image = some final) :
    Reaches net id range link.listener final :=
  first.trans (.along member moved (.here _ _))

/-- Only the links count. -/
theorem mono {after : Network} (h : Reaches net id range other final)
    (links : ∀ h, (net.handle h).links ⊆ (after.handle h).links) :
    Reaches after id range other final := by
  induction h with
  | here => exact .here _ _
  | along member moved _ ih => exact .along (links _ member) moved ih

end Reaches

/-! ### What a withdrawal has cut -/

/-- **The network has lost mappings, and nothing else.** -/
structure Sheds (net after : Network) : Prop where
  /-- The handles are as before. -/
  handles : after.handles = net.handles
  /-- The caches are still there. -/
  present : ∀ c, net.HasCache c → after.HasCache c
  /-- Nothing is mapped that was not mapped before. -/
  fewer : ∀ c a q p, after.Offers c a q p → net.Offers c a q p

/-- **No mapping is left that a withdrawal of `range` at `id` was meant for.** -/
def Clears (net : Network) (id : HandleId) (range : AddressRange) (after : Network) : Prop :=
  ∀ other final, net.Reaches id range other final → ∀ c ∈ (net.handle other).caches,
    ∀ a q p, after.Offers c a q p → a ∉ final

theorem Sheds.refl (net : Network) : net.Sheds net := ⟨rfl, fun _ h => h, fun _ _ _ _ h => h⟩

theorem Sheds.trans {net middle after : Network} (first : net.Sheds middle)
    (second : middle.Sheds after) : net.Sheds after :=
  ⟨second.handles.trans first.handles, fun c h => second.present c (first.present c h),
    fun c a q p h => first.fewer c a q p (second.fewer c a q p h)⟩

theorem Clears.mono {net middle after : Network} {id : HandleId} {range : AddressRange}
    (h : net.Clears id range middle) (less : middle.Sheds after) : net.Clears id range after :=
  fun other final reached c bound a q p covers =>
    h other final reached c bound a q p (less.fewer c a q p covers)

theorem handle_of_handles_eq {net base : Network} (same : net.handles = base.handles)
    (id : HandleId) : net.handle id = base.handle id := by
  rw [handle, same, handle]

theorem Clears.congr {net base after : Network} {id : HandleId} {range : AddressRange}
    (h : base.Clears id range after) (same : base.handles = net.handles) :
    net.Clears id range after := by
  intro other final reached c bound
  refine h other final (reached.mono fun other => ?_) c ?_
  · rw [handle_of_handles_eq same]
    exact List.Subset.refl _
  · rwa [handle_of_handles_eq same]

theorem Sheds.handle {net after : Network} (h : net.Sheds after) (id : HandleId) :
    after.handle id = net.handle id :=
  handle_of_handles_eq h.handles id

theorem Sheds.links {net after : Network} (h : net.Sheds after) (id : HandleId) :
    (net.handle id).links ⊆ (after.handle id).links := by
  rw [h.handle]
  exact List.Subset.refl _

theorem Sheds.made {net after : Network} (h : net.Sheds after) (id : HandleId)
    (known : net.HasHandle id) : after.HasHandle id := by
  rw [HasHandle, h.handles]
  exact known

/-- A cut of the caches bound to a handle takes mappings away. -/
theorem sheds_cutBound (net : Network) (id : HandleId) (range : AddressRange) :
    net.Sheds (net.cutBound id range).2 :=
  ⟨handles_cutBound net id range, fun _ => hasCache_cutCaches,
    fun _ _ _ _ covers => (offers_cutBound_iff.1 covers).1⟩

/-- The withdrawal along one link, with the count so far. -/
def withdrawLink (depth : Nat) (range : AddressRange) (state : Nat × Network) (link : Link) :
    Option (Nat × Network) :=
  match link.image range with
  | none => some state
  | some image =>
    (withdraw? depth state.2 link.listener image).map fun next => (state.1 + next.1, next.2)

theorem withdraw?_succ (depth : Nat) (net : Network) (id : HandleId) (range : AddressRange) :
    net.withdraw? (depth + 1) id range =
      (net.handle id).links.foldlM (withdrawLink depth range) (net.cutBound id range) := rfl

/-- The links of a handle, one after the other. -/
private theorem clears_of_foldlM {base : Network} {depth : Nat} {range : AddressRange}
    (each : ∀ {net after : Network} {id : HandleId} {image : AddressRange} {count : Nat},
      net.handles = base.handles → net.withdraw? depth id image = some (count, after) →
        net.Sheds after ∧ base.Clears id image after)
    (links : List Link) {state final : Nat × Network} (same : state.2.handles = base.handles)
    (h : links.foldlM (withdrawLink depth range) state = some final) :
    state.2.Sheds final.2 ∧ ∀ link ∈ links, ∀ image, link.image range = some image →
      base.Clears link.listener image final.2 := by
  -- `base` stays fixed: a cut changes no handle, so all links are those of the first network
  induction links generalizing state with
  | nil =>
      cases h
      exact ⟨.refl _, fun _ absent => absurd absent List.not_mem_nil⟩
  | cons link rest ih =>
      rw [List.foldlM_cons, Option.bind_eq_bind, Option.bind_eq_some_iff] at h
      obtain ⟨next, first, h⟩ := h
      unfold withdrawLink at first
      split at first
      · next unmoved =>
          cases first
          obtain ⟨sheds, clears⟩ := ih same h
          refine ⟨sheds, fun other member image moved => ?_⟩
          rcases List.mem_cons.1 member with rfl | later
          · exact absurd moved (by simp [unmoved])
          · exact clears other later image moved
      · next image moved =>
          obtain ⟨⟨count, after⟩, withdrawn, rfl⟩ := Option.map_eq_some_iff.1 first
          obtain ⟨here, cleared⟩ := each same withdrawn
          obtain ⟨sheds, clears⟩ := ih (here.handles.trans same) h
          refine ⟨here.trans sheds, fun other member image' moved' => ?_⟩
          rcases List.mem_cons.1 member with rfl | later
          · rw [moved] at moved'
            cases moved'
            exact cleared.mono sheds
          · exact clears other later image' moved'

/-- **A withdrawal that ends has cut everything on its way,** whatever it had cut before. -/
theorem clears_of_withdraw? {base : Network} {depth : Nat} {net after : Network} {id : HandleId}
    {range : AddressRange} {count : Nat} (same : net.handles = base.handles)
    (h : net.withdraw? depth id range = some (count, after)) :
    net.Sheds after ∧ base.Clears id range after := by
  induction depth generalizing net after id range count with
  | zero => cases h
  | succ depth ih =>
      rw [withdraw?_succ] at h
      have cut := sheds_cutBound net id range
      obtain ⟨sheds, clears⟩ := clears_of_foldlM ih _ (cut.handles.trans same) h
      refine ⟨cut.trans sheds, ?_⟩
      intro other final reached c bound a q p covers
      cases reached with
      | here =>
          rw [← handle_of_handles_eq same] at bound
          exact (offers_cutBound_iff.1 (sheds.fewer c a q p covers)).2 bound
      | along member moved rest =>
          rw [← handle_of_handles_eq same] at member
          exact clears _ member _ moved other final rest c bound a q p covers

/-! ### When a withdrawal ends -/

/-- Handles whose links only lead downwards end every withdrawal. -/
theorem ends_of_descent {net : Network} (rank : HandleId → Nat)
    (descent : ∀ id, ∀ link ∈ (net.handle id).links, rank link.listener < rank id) (id : HandleId)
    (range : AddressRange) : net.Ends id range := by
  induction rising : rank id using Nat.strong_induction_on generalizing id range with
  | _ n ih =>
      subst rising
      exact .intro fun link member image _ => ih _ (descent id link member) _ _ rfl

/-- Whether a withdrawal ends depends on the handles only. -/
theorem Ends.congr {net after : Network} {id : HandleId} {range : AddressRange}
    (h : net.Ends id range) (same : after.handles = net.handles) : after.Ends id range := by
  induction h with
  | intro _ ih =>
      refine .intro fun link member image moved => ih link ?_ image moved
      rwa [handle_of_handles_eq same] at member

/-- A withdrawal that ends does not come back to where it has been. -/
theorem not_reaches_of_ends {net : Network} {id : HandleId} {range : AddressRange}
    (h : net.Ends id range) :
    ∀ link ∈ (net.handle id).links, ∀ image, link.image range = some image →
      ¬ net.Reaches link.listener image id range := by
  induction h with
  | @intro id range _ ih =>
      -- a way back would make the circle start one link later, where it is excluded already
      intro link member image moved back
      cases back with
      | here => exact ih link member _ moved link member _ moved (.here _ _)
      | along further onward rest =>
          exact ih link member image moved _ further _ onward (rest.snoc member moved)

/-- A handle and a range in numbers. -/
private def place (id : HandleId) (range : AddressRange) : ℕ × ℕ × ℕ :=
  (id, range.start.toNat, range.last.toNat)

private theorem place_inj {id other : HandleId} {range final : AddressRange}
    (h : place other final = place id range) : other = id ∧ final = range := by
  simp only [place, Prod.mk.injEq, UInt64.toNat_inj] at h
  obtain ⟨rfl, start, last⟩ := h
  exact ⟨rfl, AddressRange.ext start last⟩

/-- If the depth suffices on every link, it suffices for all of them together. -/
private theorem isSome_foldlM {base : Network} {depth : Nat} {range : AddressRange}
    (links : List Link) {state : Nat × Network} (same : state.2.handles = base.handles)
    (each : ∀ link ∈ links, ∀ image, link.image range = some image → ∀ net : Network,
      net.handles = base.handles → (net.withdraw? depth link.listener image).isSome = true) :
    (links.foldlM (withdrawLink depth range) state).isSome = true := by
  induction links generalizing state with
  | nil => rfl
  | cons link rest ih =>
      have later := fun other member => each other (List.mem_cons_of_mem link member)
      cases moved : link.image range with
      | none => simpa [withdrawLink, moved] using ih same later
      | some image =>
          have enough := each link List.mem_cons_self image moved state.2 same
          obtain ⟨⟨count, after⟩, withdrawn⟩ := Option.isSome_iff_exists.1 enough
          have sheds := (clears_of_withdraw? same withdrawn).1
          have onward := @ih (state.1 + count, after) (sheds.handles.trans same) later
          simpa [withdrawLink, moved, withdrawn] using onward

/-- A depth beyond the number of places that a withdrawal can come to suffices, because it comes to
none of them twice on one way. -/
private theorem isSome_withdraw?_of_card {base : Network} (n : ℕ) (places : Finset (ℕ × ℕ × ℕ))
    (few : places.card ≤ n) {id : HandleId} {range : AddressRange} (ends : base.Ends id range)
    (within : ∀ other final, base.Reaches id range other final →
      (base.handle other).links ≠ [] → place other final ∈ places)
    {net : Network} (same : net.handles = base.handles) :
    (net.withdraw? (n + 1) id range).isSome = true := by
  -- the place that has just been left is taken out of those that are still to come
  induction n generalizing places id range net with
  | zero =>
      have last : (net.handle id).links = [] := by
        by_contra onward
        rw [handle_of_handles_eq same] at onward
        have inside := within id range (.here id range) onward
        rw [Finset.card_eq_zero.1 (Nat.le_zero.1 few)] at inside
        exact absurd inside (Finset.notMem_empty _)
      simp [withdraw?_succ, last]
  | succ n ih =>
      refine isSome_foldlM _ ((handles_cutBound net id range).trans same) ?_
      intro link member image moved net' same'
      rw [handle_of_handles_eq same] at member
      have here : place id range ∈ places :=
        within id range (.here id range) (List.ne_nil_of_mem member)
      have fewer : (places.erase (place id range)).card ≤ n := by
        rw [Finset.card_erase_of_mem here]
        omega
      have onward := ends
      obtain ⟨onward⟩ := onward
      refine ih _ fewer (onward link member image moved) ?_ same'
      intro other final reached further
      -- coming back to it would go on for ever
      refine Finset.mem_erase.2 ⟨fun back => ?_, ?_⟩
      · obtain ⟨rfl, rfl⟩ := place_inj back
        exact not_reaches_of_ends ends link member image moved reached
      · exact within other final (.along member moved reached) further

/-- A handle with links has been made. -/
theorem mem_keys_of_links {net : Network} {id : HandleId} (h : (net.handle id).links ≠ []) :
    id ∈ net.handles.keys := by
  cases found : net.handles.find? id with
  | none => exact absurd (by simp [handle, found]) h
  | some made => exact List.mem_map_of_mem (Table.mem_entries_of_find? found)

/-- **The depth bound suffices for every withdrawal that ends.** -/
theorem isSome_withdraw?_of_ends {net : Network} {id : HandleId} {range : AddressRange}
    (ends : net.Ends id range) : (net.withdraw? net.depthBound id range).isSome = true := by
  let words : Finset ℕ := Finset.range UInt64.size
  let places : Finset (ℕ × ℕ × ℕ) := net.handles.keys.toFinset ×ˢ (words ×ˢ words)
  refine isSome_withdraw?_of_card _ places ?_ ends ?_ rfl
  · have keys : net.handles.keys.toFinset.card ≤ net.handles.entries.length := by
      simpa [Table.keys] using net.handles.keys.toFinset_card_le
    calc places.card = net.handles.keys.toFinset.card * (UInt64.size * UInt64.size) := by
          simp [places, words]
      _ ≤ net.handles.entries.length * (UInt64.size * UInt64.size) := Nat.mul_le_mul_right _ keys
  · intro other final reached onward
    have known := mem_keys_of_links onward
    simp [places, words, place, known, final.start.toNat_lt, final.last.toNat_lt]

/-- A withdrawal that ends has an outcome. -/
theorem exists_withdraw_of_ends {net : Network} {id : HandleId} {range : AddressRange}
    (ends : net.Ends id range) : ∃ outcome, net.withdraw id range = some outcome :=
  Option.isSome_iff_exists.1 (isSome_withdraw?_of_ends ends)

/-- **A withdrawal takes mappings away, and leaves none of those that it was meant for.** -/
theorem withdraw_spec {net : Network} {id : HandleId} {range : AddressRange}
    {outcome : Nat × Network} (done : net.withdraw id range = some outcome) :
    net.Sheds outcome.2 ∧ net.Clears id range outcome.2 :=
  clears_of_withdraw? rfl done

/-! ### Several handles, several ranges -/

/-- One handle more, for any way to withdraw through a handle. -/
def withdrawNext (f : Network → HandleId → AddressRange → Option (Nat × Network))
    (range : AddressRange) (state : List Nat × Network) (id : HandleId) :
    Option (List Nat × Network) :=
  (f state.2 id range).map fun next => (state.1 ++ [next.1], next.2)

-- The step is a variable here: with `withdraw` in its place the depth bound would be evaluated.
private theorem foldlM_withdrawNext_spec
    {f : Network → HandleId → AddressRange → Option (Nat × Network)} {range : AddressRange}
    (step : ∀ {net id outcome}, f net id range = some outcome →
      Sheds net outcome.2 ∧ Clears net id range outcome.2)
    (ids : List HandleId) {state done : List Nat × Network}
    (h : ids.foldlM (withdrawNext f range) state = some done) :
    state.2.Sheds done.2 ∧ ∀ id ∈ ids, state.2.Clears id range done.2 := by
  induction ids generalizing state with
  | nil =>
      cases h
      exact ⟨.refl _, fun _ absent => absurd absent List.not_mem_nil⟩
  | cons first rest ih =>
      rw [List.foldlM_cons] at h
      obtain ⟨middle, next, h⟩ := Option.bind_eq_some_iff.1 h
      obtain ⟨outcome, withdrawn, rfl⟩ := Option.map_eq_some_iff.1 next
      obtain ⟨sheds, clears⟩ := step withdrawn
      obtain ⟨less, cleared⟩ := ih h
      refine ⟨sheds.trans less, fun id member => ?_⟩
      rcases List.mem_cons.1 member with rfl | later
      · exact clears.mono less
      · exact (cleared id later).congr sheds.handles

private theorem exists_foldlM_withdrawNext
    {f : Network → HandleId → AddressRange → Option (Nat × Network)} {range : AddressRange}
    (step : ∀ {net id outcome}, f net id range = some outcome →
      Sheds net outcome.2 ∧ Clears net id range outcome.2)
    (found : ∀ {net id}, Ends net id range → ∃ outcome, f net id range = some outcome)
    (ids : List HandleId) (state : List Nat × Network) (ends : ∀ id ∈ ids, state.2.Ends id range) :
    ∃ done, ids.foldlM (withdrawNext f range) state = some done := by
  induction ids generalizing state with
  | nil => exact ⟨state, rfl⟩
  | cons first rest ih =>
      obtain ⟨outcome, withdrawn⟩ := found (ends first List.mem_cons_self)
      have same := (step withdrawn).1.handles
      obtain ⟨done, later⟩ := ih (state.1 ++ [outcome.1], outcome.2) fun id member =>
        (ends id (List.mem_cons_of_mem _ member)).congr same
      refine ⟨done, ?_⟩
      rw [List.foldlM_cons, withdrawNext, withdrawn]
      exact later

theorem withdrawThrough_eq (net : Network) (ids : List HandleId) (range : AddressRange) :
    net.withdrawThrough ids range = ids.foldlM (withdrawNext withdraw range) ([], net) := rfl

/-- **Withdrawals through several handles, one after the other.** -/
theorem withdrawThrough_spec {ids : List HandleId} {range : AddressRange} {net : Network}
    {outcome : List Nat × Network} (done : net.withdrawThrough ids range = some outcome) :
    net.Sheds outcome.2 ∧ ∀ id ∈ ids, net.Clears id range outcome.2 := by
  rw [withdrawThrough_eq] at done
  exact foldlM_withdrawNext_spec withdraw_spec ids done

/-- They all end if each would. -/
theorem exists_withdrawThrough (net : Network) (ids : List HandleId) (range : AddressRange)
    (ends : ∀ id ∈ ids, net.Ends id range) :
    ∃ outcome, net.withdrawThrough ids range = some outcome := by
  rw [withdrawThrough_eq]
  exact exists_foldlM_withdrawNext withdraw_spec exists_withdraw_of_ends ids ([], net) ends

/-- **Withdrawals of several ranges, one after the other, through several handles.** -/
theorem withdrawAll_spec {ids : List HandleId} {ranges : List AddressRange} {net after : Network}
    (done : net.withdrawAll ids ranges = some after) :
    net.Sheds after ∧ ∀ id ∈ ids, ∀ range ∈ ranges, net.Clears id range after := by
  induction ranges generalizing net with
  | nil =>
      cases done
      exact ⟨.refl _, fun _ _ _ absent => absurd absent List.not_mem_nil⟩
  | cons first rest ih =>
      rw [withdrawAll, List.foldlM_cons] at done
      obtain ⟨middle, next, done⟩ := Option.bind_eq_some_iff.1 done
      obtain ⟨outcome, withdrawn, rfl⟩ := Option.map_eq_some_iff.1 next
      obtain ⟨sheds, clears⟩ := withdrawThrough_spec withdrawn
      obtain ⟨less, cleared⟩ := ih done
      refine ⟨sheds.trans less, fun id member range among => ?_⟩
      rcases List.mem_cons.1 among with rfl | among
      · exact (clears id member).mono less
      · exact (cleared id member range among).congr sheds.handles

/-- They all end if each would. -/
theorem exists_withdrawAll (net : Network) (ids : List HandleId) (ranges : List AddressRange)
    (ends : ∀ id ∈ ids, ∀ range ∈ ranges, net.Ends id range) :
    ∃ after, net.withdrawAll ids ranges = some after := by
  induction ranges generalizing net with
  | nil => exact ⟨net, rfl⟩
  | cons first rest ih =>
      obtain ⟨outcome, withdrawn⟩ :=
        exists_withdrawThrough net ids first fun id member =>
          ends id member first List.mem_cons_self
      have same := (withdrawThrough_spec withdrawn).1.handles
      obtain ⟨after, later⟩ := ih outcome.2 fun id member range among =>
        (ends id member range (List.mem_cons_of_mem _ among)).congr same
      refine ⟨after, ?_⟩
      rw [withdrawAll, List.foldlM_cons, withdrawn]
      exact later

end Network

end Interconnect
