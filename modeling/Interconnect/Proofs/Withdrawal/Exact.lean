import Mathlib.Logic.Relation
import Interconnect.Proofs.Withdrawal.Reach
import Interconnect.Word

/-!
# What a withdrawal takes away, exactly

A withdrawal may come to one handle on many ways, each of which clips and moves the range in its own
manner, and to one cache through many handles.  What it takes from a cache is the union over all
ways; this module says so address by address, and that nothing else is taken.

## Main Definitions

* `Rebase.Fits` — every shown address has a place
* `Network.Leads` — an address of one handle stands for an address of another
* `Network.Meant` — a withdrawal is meant for an address of a cache
* `Network.Built`, `Network.Acyclic` — the networks that can be built, and those without circles
* `Network.Takes` — what is taken from which cache, with a count

## Main Statements

* `exists_reaches_iff` — ranges arrive where their addresses lead
* `takes_withdraw?` — a withdrawal takes what it reaches
* `Acyclic.ends` — without circles every withdrawal ends
* `withdraw_takes_meant` — what a withdrawal takes, what it leaves, and when its count is zero
-/

namespace Interconnect

namespace Rebase

/-- **Every shown address has a place:** some address is shown, and the place of the last one lies
within the address space. -/
structure Fits (r : Rebase) : Prop where
  /-- Some address is shown. -/
  ordered : r.visible.start ≤ r.visible.last
  /-- The last place is an address. -/
  within : r.base.toNat + (r.visible.last.toNat - r.visible.start.toNat) < UInt64.size

/-- **A rebased range holds the places of the addresses that are shown of it.** -/
theorem exists_mem_image_iff {r : Rebase} (fits : r.Fits) {range : AddressRange} {b : UInt64} :
    (∃ image, r.image range = some image ∧ b ∈ image) ↔
      ∃ a ∈ range, a ∈ r.visible ∧ b = r.base + (a - r.visible.start) := by
  have room : ∀ a ∈ r.visible, r.base ≤ r.base + (a - r.visible.start) := by
    intro a shown
    have within := fits.within
    simp only [AddressRange.mem_iff, UInt64.le_iff_toNat_le] at shown
    rw [Word.le_add_iff, UInt64.toNat_sub_of_le _ _ (UInt64.le_iff_toNat_le.2 shown.1)]
    omega
  constructor
  · rintro ⟨image, moved, inside⟩
    obtain ⟨part, met, moved⟩ := Option.bind_eq_some_iff.1 moved
    obtain ⟨distance, down, up⟩ := Option.bind_eq_some_iff.1 moved
    rw [toOption_eq_some_iff] at down up
    rw [AddressRange.mem_shiftUp_iff up, AddressRange.mem_shiftDown_iff down,
      AddressRange.mem_of_intersect_eq_some met] at inside
    obtain ⟨above, -, shown, withdrawn⟩ := inside
    exact ⟨_, withdrawn, shown, by grind⟩
  · rintro ⟨a, withdrawn, shown, rfl⟩
    cases met : r.visible.intersect range with
    | none => exact absurd withdrawn (AddressRange.intersect_eq_none_iff.1 met a shown)
    | some part =>
        -- both bounds of the common part are shown, so they have places
        have mem := fun {x} => AddressRange.mem_of_intersect_eq_some met (a := x)
        have here : a ∈ part := mem.2 ⟨shown, withdrawn⟩
        have holds : part.start ≤ part.last := UInt64.le_trans here.1 here.2
        have low := (mem.1 ⟨UInt64.le_refl _, holds⟩).1
        have high := (mem.1 ⟨holds, UInt64.le_refl _⟩).1
        have lowRoom := room _ low
        have highRoom := room _ high
        rw [AddressRange.mem_iff] at low high
        let distance : AddressRange := ⟨part.start - r.visible.start, part.last - r.visible.start,
          .inl (by grind)⟩
        have down : part.shiftDown r.visible.start = .ok distance :=
          AddressRange.shiftDown_eq_ok_iff.2 ⟨⟨low.1, high.1⟩, rfl, rfl⟩
        let image : AddressRange := ⟨distance.start + r.base, distance.last + r.base, .inl (by
          simp only [distance]
          grind)⟩
        have up : distance.shiftUp r.base = .ok image :=
          AddressRange.shiftUp_eq_ok_iff.2 ⟨⟨by grind, by grind⟩, rfl, rfl⟩
        refine ⟨image, by simp [Rebase.image, met, down, up, Except.toOption], ?_⟩
        rw [AddressRange.mem_shiftUp_iff up, AddressRange.mem_shiftDown_iff down]
        have back : r.base + (a - r.visible.start) - r.base = a - r.visible.start := by grind
        have whole : a - r.visible.start + r.visible.start = a := by grind
        rw [back, whole]
        have nearer : a - r.visible.start ≤ a := by
          have := shown.1
          grind
        exact ⟨room a shown, nearer, here⟩

end Rebase

/-- **Address `a` of the sender stands for address `b` of the listener:** they are the same, or the
link shows the one in the place of the other. -/
def Link.Moves (link : Link) (a b : UInt64) : Prop :=
  match link.rebase with
  | none => b = a
  | some r => a ∈ r.visible ∧ b = r.base + (a - r.visible.start)

/-- Every address that a link shows has a place. -/
def Link.Fits (link : Link) : Prop := ∀ r, link.rebase = some r → r.Fits

/-- **The range at the other end of a link holds what its addresses stand for.** -/
theorem Link.exists_mem_image_iff {link : Link} (fits : link.Fits) {range : AddressRange}
    {b : UInt64} :
    (∃ image, link.image range = some image ∧ b ∈ image) ↔ ∃ a ∈ range, link.Moves a b := by
  unfold Link.image Link.Moves
  cases plain : link.rebase with
  | none => simp
  | some r => exact Rebase.exists_mem_image_iff (fits r plain)

namespace Network

variable {net base after : Network} {id other : HandleId} {range image final : AddressRange}
  {c : CacheId} {b : UInt64}

/-! ### Where addresses lead -/

/-- **Address `a` of one handle stands for address `b` of another,** link by link. -/
inductive Leads (net : Network) : HandleId → UInt64 → HandleId → UInt64 → Prop
  /-- At the handle itself. -/
  | here (id : HandleId) (a : UInt64) : Leads net id a id a
  /-- Along a link. -/
  | along {id : HandleId} {a middle : UInt64} {link : Link} {other : HandleId} {b : UInt64}
      (member : link ∈ (net.handle id).links) (moves : link.Moves a middle)
      (rest : Leads net link.listener middle other b) : Leads net id a other b

/-- **A withdrawal of `range` at `id` is meant for address `b` of a cache:** some address of the
range stands for it at a handle to which the cache is bound. -/
def Meant (net : Network) (id : HandleId) (range : AddressRange) (c : CacheId) (b : UInt64) :
    Prop :=
  ∃ a ∈ range, ∃ other, net.Leads id a other b ∧ c ∈ (net.handle other).caches

/-- Every link shows addresses that have places. -/
def Fits (net : Network) : Prop := ∀ id, ∀ link ∈ (net.handle id).links, link.Fits

/-- **Ranges arrive where their addresses lead.** -/
theorem exists_reaches_iff (fits : net.Fits) :
    (∃ final, net.Reaches id range other final ∧ b ∈ final) ↔
      ∃ a ∈ range, net.Leads id a other b := by
  constructor
  · rintro ⟨final, reached, inside⟩
    induction reached with
    | here id range => exact ⟨b, inside, .here id b⟩
    | along member moved _ ih =>
        obtain ⟨middle, held, leads⟩ := ih inside
        obtain ⟨a, withdrawn, moves⟩ :=
          (Link.exists_mem_image_iff (fits _ _ member)).1 ⟨_, moved, held⟩
        exact ⟨a, withdrawn, .along member moves leads⟩
  · rintro ⟨a, withdrawn, leads⟩
    induction leads generalizing range with
    | here id a => exact ⟨range, .here id range, withdrawn⟩
    | along member moves _ ih =>
        obtain ⟨image, moved, held⟩ :=
          (Link.exists_mem_image_iff (fits _ _ member)).2 ⟨_, withdrawn, moves⟩
        obtain ⟨final, reached, inside⟩ := ih held
        exact ⟨final, .along member moved reached, inside⟩

/-! ### What is taken -/

/-- **From each cache the addresses that are meant are taken, and nothing else:** `outcome` is the
number of times that a cache was touched and the network that is left. -/
structure Takes (net : Network) (meant : CacheId → UInt64 → Prop) (outcome : Nat × Network) :
    Prop where
  /-- The handles are as before. -/
  handles : outcome.2.handles = net.handles
  /-- The other mappings are left. -/
  offers : ∀ c a q p, outcome.2.Offers c a q p ↔ net.Offers c a q p ∧ ¬ meant c a
  /-- A cache from which nothing is taken is as before. -/
  kept : ∀ c, (∀ a q p, net.Offers c a q p → ¬ meant c a) → outcome.2.cache c = net.cache c
  /-- Nothing is counted exactly if nothing is taken. -/
  counted : outcome.1 = 0 ↔ ∀ c a q p, net.Offers c a q p → ¬ meant c a

namespace Takes

variable {meant meant' : CacheId → UInt64 → Prop} {outcome next : Nat × Network}

theorem nothing (net : Network) : net.Takes (fun _ _ => False) (0, net) where
  handles := rfl
  offers := by simp
  kept := fun _ _ => rfl
  counted := by simp

theorem congr (h : net.Takes meant outcome) (same : ∀ c a, meant c a ↔ meant' c a) :
    net.Takes meant' outcome := by
  have equal : meant = meant' := funext₂ fun c a => propext (same c a)
  exact equal ▸ h

/-- One after the other takes what either takes, and the counts add up. -/
theorem append (first : net.Takes meant outcome) (second : outcome.2.Takes meant' next) :
    net.Takes (fun c a => meant c a ∨ meant' c a) (outcome.1 + next.1, next.2) where
  handles := second.handles.trans first.handles
  offers := by
    intro c a q p
    rw [second.offers, first.offers]
    tauto
  kept := by
    intro c untouched
    rw [second.kept c, first.kept c fun a q p covers => (not_or.1 (untouched a q p covers)).1]
    intro a q p covers
    exact (not_or.1 (untouched a q p ((first.offers c a q p).1 covers).1)).2
  counted := by
    rw [Nat.add_eq_zero_iff, first.counted, second.counted]
    constructor
    · rintro ⟨none, later⟩ c a q p covers
      have left := (first.offers c a q p).2 ⟨covers, none c a q p covers⟩
      exact not_or.2 ⟨none c a q p covers, later c a q p left⟩
    · intro none
      refine ⟨fun c a q p covers => (not_or.1 (none c a q p covers)).1, fun c a q p covers => ?_⟩
      exact (not_or.1 (none c a q p ((first.offers c a q p).1 covers).1)).2

/-- A cache is changed exactly if something is taken from it. -/
theorem cache_eq_iff (h : net.Takes meant outcome) :
    outcome.2.cache c = net.cache c ↔ ∀ a q p, net.Offers c a q p → ¬ meant c a := by
  refine ⟨fun same a q p covers => ?_, h.kept c⟩
  have left : outcome.2.Offers c a q p := by rwa [Offers, same]
  exact ((h.offers c a q p).1 left).2

end Takes

/-- A cut of one cache takes the range from it. -/
theorem takes_cutCache (net : Network) (range : AddressRange) (id : CacheId) :
    net.Takes (fun c a => c = id ∧ a ∈ range) (cutCache range (0, net) id) where
  handles := handles_cutCache range (0, net) id
  offers := by
    intro c a q p
    rw [Offers, cache_cutCache]
    split
    · next same =>
        rw [WindowCache.covers_cut_iff, Offers, same]
        simp
    · next different => simp [Offers, different]
  kept := by
    intro c untouched
    rw [cache_cutCache]
    split
    · next same =>
        subst same
        refine WindowCache.cut_eq_self (Bool.not_eq_true _ ▸ fun touched => ?_)
        obtain ⟨a, inside, q, p, covers⟩ := WindowCache.touches_eq_true_iff.1 touched
        exact untouched a q p covers ⟨rfl, inside⟩
    · rfl
  counted := by
    have touched : (net.cache id).touches range = true ↔ _ := WindowCache.touches_eq_true_iff
    unfold cutCache
    split
    · next met =>
        obtain ⟨a, inside, q, p, covers⟩ := touched.1 met
        simp only [Nat.add_eq_zero_iff, Nat.one_ne_zero, and_false, false_iff]
        exact fun none => none id a q p covers ⟨rfl, inside⟩
    · next apart =>
        simp only [true_iff]
        rintro c a q p covers ⟨rfl, inside⟩
        exact apart (touched.2 ⟨a, inside, q, p, covers⟩)

/-- The count of a cut is added to the count so far. -/
theorem cutCache_eq (range : AddressRange) (state : Nat × Network) (id : CacheId) :
    cutCache range state id =
      (state.1 + (cutCache range (0, state.2) id).1, (cutCache range (0, state.2) id).2) := by
  unfold cutCache
  split <;> simp

/-- **A cut of the caches bound to a handle takes the range from them.** -/
theorem takes_cutBound (net : Network) (id : HandleId) (range : AddressRange) :
    net.Takes (fun c a => c ∈ (net.handle id).caches ∧ a ∈ range) (net.cutBound id range) := by
  have each : ∀ (ids : List CacheId) {meant : CacheId → UInt64 → Prop} {state : Nat × Network},
      net.Takes meant state → net.Takes (fun c a => meant c a ∨ c ∈ ids ∧ a ∈ range)
        (ids.foldl (cutCache range) state) := by
    intro ids
    induction ids with
    | nil => exact fun taken => taken.congr (by simp)
    | cons first rest ih =>
        intro meant state taken
        rw [List.foldl_cons, cutCache_eq]
        refine (ih (taken.append (takes_cutCache state.2 range first))).congr fun c a => ?_
        rw [List.mem_cons]
        tauto
  exact (each (net.handle id).caches (.nothing net)).congr (by simp)

/-- A withdrawal of `range` at `id` comes to address `b` of a cache. -/
def Comes (net : Network) (id : HandleId) (range : AddressRange) (c : CacheId) (b : UInt64) :
    Prop :=
  ∃ other final, net.Reaches id range other final ∧ c ∈ (net.handle other).caches ∧ b ∈ final

/-- It comes to the caches bound at the handle, and onwards along the links. -/
theorem comes_iff : net.Comes id range c b ↔
    (c ∈ (net.handle id).caches ∧ b ∈ range) ∨
      ∃ link ∈ (net.handle id).links, ∃ image, link.image range = some image ∧
        net.Comes link.listener image c b := by
  constructor
  · rintro ⟨other, final, reached, bound, inside⟩
    cases reached with
    | here => exact .inl ⟨bound, inside⟩
    | along member moved rest =>
        exact .inr ⟨_, member, _, moved, other, final, rest, bound, inside⟩
  · rintro (⟨bound, inside⟩ | ⟨link, member, image, moved, other, final, rest, bound, inside⟩)
    · exact ⟨id, range, .here id range, bound, inside⟩
    · exact ⟨other, final, .along member moved rest, bound, inside⟩

theorem comes_congr (same : net.handles = base.handles) :
    net.Comes id range c b ↔ base.Comes id range c b := by
  have there : ∀ {left right : Network}, left.handles = right.handles →
      left.Comes id range c b → right.Comes id range c b := by
    rintro left right same ⟨other, final, reached, bound, inside⟩
    have handle := handle_of_handles_eq same
    refine ⟨other, final, reached.mono fun id => ?_, handle other ▸ bound, inside⟩
    rw [handle]
    exact List.Subset.refl _
  exact ⟨there same, there same.symm⟩

/-- **A withdrawal that ends takes what it comes to.** -/
theorem takes_withdraw? {depth count : Nat}
    (h : net.withdraw? depth id range = some (count, after)) :
    net.Takes (net.Comes id range) (count, after) := by
  induction depth generalizing net after id range count with
  | zero => cases h
  | succ depth ih =>
      -- the links are those of `net` throughout, while the network in hand has been cut already
      have along : ∀ (links : List Link) {meant : CacheId → UInt64 → Prop} {state : Nat × Network}
          {outcome : Nat × Network}, net.Takes meant state →
          links.foldlM (withdrawLink depth range) state = some outcome →
          net.Takes (fun c a => meant c a ∨ ∃ link ∈ links, ∃ image,
            link.image range = some image ∧ net.Comes link.listener image c a) outcome := by
        intro links
        induction links with
        | nil =>
            rintro meant state outcome taken ⟨⟩
            exact taken.congr (by simp)
        | cons link rest onward =>
            intro meant state outcome taken h
            rw [List.foldlM_cons, Option.bind_eq_bind, Option.bind_eq_some_iff] at h
            obtain ⟨next, first, h⟩ := h
            unfold withdrawLink at first
            split at first
            · next unmoved =>
                cases first
                exact (onward taken h).congr (by simp [unmoved])
            · next image moved =>
                obtain ⟨⟨count, after⟩, withdrawn, rfl⟩ := Option.map_eq_some_iff.1 first
                refine (onward (taken.append (ih withdrawn)) h).congr fun c a => ?_
                simp [moved, or_assoc, comes_congr taken.handles]
      rw [withdraw?_succ] at h
      exact (along _ (takes_cutBound net id range) h).congr fun c a => comes_iff.symm

/-- **What a withdrawal comes to is what it is meant for.** -/
theorem comes_iff_meant (fits : net.Fits) : net.Comes id range c b ↔ net.Meant id range c b := by
  constructor
  · rintro ⟨other, final, reached, bound, inside⟩
    obtain ⟨a, withdrawn, leads⟩ := (exists_reaches_iff fits).1 ⟨final, reached, inside⟩
    exact ⟨a, withdrawn, other, leads, bound⟩
  · rintro ⟨a, withdrawn, other, leads, bound⟩
    obtain ⟨final, reached, inside⟩ := (exists_reaches_iff fits).2 ⟨a, withdrawn, leads⟩
    exact ⟨other, final, reached, bound, inside⟩

/-! ### The networks that can be built -/

/-- **The networks that can be built** on any caches, whose contents may change in any way. -/
inductive Built : Network → Prop
  /-- No handle has been made. -/
  | caches (caches : Table WindowCache) : Built ⟨caches, Table.empty⟩
  /-- A cache has been filled or emptied, or is new. -/
  | setCache {net : Network} (built : Built net) (c : CacheId) (cache : WindowCache) :
      Built (net.setCache c cache)
  /-- A handle is made. -/
  | addHandle {net : Network} (built : Built net) : Built net.addHandle.2
  /-- A handle is made that passes on to another, rebased. -/
  | rebased {net : Network} (built : Built net) (id : HandleId) {r : Rebase} (fits : r.Fits) :
      Built (net.rebased id r).2
  /-- A handle passes on to another. -/
  | forward {net : Network} (built : Built net) (id listener : HandleId) :
      Built (net.forward id listener)
  /-- A cache is bound. -/
  | bind {net : Network} (built : Built net) (id : HandleId) (c : CacheId) : Built (net.bind id c)
  /-- A binding is undone. -/
  | unbind {net : Network} (built : Built net) (id : HandleId) (c : CacheId) :
      Built (net.unbind id c)

/-- A handle whose links fit may be put anywhere. -/
theorem Fits.setHandle (fits : net.Fits) {made : Handle} (links : ∀ link ∈ made.links, link.Fits) :
    (net.setHandle id made).Fits := by
  intro other link member
  rw [handle_setHandle] at member
  split at member
  · exact links link member
  · exact fits other link member

/-- **In a network that has been built every shown address has a place.** -/
theorem Built.fits (built : net.Built) : net.Fits := by
  have plain : ∀ listener : HandleId, Link.Fits ⟨listener, none⟩ := by
    intro listener r absent
    cases absent
  induction built with
  | caches => exact fun id link member => absurd member (by simp [handle])
  | setCache _ c cache ih => exact ih
  | addHandle _ ih => exact ih.setHandle (by simp)
  | rebased _ id fits ih =>
      refine ih.setHandle fun link member r shown => ?_
      rw [List.mem_singleton.1 member] at shown
      cases shown
      exact fits
  | forward _ id listener ih =>
      intro other link member
      rcases mem_links_forward_iff.1 member with old | ⟨-, -, rfl⟩
      · exact ih other link old
      · exact plain listener
  | bind _ id c ih => exact fun other link member => ih other link (by simpa using member)
  | @unbind net _ id c ih => exact ih.setHandle (ih id)

/-! ### Networks without circles -/

/-- A handle passes on to another what it withdraws. -/
def Passes (net : Network) (id other : HandleId) : Prop :=
  ∃ link ∈ (net.handle id).links, link.listener = other

/-- **No handle hears from itself,** on whatever way. -/
def Acyclic (net : Network) : Prop := ∀ id, ¬ Relation.TransGen net.Passes id id

open Classical in
/-- The number of handles that a handle may come to. -/
noncomputable def below (net : Network) (id : HandleId) : Nat :=
  (net.handles.keys.toFinset.filter (Relation.ReflTransGen net.Passes id)).card

open Classical in
/-- A link leads to a handle that may come to fewer, since it does not come back. -/
theorem Acyclic.below_lt (acyclic : net.Acyclic) {link : Link}
    (member : link ∈ (net.handle id).links) : net.below link.listener < net.below id := by
  have passes : net.Passes id link.listener := ⟨link, member, rfl⟩
  refine Finset.card_lt_card (Finset.ssubset_iff_of_subset ?_ |>.2 ⟨id, ?_, ?_⟩)
  · intro other further
    rw [Finset.mem_filter] at further ⊢
    exact ⟨further.1, .head passes further.2⟩
  · rw [Finset.mem_filter, List.mem_toFinset]
    exact ⟨mem_keys_of_links (List.ne_nil_of_mem member), .refl⟩
  · rw [Finset.mem_filter]
    exact fun back => acyclic id (.head' passes back.2)

/-- Links that only lead downwards make no circle. -/
theorem acyclic_of_descent (rank : HandleId → Nat)
    (descent : ∀ id, ∀ link ∈ (net.handle id).links, rank link.listener < rank id) :
    net.Acyclic := by
  have falls : ∀ id other, Relation.TransGen net.Passes id other → rank other < rank id := by
    intro id other way
    induction way with
    | single passes =>
        obtain ⟨link, member, rfl⟩ := passes
        exact descent _ link member
    | tail _ passes ih =>
        obtain ⟨link, member, rfl⟩ := passes
        exact (descent _ link member).trans ih
  exact fun id circle => Nat.lt_irrefl _ (falls id id circle)

/-- **Without circles every withdrawal ends.** -/
theorem Acyclic.ends (acyclic : net.Acyclic) (id : HandleId) (range : AddressRange) :
    net.Ends id range :=
  ends_of_descent net.below (fun _ _ member => acyclic.below_lt member) id range

/-- **A withdrawal in a network without circles ends.  It takes from every cache the addresses that
it is meant for and no others, leaves the caches alone for which it is not meant, and its count is
zero exactly if no cache has changed.** -/
theorem withdraw_takes_meant (built : net.Built) (acyclic : net.Acyclic) (id : HandleId)
    (range : AddressRange) :
    ∃ count after, net.withdraw id range = some (count, after) ∧
      (∀ c b q p, after.Offers c b q p ↔ net.Offers c b q p ∧ ¬ net.Meant id range c b) ∧
      (∀ c, (∀ b q p, net.Offers c b q p → ¬ net.Meant id range c b) →
        after.cache c = net.cache c) ∧
      (count = 0 ↔ ∀ c, after.cache c = net.cache c) := by
  obtain ⟨⟨count, after⟩, found⟩ := exists_withdraw_of_ends (acyclic.ends id range)
  have taken := (takes_withdraw? found).congr fun c b => comes_iff_meant built.fits
  refine ⟨count, after, found, taken.offers, taken.kept, ?_⟩
  simp only [taken.cache_eq_iff, taken.counted]

/-- A handle passes on to another as it is and rebased: a withdrawal takes both places from the
cache that is bound there, and leaves what lies between. -/
theorem exists_withdraw_two_ways : ∃ (net : Network) (outcome : Nat × Network),
    net.withdraw 1 ⟨0x80, 0x8f, by decide⟩ = some outcome ∧ outcome.1 ≠ 0 ∧
      ∀ b, (∃ p, outcome.2.Offers 0 b .readWrite p) ↔
        b ≤ 0x1fff ∧ ¬ (0x80 ≤ b ∧ b ≤ 0x8f) ∧ ¬ (0x1010 ≤ b ∧ b ≤ 0x1017) := by
  let window : DirectWindow := ⟨⟨0, 0x1fff, by decide⟩, ⟨some 0, 0⟩, .readWrite⟩
  let shown : Rebase := ⟨⟨0x70, 0x87, by decide⟩, 0x1000⟩
  let range : AddressRange := ⟨0x80, 0x8f, by decide⟩
  let bare : Network := ⟨⟨[(0, ⟨[⟨window, 0⟩], none, 0⟩)]⟩, Table.empty⟩
  let net : Network := ((bare.addHandle.2.bind 0 0).rebased 0 shown).2.forward 1 0
  have built : net.Built :=
    (((Built.caches bare.caches).addHandle.bind 0 0).rebased 0 ⟨by decide, by decide⟩).forward 1 0
  have first : net.handle 0 = ⟨[0], []⟩ := rfl
  have second : net.handle 1 = ⟨[], [⟨0, some shown⟩, ⟨0, none⟩]⟩ := rfl
  have others : ∀ id, net.handle (id + 2) = ⟨[], []⟩ := fun _ => rfl
  have acyclic : net.Acyclic := by
    refine acyclic_of_descent (fun id => id) fun id link member => ?_
    obtain _ | _ | id := id
    · rw [first] at member
      cases member
    · have down : ∀ link ∈ (net.handle 1).links, link.listener = 0 := by simp [second]
      rw [down link member]
      exact Nat.one_pos
    · rw [others] at member
      cases member
  have meant : ∀ b, net.Meant 1 range 0 b ↔
      (0x80 ≤ b ∧ b ≤ 0x8f) ∨ (0x1010 ≤ b ∧ b ≤ 0x1017) := by
    intro b
    have bound : ∀ {image : AddressRange}, net.Comes 0 image 0 b ↔ b ∈ image := by
      intro image
      rw [comes_iff, first]
      simp
    have moved : shown.image range = some ⟨0x1010, 0x1017, by decide⟩ := by decide
    rw [← comes_iff_meant built.fits, comes_iff, second]
    simp [Link.image, moved, bound, AddressRange.mem_iff, range, or_comm]
  have covers : ∀ b, (∃ p, net.Offers 0 b .readWrite p) ↔ b ≤ 0x1fff := by
    intro b
    have windows : (net.cache 0).windows = [window] := rfl
    simp [Offers, WindowCache.Covers, windows, window, AddressRange.mem_iff]
  obtain ⟨count, after, done, offers, -, counted⟩ := withdraw_takes_meant built acyclic 1 range
  refine ⟨net, (count, after), done, ?_, ?_⟩
  · intro none
    obtain ⟨p, covered⟩ := (covers 0x80).2 (by decide)
    have left : after.Offers 0 0x80 .readWrite p := by
      rwa [Offers, counted.1 none]
    exact ((offers 0 0x80 .readWrite p).1 left).2 ((meant 0x80).2 (.inl (by decide)))
  · intro b
    simp only [offers, meant, exists_and_right, covers, not_or]

end Network

end Interconnect
