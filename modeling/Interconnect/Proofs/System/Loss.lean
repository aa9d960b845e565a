import Interconnect.Proofs.System.Growth

/-!
# Changes that take away

A mapping that ends, a memory that becomes read-only and a target that goes leave cached windows
that no longer tell the truth.  The first two withdraw them, and the third happens only to targets
that no access through a gate reaches.

## Main Statements

* `unmap_cases`, `setReadOnly_cases`, `collect_induction` — what such changes do
* `Wired.not_offers_of_clears` — what a withdrawal at a target leaves nobody who reaches it
* `carries_unmap`, `carries_setReadOnly`, `carries_drop` — these changes keep what the gates need
* `exists_unmap`, `exists_setReadOnly`, `exists_drop` — they return where withdrawals end
-/

namespace Interconnect

namespace System

/-! ### Withdrawals -/

/-- A withdrawal does no harm. -/
theorem carries_of_sheds {s : System} (wired : s.Wired) {net : Network}
    (sheds : s.network.Sheds net) : s.Carries { s with network := net } :=
  carries_of_lost wired (wired.of_links (fun _ => rfl) sheds.links sheds.made) rfl rfl sheds
    (fun _ _ => rfl) (fun _ _ _ _ heard => heard.of_links (fun _ => rfl) sheds.links)
    (fun _ _ => False) (fun _ b seen _ shown _ _ => .inr ⟨b, seen, shown⟩)
    (fun _ m seen _ _ _ _ => .inr ⟨m, seen, rfl, rfl, rfl⟩)
    fun _ _ _ _ _ _ _ _ _ _ _ gone => gone.elim

/-- **A withdrawal at a target takes the mappings of every address that leads to what it
withdraws,** from whoever listens at the other end. -/
theorem Wired.not_offers_of_clears {s : System} (wired : s.Wired) {root id : TargetId}
    {a o : UInt64} (routes : s.world.Routes root a id o) {h : HandleId}
    (listens : s.Listens root h) {range : AddressRange} (inside : o ∈ range) {net : Network}
    (clears : ∀ start, s.Withdraws id start → s.network.Clears start range net) {c : CacheId}
    (bound : c ∈ (s.network.handle h).caches) {q : Permission} {p : HostPointer} :
    ¬ net.Offers c a q p := by
  intro offered
  obtain ⟨start, final, withdraws, reaches, covered⟩ := wired.exists_reaches routes listens inside
  exact clears start withdraws h final reaches c bound a q p offered covered

/-! ### Mappings that end -/

/-- **What a call to unmap does that succeeds:** the bus shows the target no longer, the range is
withdrawn, and the target is let go.  What is no bus stays as it is. -/
theorem unmap_cases {s after : System} {id : TargetId} {range : AddressRange}
    (unmapped : s.unmap id range = some (.ok (), after)) :
    s.bus? id = none ∧ after = s ∨
      ∃ b m b' counts net, s.world.endpoint? id = some (.bus b) ∧ b.unmap range = (.ok m, b') ∧
        s.network.withdrawThrough [b'.handle] range = some (counts, net) ∧
        ({ s.setEndpoint id (.bus b') with network := net } : System).release m.target =
          some after := by
  unfold unmap at unmapped
  split at unmapped
  · next b known =>
      split at unmapped
      · cases unmapped
      · next m b' ended =>
          obtain ⟨withdrawn, passed, released⟩ := Option.bind_eq_some_iff.1 unmapped
          obtain ⟨⟨counts, net⟩, through, rfl⟩ := Option.map_eq_some_iff.1 passed
          obtain ⟨left, gone, same⟩ := Option.bind_eq_some_iff.1 released
          cases same
          exact .inr ⟨b, m, b', counts, net, bus?_eq_some_iff.1 known, ended, through, gone⟩
  · next absent =>
      cases unmapped
      exact .inl ⟨absent, rfl⟩

/-- **A mapping may end if the addresses that it showed have been withdrawn.** -/
theorem carries_erase_mapping {s : System} (wired : s.Wired) {id : TargetId} {b b' : Bus}
    (found : s.world.endpoint? id = some (.bus b)) (ordered : b'.Ordered)
    (handle : b'.handle = b.handle) {range : AddressRange}
    (left : ∀ n, n ∈ b'.mappings ↔ n ∈ b.mappings ∧ n.range ≠ range) {net : Network}
    (sheds : s.network.Sheds net) (clears : s.network.Clears b.handle range net) :
    s.Carries { s.setEndpoint id (.bus b') with network := net } := by
  have rewired := wired_setBus wired found b' handle ordered
    fun n kept => .inl ((left n).1 kept).1
  -- lost is what the ended mapping passed on
  refine carries_of_lost wired (rewired.of_links (fun _ => rfl) sheds.links sheds.made) rfl rfl
    sheds (fun _ _ => rfl) ?_ (fun x o => x = id ∧ o ∈ range) ?_ ?_ ?_
  · intro k c _ h heard
    have still := listens_setBus found b' handle heard
    exact still.of_links (fun _ => rfl) sheds.links
  · intro x n seen m' shown a inside
    by_cases here : x = id
    · subst here
      rw [found] at seen
      cases seen
      by_cases ended : m'.range = range
      · exact .inl ⟨rfl, ended ▸ inside⟩
      · exact .inr ⟨_, endpoint?_setEndpoint_self _ _ _, (left m').2 ⟨shown, ended⟩⟩
    · exact .inr ⟨n, (endpoint?_setEndpoint_of_ne _ _ here).trans seen, shown⟩
  · intro x mem seen _ _ a _
    refine .inr ⟨mem, (endpoint?_setEndpoint_of_ne _ _ ?_).trans seen, rfl, rfl, rfl⟩
    rintro rfl
    rw [found] at seen
    cases seen
  · rintro k c _ h heard cache bound a x o routes ⟨rfl, inside⟩ q p
    refine wired.not_offers_of_clears routes heard inside ?_ bound
    rintro start (⟨mem, other, -⟩ | ⟨n, same, rfl⟩)
    · rw [found] at other
      cases other
    · rw [found] at same
      cases same
      exact clears

/-! ### Memories that change -/

/-- What is withdrawn for a memory is withdrawn over all its addresses through all its handles. -/
theorem of_withdrawMemory {s t : System} {m : Memory} (done : s.withdrawMemory m = some t) :
    ∃ net, t = { s with network := net } ∧ s.network.Sheds net ∧
      ∀ extent, m.extent s.world.storage = some extent → ∀ h ∈ m.handles,
        s.network.Clears h extent net := by
  obtain ⟨net, withdrawn, rfl⟩ := Option.map_eq_some_iff.1 done
  obtain ⟨sheds, clears⟩ := Network.withdrawAll_spec withdrawn
  exact ⟨net, rfl, sheds, fun extent whole h heard =>
    clears h heard extent (Option.mem_toList.2 whole)⟩

theorem memory?_eq_some_iff {s : System} {id : TargetId} {m : Memory} :
    s.memory? id = some m ↔ s.world.endpoint? id = some (.memory m) := by
  unfold memory?
  split
  · next found => simp [found]
  · next other =>
      refine ⟨fun h => (by cases h), fun found => ?_⟩
      exact absurd found (other m)

/-- A change of a memory changes no bus. -/
theorem endpoint?_setMemory_of_bus {s : System} {id : TargetId} {m : Memory}
    (found : s.world.endpoint? id = some (.memory m)) (m' : Memory) {other : TargetId} {b : Bus} :
    (s.setEndpoint id (.memory m')).world.endpoint? other = some (.bus b) ↔
      s.world.endpoint? other = some (.bus b) := by
  rw [endpoint?_setEndpoint]
  split
  · next same => simp [same, found]
  · rfl

/-- Whoever listens to a memory does not mind how it is written. -/
theorem listens_setMemory {s : System} {id : TargetId} {m : Memory}
    (found : s.world.endpoint? id = some (.memory m)) (m' : Memory)
    (handles : m'.handles = m.handles) {other : TargetId} {h : HandleId}
    (heard : s.Listens other h) : (s.setEndpoint id (.memory m')).Listens other h := by
  rcases heard with ⟨n, seen, bound⟩ | ⟨b, seen, linked⟩
  · by_cases same : other = id
    · subst same
      rw [found] at seen
      cases seen
      exact .inl ⟨m', endpoint?_setEndpoint_self _ _ _, handles ▸ bound⟩
    · exact .inl ⟨n, (endpoint?_setEndpoint_of_ne _ _ same).trans seen, bound⟩
  · exact .inr ⟨b, (endpoint?_setMemory_of_bus found m').2 seen, linked⟩

theorem wired_setMemory {s : System} (wired : s.Wired) {id : TargetId} {m : Memory}
    (found : s.world.endpoint? id = some (.memory m)) (m' : Memory)
    (handles : m'.handles = m.handles) : (s.setEndpoint id (.memory m')).Wired := by
  refine ⟨⟨?_, ?_⟩, ?_, ?_⟩
  · intro other e seen
    rw [endpoint?_setEndpoint] at seen
    split at seen
    · cases seen
      exact .inl ⟨_, rfl⟩
    · exact wired.plain.kinds other e seen
  · exact fun other b seen =>
      wired.plain.ordered other b ((endpoint?_setMemory_of_bus found m').1 seen)
  · exact fun other b seen => wired.made other b ((endpoint?_setMemory_of_bus found m').1 seen)
  · intro other b seen n shown
    obtain ⟨h, heard, up⟩ :=
      wired.heard other b ((endpoint?_setMemory_of_bus found m').1 seen) n shown
    exact ⟨h, listens_setMemory found m' handles heard, up⟩

/-- **A memory may change how it is written if its addresses have been withdrawn.** -/
theorem carries_setMemory {s : System} (wired : s.Wired) {id : TargetId} {m : Memory}
    (found : s.world.endpoint? id = some (.memory m)) (m' : Memory)
    (handles : m'.handles = m.handles) {net : Network} (sheds : s.network.Sheds net)
    (clears : ∀ extent, m.extent s.world.storage = some extent → ∀ h ∈ m.handles,
      s.network.Clears h extent net) :
    s.Carries { s.setEndpoint id (.memory m') with network := net } := by
  have rewired := wired_setMemory wired found m' handles
  -- lost is the whole extent of the memory
  refine carries_of_lost wired (rewired.of_links (fun _ => rfl) sheds.links sheds.made) rfl rfl
    sheds (fun _ _ => rfl) ?_
    (fun x o => x = id ∧ ∃ extent, m.extent s.world.storage = some extent ∧ o ∈ extent) ?_ ?_ ?_
  · intro k c _ h heard
    have still := listens_setMemory found m' handles heard
    exact still.of_links (fun _ => rfl) sheds.links
  · exact fun x n seen m' shown a _ =>
      .inr ⟨n, (endpoint?_setMemory_of_bus found _).2 seen, shown⟩
  · intro x mem seen extent whole a inside
    by_cases here : x = id
    · subst here
      rw [found] at seen
      cases seen
      exact .inl ⟨rfl, extent, whole, inside⟩
    · exact .inr ⟨mem, (endpoint?_setEndpoint_of_ne _ _ here).trans seen, rfl, rfl, rfl⟩
  · rintro k c _ h heard cache bound a x o routes ⟨rfl, extent, whole, inside⟩ q p
    refine wired.not_offers_of_clears routes heard inside ?_ bound
    rintro start (⟨n, same, heard⟩ | ⟨b, other, -⟩)
    · rw [found] at same
      cases same
      exact clears extent whole start heard
    · rw [found] at other
      cases other

/-- **What making a memory read-only or writable does:** if that is a change, the memory is replaced
and its windows are withdrawn. -/
theorem setReadOnly_cases {s after : System} {id : TargetId} {readOnly : Bool}
    (changed : s.setReadOnly id readOnly = some after) :
    after = s ∨ ∃ m, s.world.endpoint? id = some (.memory m) ∧
      (s.setEndpoint id (.memory { m with readOnly := readOnly })).withdrawMemory m =
        some after := by
  unfold setReadOnly at changed
  split at changed
  · next m known =>
      split at changed
      · cases changed
        exact .inl rfl
      · exact .inr ⟨m, memory?_eq_some_iff.1 known, changed⟩
  · cases changed
    exact .inl rfl

theorem carries_setReadOnly {s after : System} (wired : s.Wired) {id : TargetId} {readOnly : Bool}
    (changed : s.setReadOnly id readOnly = some after) : s.Carries after := by
  obtain rfl | ⟨m, found, withdrawn⟩ := setReadOnly_cases changed
  · exact .refl wired
  · obtain ⟨net, rfl, sheds, clears⟩ := of_withdrawMemory withdrawn
    exact carries_setMemory wired found { m with readOnly := readOnly } rfl sheds clears

/-! ### Targets that go -/

/-- Whom nobody holds no gate stands before, and no bus shows. -/
theorem not_shown_of_isHeld {s : System} {id : TargetId} (h : s.isHeld id = false) :
    (∀ k c, s.connections.find? k = some c → c.target ≠ id) ∧
      ∀ other b, s.world.endpoint? other = some (.bus b) → ∀ m ∈ b.mappings, m.target ≠ id := by
  simp only [isHeld, isShown, Bool.or_eq_false_iff, List.any_eq_false] at h
  obtain ⟨⟨-, gates⟩, shows⟩ := h
  refine ⟨fun k c connected same => ?_, fun other b seen m shown same => ?_⟩
  · exact gates _ (Table.mem_entries_of_find? connected) (beq_iff_eq.2 same)
  · refine shows _ (Table.mem_entries_of_find? seen) ?_
    simp only [List.any_eq_true]
    exact ⟨m, shown, beq_iff_eq.2 same⟩

/-- An access that is not passed to a target does not come to it. -/
theorem ne_of_routes {w : World Platform} (plain : w.Plain) {gone : TargetId}
    (hidden : ∀ id b, w.endpoint? id = some (.bus b) → ∀ m ∈ b.mappings, m.target ≠ gone)
    {root id : TargetId} {a o : UInt64} (routes : w.Routes root a id o) (other : root ≠ gone) :
    id ≠ gone := by
  induction routes with
  | here => exact other
  | @through id a b m place _ _ bus routed _ ih =>
      obtain ⟨shown, -, -⟩ := (plain.ordered id b bus).route_single_eq_some_iff.1 routed
      exact ih (hidden id b bus m shown)

theorem endpoint?_eraseEndpoint (s : System) (id other : TargetId) :
    (s.eraseEndpoint id).world.endpoint? other =
      if other = id then none else s.world.endpoint? other := by
  simp [eraseEndpoint, World.endpoint?]

/-- **What nobody holds may be taken out:** no access from a gate comes to it. -/
theorem carries_eraseEndpoint {s : System} (wired : s.Wired) {id : TargetId}
    (free : s.isHeld id = false) : s.Carries (s.eraseEndpoint id) := by
  obtain ⟨gates, hidden⟩ := not_shown_of_isHeld free
  have old : ∀ other e, (s.eraseEndpoint id).world.endpoint? other = some e →
      s.world.endpoint? other = some e := by
    intro other e seen
    rw [endpoint?_eraseEndpoint] at seen
    split at seen
    · cases seen
    · exact seen
  have kept : ∀ other, other ≠ id →
      (s.eraseEndpoint id).world.endpoint? other = s.world.endpoint? other := by
    intro other different
    rw [endpoint?_eraseEndpoint, if_neg different]
  have listens : ∀ other, other ≠ id → ∀ h, s.Listens other h →
      (s.eraseEndpoint id).Listens other h := by
    rintro other different h (⟨m, seen, bound⟩ | ⟨b, seen, linked⟩)
    · exact .inl ⟨m, (kept other different).trans seen, bound⟩
    · exact .inr ⟨b, (kept other different).trans seen, linked⟩
  have plain : (s.eraseEndpoint id).world.Plain :=
    ⟨fun other e seen => wired.plain.kinds other e (old other _ seen),
      fun other b seen => wired.plain.ordered other b (old other _ seen)⟩
  have rewired : (s.eraseEndpoint id).Wired := by
    refine ⟨plain, fun other b seen => wired.made other b (old other _ seen), ?_⟩
    intro other b seen m shown
    obtain ⟨h, heard, up⟩ := wired.heard other b (old other _ seen) m shown
    exact ⟨h, listens m.target (hidden other b (old other _ seen) m shown) h heard, up⟩
  -- nothing that is lost can be reached
  refine carries_of_lost wired rewired rfl rfl (.refl _) (fun _ _ => rfl) ?_
    (fun x _ => x = id) ?_ ?_ ?_
  · exact fun k c connected h heard => listens c.target (gates k c connected) h heard
  · intro x b seen m shown a _
    by_cases same : x = id
    · exact .inl same
    · exact .inr ⟨b, (kept x same).trans seen, shown⟩
  · intro x m seen _ _ a _
    by_cases same : x = id
    · exact .inl same
    · exact .inr ⟨m, (kept x same).trans seen, rfl, rfl, rfl⟩
  · intro k c connected h _ cache _ a x o routes same
    exact absurd same (ne_of_routes wired.plain hidden routes (gates k c connected))

/-- **What still holds when a target that nobody holds has gone,** and the targets that it held with
it: whatever survives that one is taken out and that the windows of a memory are withdrawn. -/
theorem collect_induction {P : System → Prop}
    (erase : ∀ {s : System} {id : TargetId}, P s → s.isHeld id = false → P (s.eraseEndpoint id))
    (withdraw : ∀ {s t : System} {m : Memory}, P s → s.withdrawMemory m = some t → P t)
    {rounds : Nat} {id : TargetId} {s t : System} (before : P s)
    (done : collect rounds id s = some t) : P t := by
  induction rounds generalizing id s t with
  | zero =>
      cases done
      exact before
  | succ rounds ih =>
      unfold collect at done
      split at done
      · cases done
        exact before
      · next free =>
          have erased := erase before (Bool.not_eq_true _ ▸ free)
          split at done
          · exact withdraw erased done
          · -- what the bus showed is let go in turn
            exact of_foldlM_eq_some (fun kept gone => ih kept gone) erased done
          · cases done
            exact erased
          · cases done
            exact before

/-- **What nobody holds may go.** -/
theorem carries_release {s t : System} (wired : s.Wired) {id : TargetId}
    (released : s.release id = some t) : s.Carries t := by
  refine collect_induction (P := fun t => s.Carries t) ?_ ?_ (.refl wired) released
  · exact fun carried free => carried.trans (carries_eraseEndpoint carried.wired free)
  · intro u t m carried done
    obtain ⟨net, rfl, sheds, -⟩ := of_withdrawMemory done
    exact carried.trans (carries_of_sheds carried.wired sheds)

theorem carries_unmap {s after : System} (wired : s.Wired) {id : TargetId} {range : AddressRange}
    (unmapped : s.unmap id range = some (.ok (), after)) : s.Carries after := by
  obtain ⟨-, rfl⟩ | ⟨b, m, b', counts, net, found, ended, withdrawn, released⟩ :=
    unmap_cases unmapped
  · exact .refl wired
  · obtain ⟨-, ordered, handle, left⟩ := (wired.plain.ordered id b found).of_unmap_eq_ok ended
    obtain ⟨sheds, clears⟩ := Network.withdrawThrough_spec withdrawn
    have first := carries_erase_mapping wired found ordered handle left sheds
      (handle ▸ clears b'.handle List.mem_cons_self)
    exact first.trans (carries_release first.wired released)

theorem carries_drop {s after : System} (wired : s.Wired) {id : TargetId}
    (dropped : s.drop id = some after) : s.Carries after := by
  have unheld : s.Carries { s with held := s.held.filter fun t => t != id } := ⟨rfl, rfl,
    ⟨wired.plain, wired.made, wired.heard⟩, fun _ => List.Subset.refl _, fun _ h => h,
    fun _ _ _ _ h => h, fun _ _ _ _ h => h, fun _ _ _ _ _ _ _ _ _ _ _ h => h⟩
  exact unheld.trans (carries_release unheld.wired dropped)

/-! ### Changes that return -/

/-- The windows of a memory are taken back where withdrawals end. -/
theorem exists_withdrawMemory {s : System} (ends : ∀ h range, s.network.Ends h range)
    (m : Memory) :
    ∃ t, s.withdrawMemory m = some t ∧ t.network.handles = s.network.handles := by
  obtain ⟨net, withdrawn⟩ := Network.exists_withdrawAll s.network m.handles
    (m.extent s.world.storage).toList fun h _ range _ => ends h range
  exact ⟨_, Option.map_eq_some_iff.2 ⟨net, withdrawn, rfl⟩,
    (Network.withdrawAll_spec withdrawn).1.handles⟩

/-- A target that nobody holds goes where withdrawals end. -/
theorem exists_collect {s : System} (ends : ∀ h range, s.network.Ends h range) (rounds : Nat)
    (id : TargetId) :
    ∃ t, collect rounds id s = some t ∧ t.network.handles = s.network.handles := by
  induction rounds generalizing s id with
  | zero => exact ⟨s, rfl, rfl⟩
  | succ rounds ih =>
      unfold collect
      split
      · exact ⟨s, rfl, rfl⟩
      · split
        · next m _ => exact exists_withdrawMemory (s := s.eraseEndpoint id) ends m
        · next b _ =>
            refine exists_foldlM_eq_some
              (P := fun t : System => t.network.handles = s.network.handles) ?_ b.mappings rfl
            intro t m same
            obtain ⟨next, gone, kept⟩ :=
              ih (s := t) (fun h range => (ends h range).congr same) m.target
            exact ⟨next, gone, kept.trans same⟩
        · exact ⟨_, rfl, rfl⟩
        · exact ⟨s, rfl, rfl⟩

theorem exists_release {s : System} (ends : ∀ h range, s.network.Ends h range) (id : TargetId) :
    ∃ t, s.release id = some t :=
  (exists_collect ends _ id).imp fun _ gone => gone.1

/-- **A call to unmap returns where withdrawals end.** -/
theorem exists_unmap {s : System} (ends : ∀ h range, s.network.Ends h range) (id : TargetId)
    (range : AddressRange) : ∃ outcome, s.unmap id range = some outcome := by
  unfold unmap
  split
  · next b _ =>
      split
      · exact ⟨_, rfl⟩
      · next m b' _ =>
          obtain ⟨⟨counts, net⟩, withdrawn⟩ := Network.exists_withdrawThrough s.network
            [b'.handle] range fun h _ => ends h range
          have handles := (Network.withdrawThrough_spec withdrawn).1.handles
          obtain ⟨t, gone⟩ := exists_release
            (s := { s.setEndpoint id (.bus b') with network := net })
            (fun h range => (ends h range).congr handles) m.target
          have passed : (s.setEndpoint id (.bus b')).withdraw [b'.handle] range =
              some (counts, { s.setEndpoint id (.bus b') with network := net }) :=
            Option.map_eq_some_iff.2 ⟨_, withdrawn, rfl⟩
          exact ⟨(.ok (), t), by simp only [passed, gone, Option.bind_eq_bind, Option.bind_some]⟩
  · exact ⟨_, rfl⟩

/-- A memory can be made read-only or writable where withdrawals end. -/
theorem exists_setReadOnly {s : System} (ends : ∀ h range, s.network.Ends h range) (id : TargetId)
    (readOnly : Bool) : ∃ t, s.setReadOnly id readOnly = some t := by
  unfold setReadOnly
  split
  · next m _ =>
      split
      · exact ⟨s, rfl⟩
      · obtain ⟨t, withdrawn, -⟩ := exists_withdrawMemory
          (s := s.setEndpoint id (.memory { m with readOnly := readOnly })) ends m
        exact ⟨t, withdrawn⟩
  · exact ⟨s, rfl⟩

/-- A target can be let go where withdrawals end. -/
theorem exists_drop {s : System} (ends : ∀ h range, s.network.Ends h range) (id : TargetId) :
    ∃ t, s.drop id = some t :=
  exists_release (s := { s with held := s.held.filter fun t => t != id }) ends id

/-! ### All changes -/

/-- **Whatever a user does with memories and buses keeps what the gates need.** -/
theorem carries_of_targetStep {s t : System} (wired : s.Wired) (step : TargetStep s t) :
    s.Carries t := by
  cases step with
  | newMemory bytes readOnly discardWrites poison =>
      exact carries_newMemory wired bytes readOnly discardWrites poison
  | newBus => exact carries_newBus wired
  | map id range offset target known _ mapped => exact carries_map wired known mapped
  | unmap id range _ unmapped => exact carries_unmap wired unmapped
  | setReadOnly id readOnly _ changed => exact carries_setReadOnly wired changed
  | load id offset bytes _ loaded => exact carries_loadMemory wired loaded
  | reset id => exact carries_resetMemory wired id
  | drop id _ dropped => exact carries_drop wired dropped

end System

end Interconnect
