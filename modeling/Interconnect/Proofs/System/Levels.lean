import Interconnect.Proofs.System.Coherence

/-!
# Buses in levels

A withdrawal that goes round a circle of handles never returns.  Where every bus only ever shows
targets of a deeper level than its own, handles pass withdrawals on from deeper levels to higher
ones only.  So every withdrawal ends, and every change of the targets returns.

## Main Definitions

* `System.Descends` — all buses show targets of deeper levels
* `System.Layered` — the handles pass withdrawals on from deeper levels to higher ones
* `System.ReachableDescending` — the states that follow if all buses descend all the time

## Main Statements

* `Layered.ends` — in a layered system every withdrawal ends
* `ReachableDescending.ends` — and so it is throughout a run in which all buses descend
* `ReachableDescending.backed_and_returns` — no window is stale there, and every change returns

### A level for every handle

The handle of a bus of level `n` has the height `2 * n + 1`, that of a mapping on it `2 * n + 2`,
and that of a gate `0`.  Handles of mappings that have ended keep their links, so the levels must be
the same throughout the run: a bus that shows another and is later shown by it leaves handles that
pass withdrawals on in a circle.
-/

namespace Interconnect

namespace System

/-- **Every bus shows targets of deeper levels only.** -/
def Descends (level : TargetId → Nat) (s : System) : Prop :=
  ∀ id b, s.world.endpoint? id = some (.bus b) → ∀ m ∈ b.mappings, level id < level m.target

/-- **The handles have heights, and pass withdrawals on downwards.** -/
structure Layered (level : TargetId → Nat) (s : System) (height : HandleId → Nat) : Prop where
  /-- Links lead down. -/
  descent : ∀ h, ∀ link ∈ (s.network.handle h).links, height link.listener < height h
  /-- Links lead to handles that have been made. -/
  made : ∀ h, ∀ link ∈ (s.network.handle h).links, s.network.HasHandle link.listener
  /-- The height of a bus is given by its level. -/
  buses : ∀ id b, s.world.endpoint? id = some (.bus b) → height b.handle = 2 * level id + 1

namespace Layered

variable {level : TargetId → Nat} {height : HandleId → Nat} {s t : System}

/-- **In a layered system every withdrawal ends.** -/
theorem ends (h : s.Layered level height) (id : HandleId) (range : AddressRange) :
    s.network.Ends id range :=
  Network.ends_of_descent height h.descent id range

/-- Where no link and no bus is new, nothing changes. -/
theorem of_links (h : s.Layered level height)
    (links : ∀ h, (t.network.handle h).links = (s.network.handle h).links)
    (made : ∀ h, s.network.HasHandle h → t.network.HasHandle h)
    (buses : ∀ id b, t.world.endpoint? id = some (.bus b) → ∃ b',
      s.world.endpoint? id = some (.bus b') ∧ b'.handle = b.handle) : t.Layered level height where
  descent := fun id link member => h.descent id link (links id ▸ member)
  made := fun id link member => made _ (h.made id link (links id ▸ member))
  buses := by
    intro id b found
    obtain ⟨b', found', same⟩ := buses id b found
    rw [← same]
    exact h.buses id b' found'

/-- **A new handle may have any height above those that it passes withdrawals on to.** -/
theorem of_fresh (h : s.Layered level height) (wired : s.Wired) {net : Network} {new : List Link}
    (n : Nat)
    (links : ∀ id, (net.handle id).links =
      if id = s.network.handles.fresh then new else (s.network.handle id).links)
    (made : ∀ id, s.network.HasHandle id → net.HasHandle id)
    (below : ∀ link ∈ new, s.network.HasHandle link.listener ∧ height link.listener < n) :
    ({ s with network := net } : System).Layered level
      (Function.update height s.network.handles.fresh n) := by
  -- no handle that has been made is given another height
  have old : ∀ id, s.network.HasHandle id →
      Function.update height s.network.handles.fresh n id = height id := by
    intro id known
    refine Function.update_of_ne (fun same => ?_) _ _
    exact s.network.not_hasHandle_fresh (same ▸ known)
  refine ⟨?_, ?_, ?_⟩
  · intro id link member
    have member : link ∈ (net.handle id).links := member
    rw [links] at member
    split at member
    · next same =>
        obtain ⟨known, lower⟩ := below link member
        rw [old _ known, same, Function.update_self]
        exact lower
    · next other =>
        rw [old _ (h.made id link member), Function.update_of_ne other]
        exact h.descent id link member
  · intro id link member
    have member : link ∈ (net.handle id).links := member
    rw [links] at member
    split at member
    · exact made _ (below link member).1
    · exact made _ (h.made id link member)
  · intro id b found
    rw [old _ (wired.made id b found)]
    exact h.buses id b found

/-- The same where nothing else about the handles changes. -/
theorem setHandle_fresh (h : s.Layered level height) (wired : s.Wired) (new : Handle) (n : Nat)
    (below : ∀ link ∈ new.links, s.network.HasHandle link.listener ∧ height link.listener < n) :
    ({ s with network := s.network.setHandle s.network.handles.fresh new } : System).Layered level
      (Function.update height s.network.handles.fresh n) := by
  refine h.of_fresh wired n (fun id => ?_) (fun _ => Network.hasHandle_setHandle) below
  rw [Network.handle_setHandle]
  split
  · rfl
  · rfl

/-- **A handle may be attached to a target that lies above it.** -/
theorem attach (h : s.Layered level height) (wired : s.Wired) {id : TargetId} {handle : HandleId}
    (known : s.network.HasHandle handle)
    (above : ∀ b, s.world.endpoint? id = some (.bus b) → height handle < 2 * level id + 1) :
    (s.attach id handle).Layered level height := by
  rcases attach_cases wired id handle with ⟨m, found, attached⟩ | ⟨b, found, attached⟩ |
    ⟨-, attached⟩
  · refine h.of_links (fun _ => by rw [attached]; rfl) (fun _ old => by rw [attached]; exact old) ?_
    exact fun other b seen => ⟨b, (endpoint?_attach_of_bus wired id handle).1 seen, rfl⟩
  · rw [attached]
    refine ⟨?_, ?_, h.buses⟩
    · intro other link member
      rcases Network.mem_links_forward_iff.1 member with old | ⟨rfl, -, rfl⟩
      · exact h.descent other link old
      · exact (above b found).trans_eq (h.buses id b found).symm
    · intro other link member
      rcases Network.mem_links_forward_iff.1 member with old | ⟨rfl, -, rfl⟩
      · exact Network.hasHandle_forward (h.made other link old)
      · exact Network.hasHandle_forward known
  · rw [attached]
    exact h

/-- Where no handle has changed and no bus is new, nothing changes. -/
theorem of_handles (h : s.Layered level height) (same : t.network.handles = s.network.handles)
    (buses : ∀ id b, t.world.endpoint? id = some (.bus b) → ∃ b',
      s.world.endpoint? id = some (.bus b') ∧ b'.handle = b.handle) : t.Layered level height := by
  refine h.of_links (fun id => ?_) (fun id known => ?_) buses
  · rw [Network.handle_of_handles_eq same]
  · rw [Network.HasHandle, same]
    exact known

/-! ### What a user does with the targets -/

/-- A memory over a new block. -/
theorem allocate_memory (h : s.Layered level height) (bytes : Bytes) (m : Memory) :
    ((s.allocate bytes).2.addEndpoint (.memory m)).2.Layered level height := by
  refine h.of_handles rfl fun id b found => ⟨b, ?_, rfl⟩
  rw [endpoint?_addEndpoint] at found
  split at found
  · cases found
  · exact found

theorem newBus (h : s.Layered level height) (wired : s.Wired) :
    ∃ height, s.newBus.2.Layered level height := by
  have made := h.setHandle_fresh wired ⟨[], []⟩ (2 * level s.world.state.endpoints.fresh + 1)
    fun _ absent => absurd absent List.not_mem_nil
  refine ⟨_, made.descent, made.made, fun id b found => ?_⟩
  have seen := (endpoint?_addEndpoint _ _ id).symm.trans found
  split at seen
  · next same =>
      cases seen
      rw [same]
      exact Function.update_self _ _ _
  · exact made.buses id b seen

/-- A bus may change what it shows, and caches may lose windows. -/
theorem setBus (h : s.Layered level height) {id : TargetId} {b : Bus}
    (found : s.world.endpoint? id = some (.bus b)) (b' : Bus) (handle : b'.handle = b.handle)
    {net : Network} (handles : net.handles = s.network.handles) :
    ({ s.setEndpoint id (.bus b') with network := net } : System).Layered level height := by
  refine h.of_handles handles fun other n seen => ?_
  have seen := (endpoint?_setEndpoint _ _ _ other).symm.trans seen
  split at seen
  · next same =>
      cases seen
      exact ⟨b, same ▸ found, handle.symm⟩
  · exact ⟨n, seen, rfl⟩

theorem map (h : s.Layered level height) (wired : s.Wired) {id : TargetId} {range : AddressRange}
    {offset : UInt64} {target : TargetId} (mapped : s.map id range offset target = (.ok (), t))
    (descends : t.Descends level) : ∃ height, t.Layered level height := by
  obtain ⟨-, rfl⟩ | ⟨b, m, b', found, made, rfl⟩ := map_cases mapped
  · exact ⟨height, h⟩
  · obtain ⟨⟨-, -, same⟩, -, handle, shows⟩ :=
      (wired.plain.ordered id b found).of_map_eq_ok made
    have deeper : level id < level target :=
      same ▸ descends id b' (endpoint?_setEndpoint_self _ _ _) m ((shows m).2 (.inl rfl))
    -- the handle of the mapping lies between the bus and what it shows
    have first := h.setHandle_fresh wired ⟨[], [⟨b'.handle, some m.rebase⟩]⟩ (2 * level id + 2) (by
      intro link member
      cases List.mem_singleton.1 member
      rw [handle]
      exact ⟨wired.made id b found, by rw [h.buses id b found]; omega⟩)
    have wiredFirst := (grows_setHandle_fresh s ⟨[], [⟨b'.handle, some m.rebase⟩]⟩).wired_of_state
      wired rfl
    have below : Function.update height s.network.handles.fresh (2 * level id + 2)
        s.network.handles.fresh < 2 * level target + 1 := by
      rw [Function.update_self]
      omega
    have second := first.attach wiredFirst Network.hasHandle_setHandle_self
      fun n (_ : s.world.endpoint? target = some (.bus n)) => below
    have seen := (endpoint?_attach_of_bus wiredFirst target s.network.handles.fresh).2 found
    exact ⟨_, second.setBus seen b' handle rfl⟩

end Layered

/-- Targets that go take no handle with them. -/
theorem of_release {s t : System} {id : TargetId} (released : s.release id = some t) :
    t.network.handles = s.network.handles ∧
      ∀ other e, t.world.endpoint? other = some e → s.world.endpoint? other = some e := by
  refine collect_induction (P := fun t : System => t.network.handles = s.network.handles ∧
    ∀ other e, t.world.endpoint? other = some e → s.world.endpoint? other = some e) ?_ ?_
    ⟨rfl, fun _ _ seen => seen⟩ released
  · rintro u gone ⟨handles, old⟩ -
    refine ⟨handles, fun other e seen => ?_⟩
    rw [endpoint?_eraseEndpoint] at seen
    split at seen
    · cases seen
    · exact old other e seen
  · rintro u v m ⟨handles, old⟩ done
    obtain ⟨net, rfl, sheds, -⟩ := of_withdrawMemory done
    exact ⟨sheds.handles.trans handles, old⟩

namespace Layered

variable {level : TargetId → Nat} {height : HandleId → Nat} {s t : System}

theorem release (h : s.Layered level height) {id : TargetId} (released : s.release id = some t) :
    t.Layered level height := by
  obtain ⟨handles, old⟩ := of_release released
  exact h.of_handles handles fun other b seen => ⟨b, old other _ seen, rfl⟩

theorem unmap (h : s.Layered level height) (wired : s.Wired) {id : TargetId} {range : AddressRange}
    (unmapped : s.unmap id range = some (.ok (), t)) : t.Layered level height := by
  obtain ⟨-, rfl⟩ | ⟨b, m, b', counts, net, found, ended, withdrawn, released⟩ :=
    unmap_cases unmapped
  · exact h
  · obtain ⟨-, -, handle, -⟩ := (wired.plain.ordered id b found).of_unmap_eq_ok ended
    have handles := (Network.withdrawThrough_spec withdrawn).1.handles
    exact (h.setBus found b' handle handles).release released

theorem setReadOnly (h : s.Layered level height) {id : TargetId} {readOnly : Bool}
    (changed : s.setReadOnly id readOnly = some t) : t.Layered level height := by
  obtain rfl | ⟨m, found, withdrawn⟩ := setReadOnly_cases changed
  · exact h
  · obtain ⟨net, rfl, sheds, -⟩ := of_withdrawMemory withdrawn
    exact h.of_handles sheds.handles fun other b seen =>
      ⟨b, (endpoint?_setMemory_of_bus found _).1 seen, rfl⟩

/-- **The heights are kept, or a new handle is given one,** as long as all buses descend. -/
theorem targetStep (h : s.Layered level height) (wired : s.Wired) (step : TargetStep s t)
    (descends : t.Descends level) : ∃ height, t.Layered level height := by
  cases step with
  | newMemory => exact ⟨height, h.allocate_memory _ _⟩
  | newBus => exact h.newBus wired
  | map id range offset target _ _ mapped => exact h.map wired mapped descends
  | unmap id range _ unmapped => exact ⟨height, h.unmap wired unmapped⟩
  | setReadOnly id readOnly _ changed => exact ⟨height, h.setReadOnly changed⟩
  | load id offset bytes _ loaded =>
      unfold loadMemory at loaded
      split at loaded
      · obtain ⟨storage, -, rfl⟩ := map_eq_ok_iff.1 loaded
        exact ⟨height, h.of_handles rfl fun _ b seen => ⟨b, seen, rfl⟩⟩
      · cases loaded
        exact ⟨height, h⟩
  | reset id =>
      unfold resetMemory
      split
      · exact ⟨height, h.of_handles rfl fun _ b seen => ⟨b, seen, rfl⟩⟩
      · exact ⟨height, h⟩
  | drop id _ dropped =>
      have unheld : ({ s with held := s.held.filter fun t => t != id } : System).Layered level
        height := h.of_handles rfl fun _ b seen => ⟨b, seen, rfl⟩
      exact ⟨height, unheld.release dropped⟩

/-! ### What a gate does -/

/-- The handle of a new gate passes nothing on. -/
theorem openGate (h : s.Layered level height) (wired : s.Wired) (root : TargetId)
    (config : GateConfig) (frequency : Option UInt64) :
    ∃ height, (s.openGate root config frequency).2.Layered level height := by
  have linked : ∀ handle, ((Gate.create config s.network).2.handle handle).links =
      if handle = s.network.handles.fresh then [] else (s.network.handle handle).links := by
    intro handle
    rw [Gate.handle_create, Gate.handle_create_eq]
    split
    · rfl
    · rfl
  have first := h.of_fresh wired 0 linked (fun _ => Gate.hasHandle_create)
    fun _ absent => absurd absent List.not_mem_nil
  obtain ⟨caches, links⟩ := grows_handles_create s config
  have wiredFirst : ({ s with network := (Gate.create config s.network).2 } : System).Wired :=
    wired.of_links (fun _ => rfl) links fun _ => Gate.hasHandle_create
  -- the handle of the gate is below every bus
  have lowest : ∀ n, Function.update height s.network.handles.fresh 0
      (Gate.create config s.network).1.handle < 2 * n + 1 := by
    intro n
    rw [Gate.handle_create_eq, Function.update_self]
    omega
  have known : (Gate.create config s.network).2.HasHandle (Gate.create config s.network).1.handle :=
    Network.hasHandle_bind Network.hasHandle_setHandle_self
  have second := first.attach wiredFirst known
    fun b (_ : s.world.endpoint? root = some (.bus b)) => lowest (level root)
  unfold System.openGate
  dsimp only
  split
  · exact ⟨_, second⟩
  · exact ⟨_, second.of_handles rfl fun _ b seen => ⟨b, seen, rfl⟩⟩

/-- **A gate and its initiators pass no further withdrawals on.** -/
theorem portStep {root : TargetId} {config : GateConfig} {id : GateId} {c : Connection}
    (h : s.Layered level height) (coherent : Coherent root config id s c) (step : PortStep id s t)
    (descends : t.Descends level) : ∃ height, t.Layered level height := by
  rcases coherent.step_cases step with step | ⟨net, initiators, rfl, handles, -, -⟩ |
    ⟨after, rfl, settled, -, backed⟩
  · exact h.targetStep coherent.wired step descends
  · exact ⟨height, h.of_handles handles fun _ b seen => ⟨b, seen, rfl⟩⟩
  · refine ⟨height, h.of_links settled.links settled.made fun other b seen => ⟨b, ?_, rfl⟩⟩
    exact (backed.alike.endpoint? other).symm.trans seen

end Layered

/-- In an empty system there is nothing to pass on. -/
theorem layered_empty (level : TargetId → Nat) : empty.Layered level fun _ => 0 where
  descent := fun _ _ absent => absurd absent List.not_mem_nil
  made := fun _ _ absent => absurd absent List.not_mem_nil
  buses := fun _ _ found => by cases found

/-- What is built before there is a gate. -/
theorem exists_layered_of_targetSteps {level : TargetId → Nat} {s : System}
    (built : Relation.ReflTransGen (fun s t => TargetStep s t ∧ t.Descends level) empty s) :
    ∃ height, s.Layered level height := by
  induction built with
  | refl => exact ⟨_, layered_empty level⟩
  | tail built step ih =>
      obtain ⟨height, layered⟩ := ih
      have plain : Relation.ReflTransGen TargetStep empty _ := built.lift _ fun _ _ step => step.1
      exact layered.targetStep (carries_of_targetSteps wired_empty plain).wired step.1 step.2

/-- **The states that a system can come to** after a gate to `root` has been opened in it, if all
buses descend all the time. -/
def ReachableDescending (level : TargetId → Nat) (root : TargetId) (config : GateConfig)
    (id : GateId) (s : System) : Prop :=
  ∃ before frequency opened,
    Relation.ReflTransGen (fun s t => TargetStep s t ∧ t.Descends level) empty before ∧
      before.HasTarget root ∧ before.openGate root config frequency = (.ok id, opened) ∧
      Relation.ReflTransGen (fun s t => PortStep id s t ∧ t.Descends level) opened s

namespace ReachableDescending

variable {level : TargetId → Nat} {root : TargetId} {config : GateConfig} {id : GateId} {s : System}

theorem reachable (h : ReachableDescending level root config id s) :
    Reachable root config id s := by
  obtain ⟨before, frequency, opened, built, known, gate, steps⟩ := h
  exact ⟨opened, ⟨before, frequency, built.lift _ fun _ _ step => step.1, known, gate⟩,
    steps.lift _ fun _ _ step => step.1⟩

/-- **Every withdrawal ends,** whatever is done to the targets and at the gate. -/
theorem ends (h : ReachableDescending level root config id s) (handle : HandleId)
    (range : AddressRange) : s.network.Ends handle range := by
  obtain ⟨before, frequency, opened, built, known, gate, steps⟩ := h
  have layered : ∃ height, s.Layered level height := by
    induction steps with
    | refl =>
        have plain : Relation.ReflTransGen TargetStep empty before :=
          built.lift _ fun _ _ step => step.1
        obtain ⟨height, layered⟩ := exists_layered_of_targetSteps built
        have after := layered.openGate (carries_of_targetSteps wired_empty plain).wired root config
          frequency
        rwa [gate] at after
    | tail steps step ih =>
        obtain ⟨height, layered⟩ := ih
        have run : ReachableDescending level root config id _ :=
          ⟨before, frequency, opened, built, known, gate, steps⟩
        obtain ⟨c, coherent⟩ := coherent_of_reachable run.reachable
        exact layered.portStep coherent step.1 step.2
  obtain ⟨height, layered⟩ := layered
  exact layered.ends handle range

/-- **Where all buses descend, every change of the targets returns and no cached window is stale:**
an address of a window in the cache of an initiator or of the gate is backed by a memory as the
buses show it now. -/
theorem backed_and_returns (h : ReachableDescending level root config id s) :
    ((∀ x range, ∃ outcome, s.unmap x range = some outcome) ∧
      (∀ x readOnly, ∃ t, s.setReadOnly x readOnly = some t) ∧ ∀ x, ∃ t, s.drop x = some t) ∧
    ∀ connection, s.connections.find? id = some connection → ∀ cache,
      cache = connection.gate.grants ∨ cache ∈ s.users →
        ∀ w ∈ (s.network.cache cache).windows, ∀ a ∈ w.range,
          s.world.Backs root a w.permission (w.pointerFor a) :=
  ⟨⟨exists_unmap h.ends, exists_setReadOnly h.ends, exists_drop h.ends⟩,
    fun _ connected _ held _ cached _ inside =>
      backed_of_reachable h.reachable connected held cached inside⟩

end ReachableDescending

end System

end Interconnect
