import Interconnect.Proofs.Pci.Bridge
import Interconnect.Proofs.System.Hosts
import Interconnect.Proofs.System.Loss
import Interconnect.Proofs.Withdrawal.Relay

/-!
# What every change keeps

Whatever happens in a system of targets of all kinds, a target keeps the handles that it was given,
a bus changes only when it is told to, and the handles that relay withdrawals go on relaying.

## Main Definitions

* `Endpoint.Keeps`, `World.Keeps` — targets that have kept their handles, buses that are the same
* `System.Keeps` — a change after which that holds of a whole system

## Main Statements

* `Platform.confined_keeps` — an access keeps the targets, whichever target it is made to
* `Station.retains_of_effects` — what a gate does leaves the relays as they are
* `System.keeps_addEndpoint`, `keeps_attach`, `keeps_putStation`, `keeps_openGate` — the changes of
  which a user's steps are made
-/

namespace Interconnect

/-! ### Targets -/

/-- **A target that has kept its handles.**  It may have been given more; a bus, which has none of
its own, is the same. -/
inductive Endpoint.Keeps : Endpoint → Endpoint → Prop
  /-- A memory. -/
  | memory {m m' : Memory} (handles : m.handles ⊆ m'.handles) : Keeps (.memory m) (.memory m')
  /-- A sink. -/
  | sink (t t' : Sink) : Keeps (.sink t) (.sink t')
  /-- A scripted target. -/
  | scripted {t t' : Scripted} (handles : t.handles ⊆ t'.handles) :
      Keeps (.scripted t) (.scripted t')
  /-- A bus. -/
  | bus (b : Bus) : Keeps (.bus b) (.bus b)
  /-- A PCI host. -/
  | host {h h' : Pci.Host} (handles : h.handles ⊆ h'.handles) : Keeps (.host h) (.host h')

namespace Endpoint.Keeps

variable {e f g : Endpoint}

theorem refl (e : Endpoint) : e.Keeps e := by
  cases e with
  | memory m => exact .memory (List.Subset.refl _)
  | sink t => exact .sink t t
  | scripted t => exact .scripted (List.Subset.refl _)
  | bus b => exact .bus b
  | host h => exact .host (List.Subset.refl _)

theorem trans (first : e.Keeps f) (second : f.Keeps g) : e.Keeps g := by
  cases first with
  | memory handles =>
      cases second with
      | memory handles' => exact .memory (List.Subset.trans handles handles')
  | sink t t' =>
      cases second with
      | sink => exact .sink _ _
  | scripted handles =>
      cases second with
      | scripted handles' => exact .scripted (List.Subset.trans handles handles')
  | bus b => exact second
  | host handles =>
      cases second with
      | host handles' => exact .host (List.Subset.trans handles handles')

end Endpoint.Keeps

namespace World

/-- **The targets are there as before,** with the handles that they had, and there is no new bus. -/
structure Keeps (w v : World Platform) : Prop where
  /-- The targets are still there. -/
  endpoints : ∀ id e, w.endpoint? id = some e → ∃ f, v.endpoint? id = some f ∧ e.Keeps f
  /-- A bus was there before. -/
  buses : ∀ id b, v.endpoint? id = some (.bus b) → w.endpoint? id = some (.bus b)

namespace Keeps

variable {w v u : World Platform}

theorem of_endpoints (same : ∀ id, v.endpoint? id = w.endpoint? id) : w.Keeps v :=
  ⟨fun id e found => ⟨e, (same id).trans found, .refl e⟩,
    fun id _ found => (same id).symm.trans found⟩

theorem refl (w : World Platform) : w.Keeps w := of_endpoints fun _ => rfl

theorem trans (first : w.Keeps v) (second : v.Keeps u) : w.Keeps u where
  endpoints := by
    intro id e found
    obtain ⟨f, found', kept⟩ := first.endpoints id e found
    obtain ⟨g, found'', kept'⟩ := second.endpoints id f found'
    exact ⟨g, found'', kept.trans kept'⟩
  buses := fun id b found => first.buses id b (second.buses id b found)

/-- A target may be replaced by one that has kept its handles. -/
theorem setEndpoint {id : TargetId} {e f : Endpoint} (found : w.endpoint? id = some e)
    (kept : e.Keeps f) : w.Keeps (w.setEndpoint id f) := by
  have seen : ∀ other, (w.setEndpoint id f).endpoint? other =
      if other = id then some f else w.endpoint? other := fun other => by
    simp [World.setEndpoint, World.endpoint?]
  refine ⟨fun other e' found' => ?_, fun other b found' => ?_⟩
  · by_cases same : other = id
    · subst same
      cases Option.some.inj (found.symm.trans found')
      exact ⟨f, (seen other).trans (if_pos rfl), kept⟩
    · exact ⟨e', (seen other).trans ((if_neg same).trans found'), .refl e'⟩
  · rw [seen] at found'
    split at found'
    · next same =>
        subst same
        cases found'
        cases kept
        exact found
    · exact found'

end Keeps

end World

/-! ### Accesses -/

namespace Platform

variable {base w : World Platform} {targets : TargetId → Target Platform}

/-- A device changes nothing but itself and storage. -/
theorem endpoint?_device (a : Pci.Attachment) (p : Pci.Payload) (w : World Platform)
    (id : TargetId) : ((device a).access p w).2.endpoint? id = w.endpoint? id := by
  have plain : ((deviceWithId a.device).access p w).2.endpoint? id = w.endpoint? id := by
    simp only [deviceWithId]
    split <;> rfl
  unfold device
  split
  · exact plain
  · exact plain

theorem endpoint?_window_device (a : Pci.Attachment) (bar : UInt8) (range : AddressRange)
    (w : World Platform) (id : TargetId) :
    ((device a).window bar range w).2.endpoint? id = w.endpoint? id := by
  unfold device
  split <;> rfl

theorem endpoint?_perform (h : Pci.Host) (p : Pci.Payload) (w : World Platform) (id : TargetId) :
    (h.perform device p w).2.endpoint? id = w.endpoint? id := by
  unfold Pci.Host.perform
  split
  · rfl
  · exact endpoint?_device _ _ w id

theorem endpoint?_window_host (h : Pci.Host) (range : AddressRange) (attributes : Attributes)
    (w : World Platform) (id : TargetId) :
    (h.window device range attributes w).2.endpoint? id = w.endpoint? id := by
  unfold Pci.Host.window
  split
  · rfl
  · split
    · rfl
    · split
      · exact endpoint?_window_device _ _ _ w id
      · rfl

/-- **A target keeps the targets if those behind it do.** -/
theorem confined_answering
    (behind : ∀ other, (targets other).Confined base.Keeps fun _ _ _ => True) (id : TargetId) :
    (answering targets id).Confined base.Keeps fun _ _ _ => True where
  read := by
    intro range attributes buffer w kept
    simp only [answering]
    split
    · exact kept
    · next t found => exact kept.trans (.setEndpoint found (.sink _ _))
    · exact kept
    · simp only [BusOver.target]
      split
      · exact (behind _).read _ _ _ w kept
      · exact kept
    · simp only [Pci.Host.target]
      split
      · exact kept
      · exact kept.trans (.of_endpoints (endpoint?_perform _ _ w))
    · exact kept
  write := by
    intro range attributes data w kept
    simp only [answering]
    split
    · exact kept.trans (.of_endpoints fun _ => rfl)
    · next t found => exact kept.trans (.setEndpoint found (.sink _ _))
    · exact kept.trans (.of_endpoints fun _ => rfl)
    · simp only [BusOver.target]
      split
      · exact (behind _).write _ _ _ w kept
      · exact kept
    · simp only [Pci.Host.target]
      split
      · exact kept
      · exact kept.trans (.of_endpoints (endpoint?_perform _ _ w))
    · exact kept
  window := by
    intro range attributes w kept
    simp only [answering]
    split
    · exact kept
    · exact kept
    · next t found =>
        refine kept.trans (.setEndpoint found (.scripted ?_))
        simp [Scripted.window]
    · simp only [BusOver.target]
      split
      · exact (behind _).window _ _ w kept
      · exact kept
    · exact kept.trans (.of_endpoints (endpoint?_window_host _ _ _ w))
    · exact kept
  store := fun _ _ _ kept => kept.trans (.of_endpoints fun _ => rfl)
  offered := fun _ _ _ _ _ _ _ _ _ _ _ => trivial

/-- **An access keeps the targets,** whichever target it is made to. -/
theorem confined_keeps (base : World Platform) (depth : Nat) (id : TargetId) :
    (target depth id).Confined base.Keeps fun _ _ _ => True := by
  induction depth generalizing id with
  | zero =>
      exact ⟨fun _ _ _ _ kept => kept, fun _ _ _ _ kept => kept, fun _ _ _ kept => kept,
        fun _ _ _ kept => kept.trans (.of_endpoints fun _ => rfl),
        fun _ _ _ _ _ _ _ _ _ _ _ => trivial⟩
  | succ depth ih => exact confined_answering ih id

end Platform

/-! ### What a gate does -/

namespace Station

variable {σ : Type} {T : Target σ} {users : Set CacheId} {s t : Station σ}

theorem retains_of_effect (plain : s.network.Plain s.gate.handle) (step : Effect T users s t) :
    s.network.Retains t.network := by
  cases step with
  | read => exact .refl _
  | write => exact .refl _
  | store => exact .refl _
  | charge => exact .refl _
  | withdraw _ range count ended =>
      obtain ⟨net, rfl, sheds, -⟩ := exists_of_withdraw ended
      exact .of_handles sheds.handles
  | release => exact .refl _
  | reserve => exact .refl _
  | grant access => exact .of_handles (handles_grant T access s)
  | search => exact .of_handles rfl
  | keep i member access mode =>
      have granted : s.network.Retains (s.grant T access).2.network :=
        .of_handles (handles_grant T access s)
      unfold Initiator.keep
      split
      · exact granted
      · split
        · -- the cache is bound to the handle of the gate
          have plain' : (s.grant T access).2.network.Plain (s.grant T access).2.gate.handle := by
            rw [gate_grant]
            exact granted.plain _ plain
          exact (granted.trans (Network.retains_bind plain' i.cache)).trans (.of_handles rfl)
        · exact granted

/-- **What a gate does leaves the relays as they are.** -/
theorem retains_of_effects (plain : s.network.Plain s.gate.handle) (steps : Effects T users s t) :
    s.network.Retains t.network := by
  induction steps with
  | refl => exact .refl _
  | tail before step ih =>
      refine ih.trans (retains_of_effect ?_ step)
      rw [(settled_of_effects before).handle]
      exact ih.plain _ plain

end Station

/-! ### Systems -/

namespace System

/-- **A change that leaves the relays, the targets and the buses as they were.**  There may be new
targets, buses that show nothing yet and gates. -/
structure Keeps (s t : System) : Prop where
  /-- The relays are as before. -/
  network : s.network.Retains t.network
  /-- The targets are still there. -/
  endpoints : ∀ id e, s.world.endpoint? id = some e →
    ∃ f, t.world.endpoint? id = some f ∧ e.Keeps f
  /-- A bus was there before, or shows nothing. -/
  buses : ∀ id b, t.world.endpoint? id = some (.bus b) →
    s.world.endpoint? id = some (.bus b) ∨ b.mappings = [] ∧ t.network.Plain b.handle
  /-- The handle of a gate was that of a gate before, or is new. -/
  gates : ∀ k c, t.connections.find? k = some c →
    (∃ l d, s.connections.find? l = some d ∧ d.gate.handle = c.gate.handle) ∨
      t.network.Plain c.gate.handle

namespace Keeps

variable {s t u : System}

/-- Only the relays and the targets count. -/
theorem of_parts (network : s.network.Retains t.network) (world : s.world.Keeps t.world)
    (connections : t.connections = s.connections) : s.Keeps t where
  network := network
  endpoints := world.endpoints
  buses := fun id b found => .inl (world.buses id b found)
  gates := fun k c found => .inl ⟨k, c, connections ▸ found, rfl⟩

theorem refl (s : System) : s.Keeps s := of_parts (.refl _) (.refl _) rfl

theorem trans (first : s.Keeps t) (second : t.Keeps u) : s.Keeps u where
  network := first.network.trans second.network
  endpoints := by
    intro id e found
    obtain ⟨f, found', kept⟩ := first.endpoints id e found
    obtain ⟨g, found'', kept'⟩ := second.endpoints id f found'
    exact ⟨g, found'', kept.trans kept'⟩
  buses := by
    intro id b found
    rcases second.buses id b found with before | new
    · exact (first.buses id b before).imp_right fun new => ⟨new.1, second.network.plain _ new.2⟩
    · exact .inr new
  gates := by
    intro k c found
    rcases second.gates k c found with ⟨l, d, before, same⟩ | new
    · rcases first.gates l d before with ⟨l', d', before', same'⟩ | new
      · exact .inl ⟨l', d', before', same'.trans same⟩
      · exact .inr (same ▸ second.network.plain _ new)
    · exact .inr new

end Keeps

variable {s : System}

/-- A withdrawal changes caches only. -/
theorem keeps_of_sheds {net : Network} (sheds : s.network.Sheds net) :
    s.Keeps { s with network := net } :=
  .of_parts (.of_handles sheds.handles) (.refl _) rfl

theorem keeps_withdraw {handles : List HandleId} {range : AddressRange}
    {outcome : List Nat × System} (done : s.withdraw handles range = some outcome) :
    s.Keeps outcome.2 := by
  obtain ⟨⟨counts, net⟩, withdrawn, rfl⟩ := Option.map_eq_some_iff.1 done
  exact keeps_of_sheds (Network.withdrawThrough_spec withdrawn).1

theorem keeps_withdrawMemory {t : System} {m : Memory} (done : s.withdrawMemory m = some t) :
    s.Keeps t := by
  obtain ⟨net, rfl, sheds, -⟩ := of_withdrawMemory done
  exact keeps_of_sheds sheds

/-- Another world that has kept the targets. -/
theorem keeps_setWorld {world : World Platform} (kept : s.world.Keeps world) :
    s.Keeps { s with world := world } :=
  .of_parts (.refl _) kept rfl

theorem keeps_setEndpoint {id : TargetId} {e f : Endpoint} (found : s.world.endpoint? id = some e)
    (kept : e.Keeps f) : s.Keeps (s.setEndpoint id f) :=
  keeps_setWorld (.setEndpoint found kept)

theorem keeps_allocate (s : System) (bytes : Bytes) : s.Keeps (s.allocate bytes).2 :=
  keeps_setWorld (.of_endpoints fun _ => rfl)

/-- **A new target stands where none stood.**  If it is a bus, it shows nothing yet. -/
theorem keeps_addEndpoint (s : System) (e : Endpoint)
    (hollow : ∀ b, e = .bus b → b.mappings = [] ∧ s.network.Plain b.handle) :
    s.Keeps (s.addEndpoint e).2 := by
  have seen := endpoint?_addEndpoint s e
  refine ⟨.refl _, fun id f found => ⟨f, ?_, .refl f⟩, fun id b found => ?_,
    fun k c found => .inl ⟨k, c, found, rfl⟩⟩
  · rw [seen, if_neg]
    · exact found
    · rintro rfl
      rw [endpoint?_fresh] at found
      cases found
  · rw [seen] at found
    split at found
    · exact .inr (hollow b (Option.some.inj found))
    · exact .inl found

/-- **A target that is given a handle has it besides those that it had;** a bus passes on to it what
comes to its own. -/
theorem keeps_attach (plain : ∀ id b, s.world.endpoint? id = some (.bus b) →
    s.network.Plain b.handle) (id : TargetId) (h : HandleId) : s.Keeps (s.attach id h) := by
  unfold attach
  split
  · next m found => exact keeps_setEndpoint found (.memory (List.subset_append_left _ _))
  · next t found => exact keeps_setEndpoint found (.scripted (List.subset_append_left _ _))
  · next t found => exact keeps_setEndpoint found (.host (List.subset_append_left _ _))
  · next b found =>
      exact .of_parts (Network.retains_forward (plain id b found) h) (.refl _) rfl
  · exact .refl s
  · exact .refl s

/-- **A gate that has acted,** and has kept its handle. -/
theorem keeps_putStation {id : GateId} {c : Connection}
    (connected : s.connections.find? id = some c) {after : Station Platform}
    (handle : after.gate.handle = c.gate.handle) (network : s.network.Retains after.network)
    (world : s.world.Keeps after.world) : s.Keeps (s.putStation id c after) where
  network := network
  endpoints := world.endpoints
  buses := fun other b found => .inl (world.buses other b found)
  gates := by
    intro k d found
    rcases ite_eq_iff.1 ((Table.find?_insert _ _ _ _).symm.trans found) with ⟨rfl, same⟩ | ⟨-, old⟩
    · cases same
      exact .inl ⟨k, c, connected, handle.symm⟩
    · exact .inl ⟨k, d, old, rfl⟩

/-- Whatever a gate does for a transaction or an access. -/
theorem keeps_of_effects {id : GateId} {c : Connection}
    (connected : s.connections.find? id = some c) (plain : s.network.Plain c.gate.handle)
    {users : Set CacheId} {after : Station Platform}
    (steps : Station.Effects (s.target c.target) users (s.station c) after) :
    s.Keeps (s.putStation id c after) := by
  have before : (s.station c).Holds s.world.Keeps (fun _ _ _ => True) ∅ :=
    ⟨.refl _, fun _ _ _ _ => trivial, fun _ absent => absent.elim⟩
  exact keeps_putStation connected (Station.settled_of_effects steps).handle
    (Station.retains_of_effects (s := s.station c) plain steps)
    (before.effects (Platform.confined_keeps s.world _ c.target) steps).fits

/-- **A gate that is opened** has a handle of its own. -/
theorem keeps_openGate (plain : ∀ id b, s.world.endpoint? id = some (.bus b) →
    s.network.Plain b.handle) (target : TargetId) (config : GateConfig)
    (frequency : Option UInt64) : s.Keeps (s.openGate target config frequency).2 := by
  let made := Gate.create config s.network
  have grown : s.network.Retains made.2 := by
    have added : s.network.Retains (s.network.addCache config.entryLimit).2 := .of_handles rfl
    have handled := Network.retains_addHandle (s.network.addCache config.entryLimit).2
    exact (added.trans handled).trans
      (Network.retains_bind (Network.plain_addHandle _) _)
  have own : made.2.Plain made.1.handle := by
    refine Network.Retains.plain (Network.retains_bind (Network.plain_addHandle _) _) _
      (Network.plain_addHandle _)
  let middle : System := { s with network := made.2 }
  have first : s.Keeps middle := .of_parts grown (.refl _) rfl
  have straight : ∀ id b, middle.world.endpoint? id = some (.bus b) →
      middle.network.Plain b.handle :=
    fun id b found => grown.plain _ (plain id b found)
  have second := keeps_attach straight target made.1.handle
  unfold openGate
  dsimp only
  split
  · exact first.trans second
  · next clock _ =>
      refine (first.trans second).trans ⟨.refl _, fun _ e found => ⟨e, found, .refl e⟩,
        fun _ _ found => .inl found, fun k c found => ?_⟩
      rcases ite_eq_iff.1 ((Table.find?_insert _ _ _ _).symm.trans found) with ⟨-, new⟩ | ⟨-, old⟩
      · cases new
        exact .inr (second.network.plain _ own)
      · exact .inl ⟨k, c, old, rfl⟩

/-- **An event at a host** leaves it its handles. -/
theorem keeps_attemptHost {id : TargetId} {event : Pci.Host.Event} {outcome : Except Fault Unit}
    {t : System} (done : s.attemptHost id event = some (outcome, t)) : s.Keeps t := by
  cases known : s.host? id with
  | none =>
      rw [attemptHost_of_host?_eq_none known] at done
      cases done
      exact .refl s
  | some h =>
      obtain ⟨-, net, sheds, rfl⟩ := of_attemptHost known done
      refine .of_parts (.of_handles sheds.handles)
        (.setEndpoint (host?_eq_some_iff.1 known) (.host ?_)) rfl
      rw [Pci.Host.handles_next]
      exact List.Subset.refl _

end System

end Interconnect
