import Interconnect.Proofs.Bus.Translation
import Interconnect.Proofs.System.Keeping

/-!
# The relays of a system

In a system of targets of all kinds, every target that a bus shows has been given a handle that does
nothing but relay what the target withdraws to the handle of the bus.  This holds of every state
that a system can come to, whatever is mapped, accessed, granted and withdrawn there.  So requests,
withdrawals and windows are translated alike on every bus.

## Main Definitions

* `System.Given` — a target has been given a handle
* `System.Relayed` — every mapping of every bus has a handle that relays for it
* `System.Step`, `System.Reached` — whatever a user does, and the states that follow

## Main Statements

* `Relayed.step`, `relayed_of_reached` — every mapping has its relay in every state
* `Reached.translates` — what a bus makes of ranges, withdrawals and windows
-/

namespace Interconnect

namespace System

variable {s t : System} {id : TargetId} {h : HandleId}

/-- **Target `id` has been given handle `h`.**  A bus links its own handle to it, and a sink has no
use for it. -/
inductive Given (s : System) (id : TargetId) (h : HandleId) : Prop
  /-- A memory. -/
  | memory (m : Memory) (found : s.world.endpoint? id = some (.memory m)) (noted : h ∈ m.handles)
  /-- A sink. -/
  | sink (t : Sink) (found : s.world.endpoint? id = some (.sink t))
  /-- A scripted target. -/
  | scripted (t : Scripted) (found : s.world.endpoint? id = some (.scripted t))
      (noted : h ∈ t.handles)
  /-- A bus. -/
  | bus (b : Bus) (found : s.world.endpoint? id = some (.bus b))
      (linked : ⟨h, none⟩ ∈ (s.network.handle b.handle).links)
  /-- A PCI host. -/
  | host (p : Pci.Host) (found : s.world.endpoint? id = some (.host p)) (noted : h ∈ p.handles)

/-- **Every mapping of every bus has its relay:** a handle that the shown target has been given and
that relays to the handle of the bus. -/
structure Relayed (s : System) : Prop where
  /-- Every rebased address has a place. -/
  fits : s.network.Fits
  /-- The handle of a gate relays nothing. -/
  gates : ∀ k c, s.connections.find? k = some c → s.network.Plain c.gate.handle
  /-- Nor does the handle of a bus. -/
  buses : ∀ id b, s.world.endpoint? id = some (.bus b) → s.network.Plain b.handle
  /-- The mappings of a bus do not overlap. -/
  ordered : ∀ id b, s.world.endpoint? id = some (.bus b) → b.Ordered
  /-- Every mapping has its relay. -/
  relays : ∀ id b, s.world.endpoint? id = some (.bus b) → ∀ m ∈ b.mappings,
    ∃ h, s.Given m.target h ∧ s.network.Relays h b.handle m.rebase

theorem relayed_empty : empty.Relayed where
  fits := fun _ _ member => by cases member
  gates := fun _ _ found => by cases found
  buses := fun _ _ found => by cases found
  ordered := fun _ _ found => by cases found
  relays := fun _ _ found => by cases found

/-! ### Changes that keep the targets -/

/-- A target that is the same has the same handles, if no link has been cut. -/
theorem Given.of_endpoint?_eq (given : s.Given id h)
    (same : t.world.endpoint? id = s.world.endpoint? id)
    (links : ∀ h, (s.network.handle h).links ⊆ (t.network.handle h).links) : t.Given id h := by
  cases given with
  | memory m found noted => exact .memory m (same.trans found) noted
  | sink t found => exact .sink t (same.trans found)
  | scripted t found noted => exact .scripted t (same.trans found) noted
  | bus b found linked => exact .bus b (same.trans found) (links _ linked)
  | host p found noted => exact .host p (same.trans found) noted

/-- A target has the handles that it has been given. -/
theorem Keeps.given (kept : s.Keeps t) (given : s.Given id h) : t.Given id h := by
  cases given with
  | memory m found noted =>
      obtain ⟨_, found', same⟩ := kept.endpoints id _ found
      cases same with
      | memory handles => exact .memory _ found' (handles noted)
  | sink _ found =>
      obtain ⟨_, found', same⟩ := kept.endpoints id _ found
      cases same with
      | sink => exact .sink _ found'
  | scripted _ found noted =>
      obtain ⟨_, found', same⟩ := kept.endpoints id _ found
      cases same with
      | scripted handles => exact .scripted _ found' (handles noted)
  | bus b found linked =>
      obtain ⟨_, found', same⟩ := kept.endpoints id _ found
      cases same with
      | bus => exact .bus b found' (kept.network.links _ linked)
  | host _ found noted =>
      obtain ⟨_, found', same⟩ := kept.endpoints id _ found
      cases same with
      | host handles => exact .host _ found' (handles noted)

/-- **The mappings have their relays where the relays and the targets have been kept.** -/
theorem Relayed.of_keeps (relayed : s.Relayed) (kept : s.Keeps t) : t.Relayed where
  fits := kept.network.fits relayed.fits
  gates := by
    intro k c found
    rcases kept.gates k c found with ⟨l, d, before, same⟩ | new
    · exact same ▸ kept.network.plain _ (relayed.gates l d before)
    · exact new
  buses := by
    intro id b found
    rcases kept.buses id b found with before | ⟨-, plain⟩
    · exact kept.network.plain _ (relayed.buses id b before)
    · exact plain
  ordered := by
    intro id b found
    rcases kept.buses id b found with before | ⟨hollow, -⟩
    · exact relayed.ordered id b before
    · exact BusOver.ordered_of_mappings_eq_nil hollow
  relays := by
    intro id b found m shown
    rcases kept.buses id b found with before | ⟨hollow, -⟩
    · obtain ⟨h, given, relay⟩ := relayed.relays id b before m shown
      exact ⟨h, kept.given given, kept.network.relays _ _ _ relay⟩
    · rw [hollow] at shown
      cases shown

/-! ### Buses that are told to change -/

/-- Whoever has been given a handle does not mind what a bus shows. -/
theorem given_setBus {place : TargetId} {b : Bus}
    (found : s.world.endpoint? place = some (.bus b)) (b' : Bus) (handle : b'.handle = b.handle)
    (given : s.Given id h) : (s.setEndpoint place (.bus b')).Given id h := by
  by_cases same : id = place
  · subst same
    have only : ∀ {e : Endpoint}, s.world.endpoint? id = some e → e = .bus b :=
      fun found' => Option.some.inj (found'.symm.trans found)
    cases given with
    | memory _ found' => cases only found'
    | sink _ found' => cases only found'
    | scripted _ found' => cases only found'
    | bus _ found' linked =>
        cases only found'
        exact .bus b' (endpoint?_setEndpoint_self s id _) (handle ▸ linked)
    | host _ found' => cases only found'
  · exact given.of_endpoint?_eq (endpoint?_setEndpoint_of_ne s (.bus b') same)
      fun _ => List.Subset.refl _

/-- **The mappings of a bus may change if those that are new have relays.** -/
theorem Relayed.setBus (relayed : s.Relayed) {b : Bus}
    (found : s.world.endpoint? id = some (.bus b)) (b' : Bus) (handle : b'.handle = b.handle)
    (ordered : b'.Ordered)
    (news : ∀ m ∈ b'.mappings, m ∈ b.mappings ∨
      ∃ h, s.Given m.target h ∧ s.network.Relays h b.handle m.rebase) :
    (s.setEndpoint id (.bus b')).Relayed where
  fits := relayed.fits
  gates := relayed.gates
  buses := by
    intro other n seen
    rw [endpoint?_setEndpoint] at seen
    split at seen
    · cases seen
      exact handle.symm ▸ relayed.buses id b found
    · exact relayed.buses other n seen
  ordered := by
    intro other n seen
    rw [endpoint?_setEndpoint] at seen
    split at seen
    · cases seen
      exact ordered
    · exact relayed.ordered other n seen
  relays := by
    intro other n seen m shown
    rw [endpoint?_setEndpoint] at seen
    split at seen
    · cases seen
      obtain ⟨h, given, relay⟩ :=
        (news m shown).elim (relayed.relays id b found m) fun new => new
      exact ⟨h, given_setBus found b' handle given, handle.symm ▸ relay⟩
    · obtain ⟨h, given, relay⟩ := relayed.relays other n seen m shown
      exact ⟨h, given_setBus found b' handle given, relay⟩

/-- **A handle that is attached to a target has been given to it.** -/
theorem given_attach (known : s.HasTarget id)
    (other : ∀ b, s.world.endpoint? id = some (.bus b) → b.handle ≠ h) :
    (s.attach id h).Given id h := by
  obtain ⟨e, found⟩ := known
  unfold attach
  cases e with
  | memory m =>
      simp only [found]
      exact .memory _ (endpoint?_setEndpoint_self _ _ _)
        (List.mem_append_right _ List.mem_cons_self)
  | sink t =>
      simp only [found]
      exact .sink t found
  | scripted t =>
      simp only [found]
      exact .scripted _ (endpoint?_setEndpoint_self _ _ _)
        (List.mem_append_right _ List.mem_cons_self)
  | bus b =>
      simp only [found]
      exact .bus b found (Network.mem_links_forward_iff.2 (.inr ⟨rfl, other b found, rfl⟩))
  | host p =>
      simp only [found]
      exact .host _ (endpoint?_setEndpoint_self _ _ _)
        (List.mem_append_right _ List.mem_cons_self)

/-- **A bus that shows one more target.**  The new mapping has a handle of its own. -/
theorem Relayed.map (relayed : s.Relayed) {range : AddressRange} {offset : UInt64}
    {target : TargetId} (known : s.HasTarget target)
    (mapped : s.map id range offset target = (.ok (), t)) : t.Relayed := by
  obtain ⟨-, rfl⟩ | ⟨b, m, b', found, made, rfl⟩ := map_cases mapped
  · exact relayed
  · obtain ⟨⟨-, -, same⟩, ordered, handle, shows⟩ := (relayed.ordered id b found).of_map_eq_ok made
    -- the relay of the new mapping, the attachment, and the mapping itself
    let fresh := s.network.handles.fresh
    let grown : System := { s with network := (s.network.rebased b'.handle m.rebase).2 }
    have first : s.Keeps grown :=
      .of_parts (Network.retains_rebased b'.handle m.fits_rebase) (.refl _) rfl
    have relayedFirst := relayed.of_keeps first
    have second := keeps_attach relayedFirst.buses target fresh
    have relay := second.network.relays _ _ _ (Network.relays_rebased s.network b'.handle m.rebase)
    have given : (grown.attach target fresh).Given target fresh := by
      refine given_attach known fun n seen own => ?_
      -- no bus has the new handle as its own
      have made := (relayed.buses target n seen).made
      rw [own] at made
      exact s.network.not_hasHandle_fresh made
    have shown : (grown.attach target fresh).world.endpoint? id = some (.bus b) := by
      obtain ⟨_, found', kept⟩ := second.endpoints id _ found
      cases kept with
      | bus => exact found'
    refine (relayedFirst.of_keeps second).setBus shown b' handle ordered fun n there => ?_
    rcases (shows n).1 there with rfl | old
    · exact .inr ⟨fresh, same ▸ given, handle ▸ relay⟩
    · exact .inl old

/-! ### Targets that go -/

/-- **What nobody holds may be taken out:** no bus shows it. -/
theorem Relayed.eraseEndpoint (relayed : s.Relayed) (free : s.isHeld id = false) :
    (s.eraseEndpoint id).Relayed := by
  obtain ⟨-, hidden⟩ := not_shown_of_isHeld free
  have old : ∀ other e, (s.eraseEndpoint id).world.endpoint? other = some e →
      s.world.endpoint? other = some e := by
    intro other e seen
    rw [endpoint?_eraseEndpoint] at seen
    split at seen
    · cases seen
    · exact seen
  refine ⟨relayed.fits, relayed.gates, fun other b seen => relayed.buses other b (old _ _ seen),
    fun other b seen => relayed.ordered other b (old _ _ seen), fun other b seen m shown => ?_⟩
  obtain ⟨h, given, relay⟩ := relayed.relays other b (old _ _ seen) m shown
  have still : (s.eraseEndpoint id).world.endpoint? m.target = s.world.endpoint? m.target := by
    rw [endpoint?_eraseEndpoint, if_neg (hidden other b (old _ _ seen) m shown)]
  exact ⟨h, given.of_endpoint?_eq still fun _ => List.Subset.refl _, relay⟩

/-- **What nobody holds may go.** -/
theorem Relayed.release (relayed : s.Relayed) (released : s.release id = some t) : t.Relayed := by
  refine collect_induction (P := Relayed) ?_ ?_ relayed released
  · exact fun relayed free => relayed.eraseEndpoint free
  · exact fun relayed done => relayed.of_keeps (keeps_withdrawMemory done)

theorem Relayed.unmap (relayed : s.Relayed) {range : AddressRange}
    (unmapped : s.unmap id range = some (.ok (), t)) : t.Relayed := by
  obtain ⟨-, rfl⟩ | ⟨b, m, b', counts, net, found, ended, withdrawn, released⟩ :=
    unmap_cases unmapped
  · exact relayed
  · obtain ⟨-, ordered, handle, left⟩ := (relayed.ordered id b found).of_unmap_eq_ok ended
    have less := relayed.setBus found b' handle ordered fun n kept => .inl ((left n).1 kept).1
    have sheds := (Network.withdrawThrough_spec withdrawn).1
    exact (less.of_keeps (keeps_of_sheds (s := s.setEndpoint id (.bus b')) sheds)).release released

/-! ### Whatever a user does -/

/-- **Whatever a user does with a system:** with memories and buses and before gates as in
`TargetStep` and `PortStep`, and with targets of other kinds, devices and several gates. -/
inductive Step : System → System → Prop
  /-- Something is done with memories and buses. -/
  | target {s t : System} (step : TargetStep s t) : Step s t
  /-- Something is done before a gate. -/
  | port {s t : System} (id : GateId) (step : PortStep id s t) : Step s t
  /-- A sink is made. -/
  | newSink (s : System) (fill : UInt8) : Step s (s.newSink fill).2
  /-- A scripted target is made. -/
  | newScripted (s : System) (size : Nat) (rules : List ScriptRule)
      (offered : Option (AddressRange × Permission × Bool)) :
      Step s (s.newScripted size rules offered).2
  /-- A PCI host is made. -/
  | newHost (s : System) (config : Pci.HostConfig) : Step s (s.newHost config).2
  /-- A device is made. -/
  | newDevice (s : System) (size : Nat) (ramBar : UInt8) (offersWindow : Bool) :
      Step s (s.newDevice size ramBar offersWindow).2
  /-- A sink forgets. -/
  | clearSink (s : System) (id : TargetId) : Step s (s.clearSink id)
  /-- A device forgets. -/
  | clearDevice (s : System) (id : Pci.DeviceId) : Step s (s.clearDevice id)
  /-- A scripted target withdraws a range. -/
  | withdrawScripted (s : System) (id : TargetId) (range : AddressRange)
      (outcome : List Nat × System) (done : s.withdrawScripted id range = some outcome) :
      Step s outcome.2
  /-- A device of a host comes or goes, a register is mapped or unmapped, or a pin is driven; or
  that is tried in vain. -/
  | hostEvent {s t : System} (id : TargetId) (event : Pci.Host.Event)
      (outcome : Except Fault Unit) (done : s.attemptHost id event = some (outcome, t)) : Step s t
  /-- A host carries out a payload. -/
  | perform (s : System) (id : TargetId) (p : Pci.Payload) : Step s (s.perform id p).2
  /-- A device carries out a payload by itself. -/
  | performDevice (s : System) (id : TargetId) (devfn : UInt8) (p : Pci.Payload) :
      Step s (s.performDevice id devfn p).2
  /-- A target is read without a gate. -/
  | readTarget (s : System) (id : TargetId) (range : AddressRange) (attributes : Attributes)
      (buffer : Bytes) : Step s (s.readTarget id range attributes buffer).2.2
  /-- A target is written without a gate. -/
  | writeTarget (s : System) (id : TargetId) (range : AddressRange) (attributes : Attributes)
      (data : Bytes) : Step s (s.writeTarget id range attributes data).2
  /-- A target is asked for a window without a gate. -/
  | windowTarget (s : System) (id : TargetId) (range : AddressRange) (attributes : Attributes) :
      Step s (s.windowTarget id range attributes).2
  /-- A gate is opened. -/
  | openGate (s : System) (target : TargetId) (config : GateConfig) (frequency : Option UInt64) :
      Step s (s.openGate target config frequency).2
  /-- A gate is closed. -/
  | closeGate (s : System) (id : GateId) (after : System) (closed : s.closeGate id = some after) :
      Step s after
  /-- The monitor or the clock of a gate is changed. -/
  | modifyGate (s : System) (id : GateId) (f : Gate → Gate)
      (kept : ∀ g, (f g).handle = g.handle) : Step s (s.modifyGate id f)
  /-- A gate is asked for a window. -/
  | grant (s : System) (id : GateId) (c : Connection)
      (connected : s.connections.find? id = some c) (access : Access) :
      Step s (s.grant id c access).2
  /-- A gate withdraws a range. -/
  | withdrawGate (s : System) (id : GateId) (c : Connection)
      (connected : s.connections.find? id = some c) (range : AddressRange)
      (outcome : Bool × System) (done : s.withdrawGate id c range = some outcome) :
      Step s outcome.2
  /-- An initiator looks for a host pointer. -/
  | pointerFor (s : System) (i : Initiator) (range : AddressRange) (command : Command) :
      Step s (s.pointerFor i range command).2
  /-- A range is cut out of the cache of an initiator. -/
  | withdrawInitiator (s : System) (i : Initiator) (range : AddressRange) :
      Step s (s.withdrawInitiator i range).2

/-- **The states that a system can come to.** -/
def Reached (s : System) : Prop := Relation.ReflTransGen Step empty s

theorem Relayed.targetStep (relayed : s.Relayed) (step : TargetStep s t) : t.Relayed := by
  cases step with
  | newMemory bytes readOnly discardWrites poison =>
      exact (relayed.of_keeps (keeps_allocate s _)).of_keeps (keeps_addEndpoint _ _ nofun)
  | newBus =>
      have grown : s.Keeps { s with network := s.network.addHandle.2 } :=
        .of_parts (Network.retains_addHandle s.network) (.refl _) rfl
      refine (relayed.of_keeps grown).of_keeps (keeps_addEndpoint _ _ ?_)
      rintro b ⟨⟩
      exact ⟨BusOver.mappings_ofHandle _, Network.plain_addHandle s.network⟩
  | map id range offset target known _ mapped => exact relayed.map known mapped
  | unmap id range _ unmapped => exact relayed.unmap unmapped
  | setReadOnly id readOnly _ changed =>
      obtain rfl | ⟨m, found, withdrawn⟩ := setReadOnly_cases changed
      · exact relayed
      · have kept : Endpoint.Keeps (.memory m) (.memory { m with readOnly := readOnly }) :=
          .memory (List.Subset.refl _)
        exact (relayed.of_keeps (keeps_setEndpoint found kept)).of_keeps
          (keeps_withdrawMemory withdrawn)
  | load id offset bytes _ loaded =>
      unfold loadMemory at loaded
      split at loaded
      · obtain ⟨storage, -, rfl⟩ := map_eq_ok_iff.1 loaded
        exact relayed.of_keeps (keeps_setWorld (.of_endpoints fun _ => rfl))
      · cases loaded
        exact relayed
  | reset id =>
      unfold resetMemory
      split
      · exact relayed.of_keeps (keeps_setWorld (.of_endpoints fun _ => rfl))
      · exact relayed
  | drop id _ dropped =>
      have unheld : s.Keeps { s with held := s.held.filter fun t => t != id } :=
        .of_parts (.refl _) (.refl _) rfl
      exact (relayed.of_keeps unheld).release dropped

theorem Relayed.portStep (relayed : s.Relayed) {id : GateId} (step : PortStep id s t) :
    t.Relayed := by
  cases step with
  | target step => exact relayed.targetStep step
  | join owner limit => exact relayed.of_keeps (.of_parts (.of_handles rfl) (.refl _) rfl)
  | allow k i _ allowed =>
      refine relayed.of_keeps (.of_parts (.of_handles ?_) (.refl _) rfl)
      cases allowed <;> rfl
  | bind k i _ c connected =>
      exact relayed.of_keeps (keeps_putStation connected rfl
        (Network.retains_bind (relayed.gates id c connected) i.cache) (.refl _))
  | submit c connected tx outcome _ submitted =>
      obtain rfl := of_submit submitted
      exact relayed.of_keeps (keeps_of_effects connected (relayed.gates id c connected)
        (Station.effects_of_passed _ ∅ _ tx))
  | access k i known c connected command address data mode outcome _ ended =>
      obtain ⟨bytes, done⟩ := outcome
      obtain ⟨after, rfl, passed⟩ := exists_of_access ended
      exact relayed.of_keeps (keeps_of_effects connected (relayed.gates id c connected)
        (Initiator.effects_of_access (mem_users known) passed))

/-- **Every mapping still has its relay, whatever a user does.** -/
theorem Relayed.step (relayed : s.Relayed) (step : Step s t) : t.Relayed := by
  cases step with
  | target step => exact relayed.targetStep step
  | port id step => exact relayed.portStep step
  | newSink fill => exact relayed.of_keeps (keeps_addEndpoint s _ nofun)
  | newScripted size rules offered =>
      exact (relayed.of_keeps (keeps_allocate s _)).of_keeps (keeps_addEndpoint _ _ nofun)
  | newHost config => exact relayed.of_keeps (keeps_addEndpoint s _ nofun)
  | newDevice size ramBar offersWindow =>
      exact relayed.of_keeps (keeps_setWorld (.of_endpoints fun _ => rfl))
  | clearSink id =>
      unfold clearSink sink?
      cases found : s.world.endpoint? id with
      | none => exact relayed
      | some e =>
          cases e with
          | sink t => exact relayed.of_keeps (keeps_setEndpoint found (.sink _ _))
          | _ => exact relayed
  | clearDevice id =>
      unfold clearDevice
      split
      · exact relayed.of_keeps (keeps_setWorld (.of_endpoints fun _ => rfl))
      · exact relayed
  | withdrawScripted id range outcome done =>
      unfold withdrawScripted at done
      split at done
      · exact relayed.of_keeps (keeps_withdraw done)
      · cases done
        exact relayed
  | hostEvent id event outcome done => exact relayed.of_keeps (keeps_attemptHost done)
  | perform id p =>
      unfold System.perform
      split
      · exact relayed.of_keeps (keeps_setWorld (.of_endpoints (Platform.endpoint?_perform _ p _)))
      · exact relayed
  | performDevice id devfn p =>
      unfold performDevice
      split
      · exact relayed.of_keeps (keeps_setWorld (.of_endpoints (Platform.endpoint?_device _ p _)))
      · exact relayed
  | readTarget id range attributes buffer =>
      exact relayed.of_keeps (keeps_setWorld
        ((Platform.confined_keeps s.world _ id).read range attributes buffer s.world (.refl _)))
  | writeTarget id range attributes data =>
      exact relayed.of_keeps (keeps_setWorld
        ((Platform.confined_keeps s.world _ id).write range attributes data s.world (.refl _)))
  | windowTarget id range attributes =>
      exact relayed.of_keeps (keeps_setWorld
        ((Platform.confined_keeps s.world _ id).window range attributes s.world (.refl _)))
  | openGate target config frequency =>
      exact relayed.of_keeps (keeps_openGate relayed.buses target config frequency)
  | closeGate id _ closed =>
      unfold closeGate at closed
      split at closed
      · next c _ =>
          have fewer : s.Keeps { s with connections := s.connections.erase id } := by
            refine ⟨.refl _, fun _ e found => ⟨e, found, .refl e⟩, fun _ _ found => .inl found,
              fun k d found => ?_⟩
            rw [Table.find?_erase] at found
            split at found
            · cases found
            · exact .inl ⟨k, d, found, rfl⟩
          exact (relayed.of_keeps fewer).release closed
      · cases closed
        exact relayed
  | modifyGate id f kept =>
      refine relayed.of_keeps ⟨.refl _, fun _ e found => ⟨e, found, .refl e⟩,
        fun _ _ found => .inl found, fun k d found => ?_⟩
      rw [modifyGate, Table.find?_modify] at found
      split at found
      · obtain ⟨c, before, rfl⟩ := Option.map_eq_some_iff.1 found
        exact .inl ⟨id, c, before, (kept c.gate).symm⟩
      · exact .inl ⟨k, d, found, rfl⟩
  | grant id c connected access =>
      have steps : Station.Effects (s.target c.target) ∅ (s.station c)
          ((s.station c).grant (s.target c.target) access).2 := .single (.grant _ access)
      exact relayed.of_keeps
        (keeps_of_effects connected (relayed.gates id c connected) steps)
  | withdrawGate id c connected range outcome done =>
      obtain ⟨⟨count, after⟩, ended, rfl⟩ := Option.map_eq_some_iff.1 done
      have steps : Station.Effects (s.target c.target) ∅ (s.station c) after :=
        .single (.withdraw _ _ range count ended)
      exact relayed.of_keeps
        (keeps_of_effects connected (relayed.gates id c connected) steps)
  | pointerFor i range command =>
      refine relayed.of_keeps (.of_parts (.of_handles ?_) (.refl _) rfl)
      unfold System.pointerFor Initiator.pointerFor
      dsimp only
      split <;> rfl
  | withdrawInitiator i range =>
      exact relayed.of_keeps (.of_parts (.of_handles rfl) (.refl _) rfl)

/-- **Every mapping of every bus has its relay in every state that a system can come to.** -/
theorem relayed_of_reached (reached : s.Reached) : s.Relayed := by
  induction reached with
  | refl => exact relayed_empty
  | tail _ step ih => exact ih.step step

/-! ### There and back -/

/-- **On every bus that can be, the translations are inverse to each other.**  Every mapping
translates ranges, withdrawn ranges and windows alike, without a failing step.  The target that it
shows has been given a handle that relays what the target withdraws to the handle of the bus: such a
withdrawal ends if it ends at the bus, and takes from the caches beyond exactly what they keep of
the addresses of the mapping that are routed into the withdrawn range.  Whatever the targets are,
the bus asks for a window where the range is routed and moves up what is offered there, and a range
that no mapping holds reaches no target. -/
theorem Reached.translates (reached : s.Reached) {b : Bus} (known : s.bus? id = some b) :
    (∀ m ∈ b.mappings, b.Translates m ∧
      ∃ h, s.Given m.target h ∧ s.network.Relays h b.handle m.rebase ∧
        ∀ x : AddressRange,
          ((∀ image, m.rebase.image x = some image → s.network.Ends b.handle image) →
            ∃ outcome, s.network.withdraw h x = some outcome) ∧
          ∀ depth outcome, s.network.withdraw? depth h x = some outcome → ∀ c v q p,
            (outcome.2.Offers c v q p ↔ s.network.Offers c v q p ∧
              ¬ ∃ a, b.LeadsInto m x a ∧ s.network.Meant b.handle (.single a) c v)) ∧
    ∀ (σ : Type) (targets : TargetId → Target σ) (range : AddressRange) (attributes : Attributes)
      (w : World σ),
      (∀ m place, b.route range = some (m, place) →
        (b.target targets).window range attributes w =
          (((targets m.target).window place attributes w).1.bind m.toBus,
            ((targets m.target).window place attributes w).2)) ∧
      ((∀ m ∈ b.mappings, m.range.contains range = false) → ∀ data,
        (b.target targets).read range attributes data w = (.addressError, data, w) ∧
        (b.target targets).write range attributes data w = (.addressError, w) ∧
        (b.target targets).window range attributes w = (none, w)) := by
  have relayed := relayed_of_reached reached
  have found := bus?_eq_some_iff.1 known
  have ordered := relayed.ordered id b found
  refine ⟨fun m shown => ?_, fun σ targets range attributes w => ⟨fun m place routed =>
    BusOver.window_of_routed routed attributes w, fun outside data =>
    BusOver.target_of_unrouted (BusOver.route_eq_none_of_outside outside) attributes data w⟩⟩
  have translates := ordered.translates_of_mem shown
  obtain ⟨h, given, relay⟩ := relayed.relays id b found m shown
  refine ⟨translates, h, given, relay, fun x => ⟨relay.exists_withdraw, ?_⟩⟩
  intro depth outcome done c v q p
  simp only [relay.offers_iff relayed.fits done, translates.withdrawn]

/-- The last page of the address space, which shows a memory from its ninth byte on. -/
def topPage : Mapping :=
  ⟨⟨0xfffffffffffff000, 0xffffffffffffffff, by decide⟩, 8, 0, by decide, by decide⟩

/-- A memory of sixteen bytes is shown at the last page.  The last two addresses are routed without
wrapping and come back, the memory has a relay, and of a window over all of it the first eight
addresses of the page are left. -/
theorem exists_translates_top_page : ∃ (s : System) (b : Bus) (h : HandleId) (v : DirectWindow),
    s.Reached ∧ s.bus? 1 = some b ∧ b.mappings = [topPage] ∧
      b.route ⟨0xfffffffffffffffe, 0xffffffffffffffff, by decide⟩ =
        some (topPage, ⟨0x1006, 0x1007, by decide⟩) ∧
      topPage.rebase.image ⟨0x1006, 0x1007, by decide⟩ =
        some ⟨0xfffffffffffffffe, 0xffffffffffffffff, by decide⟩ ∧
      s.Given 0 h ∧ s.network.Relays h b.handle topPage.rebase ∧
      topPage.toBus ⟨⟨0, 0xf, by decide⟩, ⟨some 0, 0⟩, .readWrite⟩ = some v ∧
      ∀ a, b.LeadsInto topPage ⟨0, 0xf, by decide⟩ a ↔
        0xfffffffffffff000 ≤ a ∧ a ≤ 0xfffffffffffff007 := by
  let before : System := (empty.newMemory (List.replicate 16 0) false false none).2.newBus.2
  have mapped : ∃ s b, before.map 1 topPage.range 8 0 = (.ok (), s) ∧ s.bus? 1 = some b ∧
      b.mappings = [topPage] := ⟨_, _, rfl, rfl, rfl⟩
  obtain ⟨s, b, mapped, known, shown⟩ := mapped
  have reached : s.Reached :=
    ((Relation.ReflTransGen.single (.target (.newMemory empty _ false false none))).tail
      (.target (.newBus _))).tail (.target (.map before 1 _ 8 0 ⟨_, rfl⟩ s mapped))
  obtain ⟨each, -⟩ := reached.translates known
  obtain ⟨translates, h, given, relay, -⟩ := each topPage (shown ▸ List.mem_singleton_self _)
  obtain ⟨place, routed, start, last, back⟩ :=
    translates.routed ⟨0xfffffffffffffffe, 0xffffffffffffffff, by decide⟩ (by decide) (by decide)
  have there : place = ⟨0x1006, 0x1007, by decide⟩ :=
    AddressRange.ext (UInt64.toNat_inj.1 start) (UInt64.toNat_inj.1 last)
  subst there
  have moved : topPage.toBus ⟨⟨0, 0xf, by decide⟩, ⟨some 0, 0⟩, .readWrite⟩ =
      some ⟨⟨0xfffffffffffff000, 0xfffffffffffff007, by decide⟩, ⟨some 0, 8⟩, .readWrite⟩ := by
    decide
  obtain ⟨-, covers, -⟩ := translates.offered _ _ moved
  exact ⟨s, b, h, _, reached, known, shown, routed, back, given, relay, moved,
    fun a => (covers a).symm⟩

end System

end Interconnect
