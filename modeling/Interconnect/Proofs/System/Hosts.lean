import Interconnect.Proofs.Pci.Bridge
import Interconnect.Proofs.Pci.History

/-!
# The PCI hosts of a system

A host within a system goes through its events as it would by itself, and what is withdrawn on the
way goes to the caches of the system.  So the registers that it lists are those of its history, and
an operation that fails reaches no cache.

## Main Definitions

* `System.attemptHost`, `System.followHost` — events at a host of a system

## Main Statements

* `System.attemptHost_eq` — a host within a system does what it would by itself
* `System.attemptHost_of_error` — an event that fails leaves the whole system as it was
* `System.host?_of_followHost` — the host after some events
* `System.exists_host_followHost` — what it lists, and which operations fail without effect
-/

namespace Interconnect

namespace System

open Pci

/-! ### Events -/

/-- **An event at one of the hosts of a system:** how it ends, and the system that is left. -/
def attemptHost (s : System) (id : TargetId) : Host.Event → Option (Except Fault Unit × System)
  | .operation (.attach devfn device) => s.attachDevice id devfn device
  | .operation (.detach devfn) => s.detachDevice id devfn
  | .operation (.mapBar devfn bar) => s.mapBar id devfn bar
  | .operation (.unmapBar devfn number) =>
    (s.unmapBar id devfn number).map fun found => (.ok (), found.2)
  | .interrupt devfn pin level => some (.ok (), (s.interrupt id devfn pin level).2)

/-- The system after some events at one of its hosts, also in vain. -/
def followHost (s : System) (id : TargetId) (events : List Host.Event) : Option System :=
  events.foldlM (fun s event => (s.attemptHost id event).map Prod.snd) s

variable {s t : System} {id : TargetId} {h : Host} {event : Host.Event}

theorem host?_eq_some_iff : s.host? id = some h ↔ s.world.endpoint? id = some (.host h) := by
  unfold host?
  split
  · next found => simp [found]
  · next other =>
      refine ⟨fun absent => (by cases absent), fun found => ?_⟩
      exact absurd found (other h)

/-- **A host within a system does what it would by itself,** and then the ranges that have ended are
withdrawn. -/
theorem attemptHost_eq (known : s.host? id = some h) (event : Host.Event) :
    s.attemptHost id event = s.concludeHost id (h.attemptEvent event) := by
  cases event with
  | operation operation =>
      cases operation with
      | attach devfn device => simp only [attemptHost, attachDevice, known]; rfl
      | detach devfn => simp only [attemptHost, detachDevice, known]; rfl
      | mapBar devfn bar => simp only [attemptHost, System.mapBar, known]; rfl
      | unmapBar devfn number =>
          simp only [attemptHost, System.unmapBar, known, Option.map_map]
          rfl
  | interrupt devfn pin level =>
      -- no range ends
      simp only [attemptHost, System.interrupt, known]
      rfl

/-- An event at what is no host changes nothing. -/
theorem attemptHost_of_host?_eq_none (absent : s.host? id = none) (event : Host.Event) :
    s.attemptHost id event = some (.ok (), s) := by
  cases event with
  | operation operation =>
      cases operation <;>
        simp only [attemptHost, attachDevice, detachDevice, System.mapBar, System.unmapBar, absent,
          Option.map_some]
  | interrupt devfn pin level => simp only [attemptHost, System.interrupt, absent]

/-- **What an event leaves:** the host as it would be by itself, and caches that lack what has
ended. -/
theorem of_attemptHost (known : s.host? id = some h) {outcome : Except Fault Unit}
    (done : s.attemptHost id event = some (outcome, t)) :
    outcome = (h.attemptEvent event).1 ∧ ∃ net, s.network.Sheds net ∧
      t = { s with world := s.world.setEndpoint id (.host (h.next event)), network := net } := by
  rw [attemptHost_eq known] at done
  obtain ⟨after, updated, same⟩ := Option.map_eq_some_iff.1 done
  obtain ⟨net, withdrawn, rfl⟩ := Option.map_eq_some_iff.1 updated
  cases same
  exact ⟨rfl, net, (Network.withdrawAll_spec withdrawn).1, rfl⟩

/-- The host after an event is what it would be by itself. -/
theorem host?_of_attemptHost (known : s.host? id = some h) {outcome : Except Fault Unit}
    (done : s.attemptHost id event = some (outcome, t)) : t.host? id = some (h.next event) := by
  obtain ⟨-, net, -, rfl⟩ := of_attemptHost known done
  rw [host?_eq_some_iff]
  simp [World.setEndpoint, World.endpoint?]

/-- **A host within a system follows the events at it.** -/
theorem host?_of_followHost (known : s.host? id = some h) {events : List Host.Event}
    (followed : s.followHost id events = some t) : t.host? id = some (h.follow events) := by
  induction events generalizing s h with
  | nil =>
      cases followed
      exact known
  | cons event rest ih =>
      rw [followHost, List.foldlM_cons] at followed
      obtain ⟨middle, first, later⟩ := Option.bind_eq_some_iff.1 followed
      obtain ⟨⟨outcome, u⟩, done, rfl⟩ := Option.map_eq_some_iff.1 first
      exact ih (host?_of_attemptHost known done) later

/-- **An event that fails leaves the whole system as it was:** the host, and every cache. -/
theorem attemptHost_of_error (known : s.host? id = some h) {fault : Fault}
    (failed : (h.attemptEvent event).1 = .error fault) :
    s.attemptHost id event = some (.error fault, s) := by
  have same : s.world.state.endpoints.insert id (.host h) = s.world.state.endpoints :=
    Table.insert_of_find?_eq_some (host?_eq_some_iff.1 known)
  have left : h.attemptEvent event = (.error fault, [], h) :=
    Prod.ext failed (Host.attemptEvent_of_error failed)
  have updated : s.updateHost id h [] =
      some { s with world := s.world.setEndpoint id (.host h) } := rfl
  rw [attemptHost_eq known, left, concludeHost, updated, World.setEndpoint, same]
  rfl

/-- An event returns where withdrawals end. -/
theorem exists_attemptHost (known : s.host? id = some h)
    (ends : ∀ handle range, s.network.Ends handle range) (event : Host.Event) :
    ∃ outcome, s.attemptHost id event = some outcome := by
  obtain ⟨net, withdrawn⟩ := Network.exists_withdrawAll s.network (h.next event).handles
    (h.attemptEvent event).2.1 fun handle _ range _ => ends handle range
  have updated : s.updateHost id (h.next event) (h.attemptEvent event).2.1 =
      some { s with world := s.world.setEndpoint id (.host (h.next event)), network := net } :=
    Option.map_eq_some_iff.2 ⟨net, withdrawn, rfl⟩
  exact ⟨_, (attemptHost_eq known event).trans (Option.map_eq_some_iff.2 ⟨_, updated, rfl⟩)⟩

/-! ### What is listed -/

/-- **The registers that a host of a system lists are those of its history.**  They are listed in
the order in which they were mapped last, those for memory first, each with the space and the
addresses that it was mapped with then; none is listed twice, and each is one that an attached
device can have.  An operation fails for the reasons that `Host.Refuses` gives, and then it leaves
the whole system as it was: the devices, registers and pins of the host, and every cache.  Every
event returns where withdrawals end. -/
theorem exists_host_followHost {config : HostConfig} {handles : List HandleId}
    (fresh : s.host? id = some (.vacant config handles)) {events : List Host.Event}
    (followed : s.followHost id events = some t) :
    ∃ h steps, t.host? id = some h ∧ steps = (Host.vacant config handles).history events ∧
      h.entries = (standing steps).filter (fun e => e.space = .mmio) ++
        (standing steps).filter (fun e => e.space = .io) ∧
      (∀ e, e ∈ h.entries ↔
        Since (fun s => s.made = some e) (fun t => t.ends e.register = false) steps) ∧
      (h.entries.map Entry.register).Nodup ∧
      (∀ e ∈ h.entries, h.hasDevice e.devfn = true ∧ e.bar.toNat < barCount) ∧
      (∀ operation fault u, t.attemptHost id (.operation operation) = some (.error fault, u) ↔
        h.Refuses operation fault ∧ u = t) ∧
      ∀ event, (∀ handle range, t.network.Ends handle range) →
        ∃ outcome, t.attemptHost id event = some outcome := by
  have known := host?_of_followHost fresh followed
  have after := (Host.registered_vacant config handles).follow events
  refine ⟨_, _, known, rfl, Host.entries_follow config handles events,
    fun e => Host.mem_entries_follow_iff, ?_, fun e => after.of_mem_entries, ?_,
    fun event ends => exists_attemptHost known ends event⟩
  · rw [Host.registers_entries]
    exact after.distinct
  · intro operation fault u
    rw [← Host.attempt_eq_error_iff]
    constructor
    · intro failed
      have reason := (of_attemptHost known failed).1.symm
      rw [attemptHost_of_error known reason] at failed
      cases failed
      exact ⟨reason, rfl⟩
    · rintro ⟨reason, rfl⟩
      exact attemptHost_of_error known reason

/-- The first register of a device is mapped to memory, the second too, and then the first to I/O
addresses instead; it cannot be mapped to no address at all. -/
def movedBar : List Host.Event := [
  .operation (.attach 8 ⟨0, true⟩),
  .operation (.mapBar 8 ⟨0, false, false, false, 0x1000, 0x100⟩),
  .operation (.mapBar 8 ⟨1, false, false, false, 0x2000, 0x10⟩),
  .operation (.mapBar 8 ⟨0, true, false, false, 0x40, 0x10⟩),
  .operation (.mapBar 8 ⟨0, false, false, false, 0x3000, 0⟩)]

/-- The register that has moved is listed where it is now, behind that for memory. -/
theorem exists_host_of_moved_bar : ∃ (s t : System) (h : Host),
    s.host? 0 = some (.vacant .standard []) ∧ s.followHost 0 movedBar = some t ∧
      t.host? 0 = some h ∧
      h.entries = [⟨8, 1, .mmio, 0x2000, 0x200f⟩, ⟨8, 0, .io, 0x40, 0x4f⟩] ∧
      (h.entries.map Entry.register).Nodup ∧
      t.attemptHost 0 (.operation (.mapBar 8 ⟨1, false, false, false, 0x3000, 0⟩)) =
        some (.error (.emptyBar 1), t) := by
  let s : System := (empty.newHost .standard).2
  have fresh : s.host? 0 = some (.vacant .standard []) := rfl
  obtain ⟨t, followed⟩ : ∃ t, s.followHost 0 movedBar = some t :=
    Option.isSome_iff_exists.1 (by decide +kernel)
  obtain ⟨h, steps, known, rfl, listed, -, distinct, -, fails, -⟩ :=
    exists_host_followHost fresh followed
  refine ⟨s, t, h, fresh, followed, known, ?_, distinct, ?_⟩
  · rw [listed]
    decide +kernel
  · exact (fails _ _ _).2 ⟨.hollow (by decide) rfl, rfl⟩

end System

end Interconnect
