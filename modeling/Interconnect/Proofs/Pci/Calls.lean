import Interconnect.Pci.Routing
import Interconnect.Proofs.Pci.Lines

/-!
# What a PCI host asks of its devices

Devices that keep a record of the calls to them answer as they would without, so the record tells
which devices a host calls for a payload, how often, and with what.  The device at a function is the
one that was attached there last, if it has not been detached since.

## Main Definitions

* `Device.Call`, `Device.noting` — a call, and devices that take notes
* `Host.calls` — the calls that a host makes for a payload
* `Step.Attaches` — a device is attached

## Main Statements

* `Host.recorded_eq` — the record makes no difference to a payload
* `Host.calls_eq` — a payload is one call, or none
* `Host.deviceAt_follow_iff` — which device is at a function
-/

namespace Interconnect

universe u

variable {σ : Type u}

/-! ### The record of the calls -/

/-- **One call to a device of a host.** -/
inductive Pci.Device.Call where
  /-- A payload. -/
  | access (device : Pci.Attachment) (payload : Pci.Payload)
  /-- A request for a window. -/
  | window (device : Pci.Attachment) (bar : UInt8) (range : AddressRange)
deriving DecidableEq

namespace World

/-- A world in which calls to devices have been recorded. -/
def withLog (w : World σ) (log : List Pci.Device.Call) : World (List Pci.Device.Call × σ) :=
  ⟨w.storage, log, w.state⟩

/-- The calls to devices that have been recorded. -/
def log (w : World (List Pci.Device.Call × σ)) : List Pci.Device.Call := w.state.1

/-- The world without the record. -/
def withoutLog (w : World (List Pci.Device.Call × σ)) : World σ := ⟨w.storage, w.state.2⟩

end World

namespace Pci

/-- **Devices that take note of every call** and otherwise do what they did. -/
def Device.noting (devices : Attachment → Device σ) (a : Attachment) :
    Device (List Device.Call × σ) where
  access p w :=
    let (q, world) := (devices a).access p w.withoutLog
    (q, world.withLog (w.log ++ [.access a p]))
  window bar range w :=
    let (offered, world) := (devices a).window bar range w.withoutLog
    (offered, world.withLog (w.log ++ [.window a bar range]))

namespace Host

/-- A payload carried out by devices that take notes and have not been called. -/
def recorded (devices : Attachment → Device σ) (h : Host) (p : Payload) (world : World σ) :
    Payload × World (List Device.Call × σ) :=
  h.perform (Device.noting devices) p (world.withLog [])

/-- **The calls to devices that a payload makes,** in order. -/
def calls (devices : Attachment → Device σ) (h : Host) (p : Payload) (world : World σ) :
    List Device.Call :=
  (h.recorded devices p world).2.log

variable (devices : Attachment → Device σ) (h : Host) (p : Payload) (world : World σ)

/-- **The record is kept of the very payload that is carried out:** beside it, the same is answered
and left behind. -/
theorem recorded_eq :
    h.recorded devices p world =
      ((h.perform devices p world).1,
        (h.perform devices p world).2.withLog (h.calls devices p world)) := by
  unfold calls recorded perform
  cases h.route p with
  | answered q => rfl
  | toDevice device q => rfl

/-- **A payload is one call to a device, or none.** -/
theorem calls_eq : h.calls devices p world = match h.route p with
    | .answered _ => []
    | .toDevice device q => [.access device q] := by
  unfold calls recorded perform
  cases h.route p with
  | answered q => rfl
  | toDevice device q => rfl

variable {h p}

/-- A payload that the host answers makes no call and leaves the world as it is. -/
theorem of_route_answered {q : Payload} (route : h.route p = .answered q) :
    h.perform devices p world = (q, world) ∧ h.calls devices p world = [] := by
  rw [calls_eq, perform, route]
  exact ⟨rfl, rfl⟩

/-- A payload for a device makes one call, and has the device's answer. -/
theorem of_route_toDevice {device : Attachment} {q : Payload}
    (route : h.route p = .toDevice device q) :
    h.perform devices p world =
        (settle p.space ((devices device).access q world).1,
          ((devices device).access q world).2) ∧
      h.calls devices p world = [.access device q] := by
  rw [calls_eq, perform, route]
  exact ⟨rfl, rfl⟩

end Host

/-! ### The device at a function -/

/-- The device is attached to the function. -/
def Step.Attaches (s : Step) (devfn : UInt8) (device : Attachment) : Prop :=
  s.event = .operation (.attach devfn device) ∧ s.succeeded = true

namespace Host

/-- Operations leave the devices as they are, but for the one that is attached or detached. -/
theorem deviceAt_update_iff (h : Host) (operation : Operation) (devfn : UInt8)
    (device : Attachment) :
    (h.update operation).deviceAt devfn = some device ↔
      (operation = .attach devfn device ∧ (h.attempt operation).1.isOk = true) ∨
        h.deviceAt devfn = some device ∧
          ¬(operation = .detach devfn ∧ (h.attempt operation).1.isOk = true) := by
  cases attempted : h.attempt operation with
  | mk outcome left =>
      obtain ⟨ended, after⟩ := left
      cases outcome with
      | error fault =>
          rw [update_of_error attempted]
          simp [Except.isOk, Except.toBool]
      | ok done =>
          rw [update, attempted]
          cases operation with
          | attach other attached =>
              obtain ⟨free, -, rfl⟩ := attach_eq_ok_iff.1 attempted
              rw [deviceAt, Table.find?_insert]
              split
              · next same =>
                  -- the function was free, so no other device was there
                  obtain rfl := UInt8.toNat_inj.1 same
                  rw [hasDevice, Option.isSome_eq_false_iff, Option.isNone_iff_eq_none] at free
                  simp [Except.isOk, Except.toBool, free]
              · next elsewhere =>
                  have other_ne : other ≠ devfn := fun same => elsewhere (by rw [same])
                  simp [deviceAt, other_ne]
          | detach other =>
              obtain ⟨-, -, devices, -⟩ := of_detach_eq_ok attempted
              rw [deviceAt, devices, Table.find?_erase, ← deviceAt]
              split
              · next same => simp [Except.isOk, Except.toBool, UInt8.toNat_inj.1 same]
              · next elsewhere =>
                  have other_ne : other ≠ devfn := fun same => elsewhere (by rw [same])
                  simp [other_ne]
          | mapBar other bar =>
              obtain ⟨range, -, -, -, rfl⟩ := mapBar_eq_ok_iff.1 attempted
              cases bar.io <;> simp [add, unmapBar, unmapWhere, deviceAt]
          | unmapBar other number =>
              cases attempted
              simp [deviceAt]

/-- **A device is at a function after it is attached there,** and stays until it is detached. -/
theorem deviceAt_next_iff (h : Host) (event : Event) (devfn : UInt8) (device : Attachment) :
    (h.next event).deviceAt devfn = some device ↔
      (Step.mk event (h.attemptEvent event).1.isOk).Attaches devfn device ∨
        h.deviceAt devfn = some device ∧
          ¬ (Step.mk event (h.attemptEvent event).1.isOk).Detaches devfn := by
  cases event with
  | operation operation =>
      refine (deviceAt_update_iff h operation devfn device).trans ?_
      simp [Step.Attaches, Step.Detaches, attemptEvent]
  | interrupt other driven level =>
      have kept : (h.next (.interrupt other driven level)).deviceAt devfn = h.deviceAt devfn := rfl
      simp [kept, Step.Attaches, Step.Detaches]

/-- **The devices after some events:** those that were attached, or there before, and have not been
detached since. -/
theorem deviceAt_follow_iff (h : Host) (events : List Event) (devfn : UInt8)
    (device : Attachment) :
    (h.follow events).deviceAt devfn = some device ↔
      Since (fun s => s.Attaches devfn device) (fun t => ¬ t.Detaches devfn) (h.history events) ∨
        h.deviceAt devfn = some device ∧ ∀ t ∈ h.history events, ¬ t.Detaches devfn := by
  induction events generalizing h with
  | nil => simp [follow, history, not_since_nil]
  | cons event rest ih =>
      have step := ih (h.next event)
      rw [follow] at step
      rw [follow, List.foldl_cons, step, deviceAt_next_iff, history, since_cons_iff,
        List.forall_mem_cons]
      tauto

end Host

end Pci

end Interconnect
