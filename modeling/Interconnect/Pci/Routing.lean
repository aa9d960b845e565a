import Interconnect.Pci.ConfigAddress
import Interconnect.Pci.Device
import Interconnect.Pci.Host
import Interconnect.Word

/-!
# Routing within a PCI host

A host finds the device that an access is meant for: in configuration space by bus and function, and
in memory and I/O space by the first mapped register that decodes the address.

## Main Definitions

* `Host.route` — the device for a payload, or the host's own answer
* `Host.perform` — a payload carried out
* `Host.target` — how a host answers as a target, given its devices

### Configuration accesses never fail for lack of a device

A read from a function that is not there gives all ones, and a write to it is lost; both succeed.
An address that a device refuses in its configuration space reads as zero.
-/

namespace Interconnect.Pci

universe u

/-- Where a payload goes. -/
inductive Route where
  /-- To a device, as the device will see it. -/
  | toDevice (device : Attachment) (payload : Payload)
  /-- To no device; the host has answered it. -/
  | answered (payload : Payload)

namespace Host

/-- **A configuration access** goes to the function on bus zero that the address names. -/
def routeConfig (h : Host) (p : Payload) : Route :=
  let place := ConfigAddress.decode h.config.extended p.address
  match if place.bus = 0 then h.deviceAt place.devfn else none with
  | some device => .toDevice device { p with address := place.offset.toUInt64 }
  | none =>
    .answered { p with status := .success, data := if p.command = .read then p.mask else p.data }

/-- **A memory or I/O access** goes to the first register that decodes its address, if all of it
lies within the register's size. -/
def routeBar (h : Host) (mappings : List BarMapping) (p : Payload) : Route :=
  match mappings.find? fun m => m.range.includes p.address with
  | none => .answered (p.answer .addressError)
  | some m =>
    let offset := p.address - m.range.start
    if m.size < Word.addUpTo offset p.size.toUInt64 then .answered (p.answer .commandError)
    else
      match h.deviceAt m.devfn with
      | none => .answered (p.answer .addressError)
      | some device => .toDevice device { p with address := offset, space := .bar m.bar }

/-- **The device for a payload.**  A payload that is already meant for a register of some device is
refused. -/
def route (h : Host) (p : Payload) : Route :=
  match p.space with
  | .config => h.routeConfig p
  | .mmio => h.routeBar h.mmio p
  | .io => h.routeBar h.io p
  | .bar _ => .answered (p.answer .commandError)

/-- What the host makes of a device's answer: an address that a device refuses in its configuration
space reads as zero. -/
def settle (space : Space) (p : Payload) : Payload :=
  if space = .config && p.status = .addressError then { p with status := .success, data := 0 }
  else p

variable {σ : Type u}

/-- **A payload carried out.** -/
def perform (devices : Attachment → Device σ) (h : Host) (p : Payload) (world : World σ) :
    Payload × World σ :=
  match h.route p with
  | .answered p => (p, world)
  | .toDevice device q =>
    let (q, world) := (devices device).access q world
    (settle p.space q, world)

/-! ### As a target -/

/-- The payload for an access of the interconnect, or the response to one that has no payload: its
space must be known, and its length that of a register within the limit. -/
def payload (h : Host) (command : Command) (range : AddressRange) (length : Nat) (data : UInt64)
    (attributes : Attributes) : Except Response Payload :=
  match Space.ofTag? attributes.space with
  | none => .error .addressError
  | some space =>
    if length = 0 || h.config.maxAccessSize.toNat < length || 8 < length then .error .commandError
    else
      .ok ⟨command, .incomplete, space, range.start, data, UInt32.ofNat length, attributes.debug⟩

/-- **The window for a range of memory:** what the device offers behind the first register that
decodes the whole range, cut to the register's size and moved to where it is mapped. -/
def window (devices : Attachment → Device σ) (h : Host) (range : AddressRange)
    (attributes : Attributes) (world : World σ) : Option DirectWindow × World σ :=
  if Space.ofTag? attributes.space ≠ some .mmio then (none, world)
  else
    match h.mmio.find? fun m => m.range.contains range with
    | none => (none, world)
    | some m =>
      match (range.shiftDown m.range.start).toOption, h.deviceAt m.devfn with
      | some place, some device =>
        let (offered, world) := (devices device).window m.bar place world
        (do
          let w ← offered
          let visible ← (AddressRange.ofSize 0 m.size.toNat).toOption
          let part ← w.restrict visible
          (part.shiftUp m.range.start).toOption, world)
      | _, _ => (none, world)

/-- **How a host answers as a target.**  Of what a device leaves, a read takes as many bytes as the
buffer has. -/
def target (devices : Attachment → Device σ) (h : Host) : Target σ where
  read := fun range attributes buffer world =>
    match h.payload .read range buffer.length 0 attributes with
    | .error response => (response, buffer, world)
    | .ok p =>
      let (p, world) := h.perform devices p world
      (p.status.toResponse,
        if p.status = .success then Bytes.ofWord buffer.length p.value else buffer, world)
  write := fun range attributes data world =>
    match h.payload .write range data.length (Bytes.toWord data) attributes with
    | .error response => (response, world)
    | .ok p =>
      let (p, world) := h.perform devices p world
      (p.status.toResponse, world)
  window := h.window devices
  length_read := by
    intro range attributes buffer world
    split
    · rfl
    · dsimp only
      split <;> simp

end Host

end Interconnect.Pci
