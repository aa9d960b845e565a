import Interconnect.Pci.Payload
import Interconnect.Target

/-!
# PCI devices

A device answers payloads, and may offer direct windows onto the storage behind its base address
registers.  It acts on the world as targets do.

## Main Definitions

* `Pci.Device` — how payloads and requests for windows are answered
* `Pci.Device.withoutWindows` — a device that offers none
-/

namespace Interconnect.Pci

universe u

/-- **How a device answers.**  The address of a payload is that of a configuration register, or the
distance from the start of what a base address register decodes. -/
structure Device (σ : Type u) where
  /-- Answers a payload. -/
  access : Payload → World σ → Payload × World σ
  /-- Offers a window for a range behind a base address register, in the register's addresses. -/
  window : (bar : UInt8) → AddressRange → World σ → Option DirectWindow × World σ

/-- The same device without its windows. -/
def Device.withoutWindows {σ : Type u} (d : Device σ) : Device σ :=
  { d with window := fun _ _ world => (none, world) }

/-- The device that leaves every payload as it is. -/
def Device.silent (σ : Type u) : Device σ where
  access := fun p world => (p, world)
  window := fun _ _ world => (none, world)

end Interconnect.Pci
