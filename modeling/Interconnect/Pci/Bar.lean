import Interconnect.Fault
import Interconnect.Pci.Space

/-!
# Base address registers

A base address register says where a device decodes memory or I/O addresses.

## Main Definitions

* `Pci.Bar` — the register as the guest has programmed it
* `Pci.Bar.range` — the addresses it decodes, if it can decode any
-/

namespace Interconnect.Pci

/-- **A base address register as programmed.** -/
structure Bar where
  /-- The number of the register. -/
  number : UInt8
  /-- It decodes I/O addresses rather than memory. -/
  io : Bool
  /-- It is 64 bits wide. -/
  wide : Bool
  /-- Its memory may be read ahead. -/
  prefetch : Bool
  /-- The lowest address. -/
  address : UInt64
  /-- The number of addresses. -/
  size : UInt64
deriving DecidableEq

namespace Bar

/-- The register with the properties that the low bits of a flag word give; one that is made for I/O
stays so. -/
def ofFlags (number : UInt8) (io : Bool) (flags : UInt32) (address size : UInt64) : Bar where
  number := number
  io := io || flags &&& 1 != 0
  wide := flags &&& 4 != 0
  prefetch := flags &&& 8 != 0
  address := address
  size := size

/-- The low bits of the register, which tell its properties. -/
def flags (b : Bar) : Nat := b.io.toNat + 4 * b.wide.toNat + 8 * b.prefetch.toNat

/-- The address bits that a register decodes if its size is a power of two. -/
def mask (b : Bar) : UInt64 := ~~~(b.size - 1)

/-- Whether a device can have the register and it decodes any address; the number is looked at
first. -/
def validate (b : Bar) : Except Fault Unit :=
  if b.number.toNat ≥ barCount then .error (.invalidBar b.number)
  else if b.size = 0 then .error (.emptyBar b.number)
  else .ok ()

/-- **The addresses that the register decodes.** -/
def range (b : Bar) : Except Fault AddressRange := do
  b.validate
  (AddressRange.ofSize b.address b.size.toNat).mapError .range

/-- The space whose addresses the register decodes. -/
def space (b : Bar) : Space := if b.io then .io else .mmio

end Bar

end Interconnect.Pci
