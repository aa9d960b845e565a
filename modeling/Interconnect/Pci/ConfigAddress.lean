/-!
# Configuration addresses

A configuration access names a bus, a function on it, and a register of the function, packed into
one address.  The classic layout has eight bits for each; the extended one gives the bus nine bits
and the register twelve.

## Main Definitions

* `Pci.ConfigAddress` — the three parts
* `Pci.ConfigAddress.decode`, `Pci.ConfigAddress.encode` — unpacking and packing
* `Pci.devfn` — a slot and a function as one number
-/

namespace Interconnect.Pci

/-- **The parts of a configuration address.** -/
structure ConfigAddress where
  /-- The bus. -/
  bus : UInt16
  /-- The slot in the high five bits and the function in the low three. -/
  devfn : UInt8
  /-- The register. -/
  offset : UInt16
deriving DecidableEq, Repr

namespace ConfigAddress

/-- Unpacks an address of the extended or the classic layout. -/
def decode (extended : Bool) (address : UInt64) : ConfigAddress :=
  if extended then
    ⟨((address >>> 20) &&& 0x1ff).toUInt16, (address >>> 12).toUInt8, (address &&& 0xfff).toUInt16⟩
  else
    ⟨((address >>> 16) &&& 0xff).toUInt16, (address >>> 8).toUInt8, (address &&& 0xff).toUInt16⟩

/-- Packs the parts; bits that have no place in the layout are dropped. -/
def encode (extended : Bool) (a : ConfigAddress) : UInt64 :=
  if extended then
    ((a.bus.toUInt64 &&& 0x1ff) <<< 20) ||| (a.devfn.toUInt64 <<< 12)
      ||| (a.offset.toUInt64 &&& 0xfff)
  else
    ((a.bus.toUInt64 &&& 0xff) <<< 16) ||| (a.devfn.toUInt64 <<< 8)
      ||| (a.offset.toUInt64 &&& 0xff)

end ConfigAddress

/-- The slot of a function. -/
def slotOf (devfn : UInt8) : UInt8 := devfn >>> 3

/-- The function within its slot. -/
def functionOf (devfn : UInt8) : UInt8 := devfn &&& 7

/-- A slot and a function as one number. -/
def devfn (slot function : UInt8) : UInt8 := (slot <<< 3) ||| (function &&& 7)

end Interconnect.Pci
