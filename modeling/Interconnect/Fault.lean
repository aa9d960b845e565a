import Interconnect.Access.Basic
import Interconnect.Range.Text

/-!
# Faults

A fault is a misuse of the interconnect itself: a request that makes no sense whatever the targets
would say.  How an access fares at its target is told by a `Response` instead.

## Main Definitions

* `Fault` — the causes
* `Fault.message` — what is said of each
-/

namespace Interconnect

/-- **Why a request to the interconnect cannot be carried out.** -/
inductive Fault where
  /-- A range cannot be built or moved. -/
  | range (error : RangeError)
  /-- The transaction has been answered before. -/
  | staleResponse (address : UInt64) (response : Response)
  /-- The transaction has no buffer. -/
  | emptyTransaction (address : UInt64)
  /-- The new mapping overlaps one that exists. -/
  | mapConflict (range existing : AddressRange)
  /-- No mapping has exactly this range. -/
  | notMapped (range : AddressRange)
  /-- No mapping can have this range, because it is empty. -/
  | emptyMapping (range : AddressRange)
  /-- The bytes do not fit into the memory at this offset. -/
  | outOfBounds (offset : UInt64) (size capacity : Nat)
  /-- A clock cannot stand still. -/
  | zeroFrequency
  /-- There is no base address register with this number. -/
  | invalidBar (number : UInt8)
  /-- The base address register decodes no address. -/
  | emptyBar (number : UInt8)
  /-- The function is taken. -/
  | deviceExists (devfn : UInt8)
  /-- The function is not there. -/
  | noDevice (devfn : UInt8)
deriving DecidableEq

/-- What is said of a fault. -/
def Fault.message : Fault → String
  | .range error => error.message
  | .staleResponse address response =>
    "transaction at " ++ Hex.short address.toNat ++ " entered the fabric with response `"
      ++ response.render ++ "`"
  | .emptyTransaction address => "transaction at " ++ Hex.short address.toNat ++ " carries no data"
  | .mapConflict r existing =>
    "new mapping " ++ r.render ++ " conflicts with mapping " ++ existing.render
  | .notMapped r => "nothing mapped at " ++ r.render
  | .emptyMapping r => "an empty range cannot be unmapped at " ++ r.render
  | .outOfBounds offset size capacity =>
    toString size ++ " bytes at offset " ++ Hex.short offset.toNat ++ " exceed memory of "
      ++ toString capacity ++ " bytes"
  | .zeroFrequency => "clock frequency must be non-zero"
  | .invalidBar number => "invalid BAR " ++ toString number.toNat
  | .emptyBar number => "BAR " ++ toString number.toNat ++ " has zero size"
  | .deviceExists devfn => "a device is already attached at devfn " ++ Hex.padded 2 devfn.toNat
  | .noDevice devfn => "no device attached at devfn " ++ Hex.padded 2 devfn.toNat

end Interconnect
