import Interconnect.Access.Basic
import Interconnect.Document.Basic

/-!
# PCI address spaces, commands and statuses

A PCI host decodes configuration, memory and I/O addresses, and a device is addressed within its
configuration registers or within one of its base address registers.  The spaces have numbers as the
rest of the interconnect knows them, and commands and statuses correspond to its own.

## Main Definitions

* `Pci.Space` — the spaces, with `tag` and `ofTag?`
* `Pci.Command`, `Pci.Status` — what a payload asks for and how it ended
-/

namespace Interconnect.Pci

/-- The number of base address registers of a device. -/
def barCount : Nat := 6

/-- **The address spaces of a host and its devices.** -/
inductive Space where
  /-- Configuration registers. -/
  | config
  /-- Memory addresses. -/
  | mmio
  /-- I/O addresses. -/
  | io
  /-- What a base address register of a device decodes. -/
  | bar (number : UInt8)
deriving DecidableEq, Repr

namespace Space

/-- The number of a space. -/
def tag : Space → SpaceTag
  | config => 0
  | mmio => 1
  | io => 2
  | bar number => UInt16.ofNat (3 + number.toNat)

/-- The space with a number.  Only base address registers that a device can have count. -/
def ofTag? (tag : SpaceTag) : Option Space :=
  match tag.toNat with
  | 0 => some config
  | 1 => some mmio
  | 2 => some io
  | n + 3 => if n < barCount then some (bar (UInt8.ofNat n)) else none

/-- Whether a space belongs to a base address register. -/
def isBar : Space → Bool
  | bar _ => true
  | _ => false

/-- The name of a space in messages. -/
def render : Space → String
  | config => "cfg"
  | mmio => "mmio"
  | io => "io"
  | bar number => "bar" ++ toString number.toNat

/-- Reads a space from its name, that of a base address register with its number. -/
def ofDocument? : Document → Option Space
  | .object [("bar", number)] => (number.natBelow? 256).map fun n => bar (UInt8.ofNat n)
  | d => d.variant? [("cfg", config), ("mmio", mmio), ("io", io)]

/-- The name of a space. -/
def toDocument : Space → Document
  | config => .text "cfg"
  | mmio => .text "mmio"
  | io => .text "io"
  | bar number => .object [("bar", .integer number.toNat)]

end Space

/-- What a payload asks for. -/
inductive Command where
  /-- A register is read. -/
  | read
  /-- A register is written. -/
  | write
deriving DecidableEq, Repr

namespace Command

/-- The command that corresponds to one of the interconnect, if any does. -/
def ofCommand? : Interconnect.Command → Option Command
  | .read => some read
  | .write => some write
  | .ignore => none

/-- The corresponding command of the interconnect. -/
def toCommand : Command → Interconnect.Command
  | read => .read
  | write => .write

@[simp] theorem ofCommand?_toCommand (c : Command) : ofCommand? c.toCommand = some c := by
  cases c <;> rfl

end Command

/-- How a payload ended. -/
inductive Status where
  /-- The device has not answered. -/
  | incomplete
  /-- Carried out. -/
  | success
  /-- Nothing answers at this address. -/
  | addressError
  /-- The device refuses the access. -/
  | commandError
deriving DecidableEq, Repr

namespace Status

/-- The corresponding response of the interconnect. -/
def toResponse : Status → Response
  | incomplete => .incomplete
  | success => .ok
  | addressError => .addressError
  | commandError => .commandError

/-- The status that corresponds to a response. -/
def ofResponse : Response → Status
  | .incomplete => incomplete
  | .ok => success
  | .addressError => addressError
  | .commandError => commandError

/-- Whether the access was refused. -/
def isError : Status → Bool
  | addressError | commandError => true
  | incomplete | success => false

/-- The name of a status in messages. -/
def render : Status → String
  | incomplete => "Incomplete"
  | success => "Success"
  | addressError => "AddressError"
  | commandError => "CommandError"

@[simp] theorem ofResponse_toResponse (s : Status) : ofResponse s.toResponse = s := by
  cases s <;> rfl

@[simp] theorem toResponse_ofResponse (r : Response) : (ofResponse r).toResponse = r := by
  cases r <;> rfl

end Status

end Interconnect.Pci
