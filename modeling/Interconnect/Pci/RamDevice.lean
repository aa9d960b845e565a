import Interconnect.Pci.Device

/-!
# A device of registers and RAM

A small device to try a host with.  It has sixty-four configuration registers and a block of RAM
behind one base address register; its other registers answer in characteristic ways.  It remembers
every payload that reaches it.

## Main Definitions

* `Pci.RamDevice` — the registers, the RAM and the record
* `Pci.RamDevice.access`, `Pci.RamDevice.window` — the answers
-/

namespace Interconnect.Pci

/-- **A device of registers and RAM.** -/
structure RamDevice where
  /-- The configuration registers. -/
  registers : Bytes
  /-- The base address register before the RAM. -/
  ramBar : UInt8
  /-- The RAM. -/
  ram : StorageId
  /-- Whether the RAM is offered as a direct window. -/
  offersWindow : Bool
  /-- The payloads so far, as they arrived. -/
  seen : List Payload

namespace RamDevice

/-- A device over a block of RAM.  Its configuration registers count up from 0xc0. -/
def ofBlock (ram : StorageId) (ramBar : UInt8) (offersWindow : Bool) : RamDevice where
  registers := (List.range 64).map fun i => UInt8.ofNat (0xc0 + i)
  ramBar := ramBar
  ram := ram
  offersWindow := offersWindow
  seen := []

/-- **A payload carried out on a run of bytes.**  It must have the size of a register and end within
the run. -/
def accessBytes (bytes : Bytes) (p : Payload) : Payload × Bytes :=
  let size := p.size.toNat
  let place := p.address.toNat
  if size = 0 || 8 < size || bytes.length < place + size then (p.answer .addressError, bytes)
  else
    match p.command with
    | .read =>
      ({ p with status := .success, data := Bytes.toWord (bytes.slice place size) }, bytes)
    | .write => (p.answer .success, bytes.overwrite place (Bytes.ofWord size p.data))

/-- The answer of a base address register without storage: one stays silent, one refuses, and the
others give the complement of the address. -/
def accessBare (bar : UInt8) (p : Payload) : Payload :=
  if bar = 4 then p
  else if bar = 5 then p.answer .commandError
  else { p with status := .success, data := if p.command = .read then ~~~p.address else p.data }

/-- Answers a payload and remembers it. -/
def access (d : RamDevice) (bank : StorageBank) (p : Payload) :
    Payload × RamDevice × StorageBank :=
  let d := { d with seen := d.seen ++ [p] }
  match p.space with
  | .config =>
    let (p, registers) := accessBytes d.registers p
    (p, { d with registers := registers }, bank)
  | .bar number =>
    if number = d.ramBar then
      let (p, bytes) := accessBytes (bank.contents d.ram) p
      (p, d, bank.setContents d.ram bytes)
    else (accessBare number p, d, bank)
  | .mmio | .io => (p.answer .addressError, d, bank)

/-- The window over all of the RAM. -/
def window (d : RamDevice) (bank : StorageBank) (bar : UInt8) : Option DirectWindow :=
  if bar = d.ramBar && d.offersWindow then
    (AddressRange.ofSize 0 (bank.contents d.ram).length).toOption.map fun extent =>
      ⟨extent, .toBlock d.ram, .readWrite⟩
  else none

end RamDevice

end Interconnect.Pci
