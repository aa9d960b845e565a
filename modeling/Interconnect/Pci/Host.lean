import Interconnect.Pci.Bar
import Interconnect.Pci.Interrupt
import Interconnect.Gate.Document
import Interconnect.Table
import Interconnect.Withdrawal.Network

/-!
# PCI hosts

A host keeps the devices attached to it, the ranges that their base address registers decode, and
the interrupt pins that they drive.  This module holds how those change; how accesses find their
device is in `Interconnect.Pci.Routing`.

## Main Definitions

* `Pci.HostConfig` — the layout of configuration addresses and the size limit
* `Pci.Host` — the devices, the mapped registers and the interrupts
* `attach`, `detach` — the devices
* `mapBar`, `unmapBar` — the registers
* `interrupt`, `line` — the pins and the lines they drive

### What an operation leaves

An operation tells how it ended, which memory ranges the host no longer decodes, so that the windows
over them are to be withdrawn, and what is left of the host.  It does so also when it fails: that a
failure leaves everything as it was is not in the types.
-/

namespace Interconnect.Pci

/-- The settings of a host. -/
structure HostConfig where
  /-- Configuration addresses have the extended layout. -/
  extended : Bool
  /-- The greatest width of an access. -/
  maxAccessSize : UInt64
deriving DecidableEq

namespace HostConfig

/-- The classic layout and accesses of up to four bytes. -/
def standard : HostConfig := ⟨false, 4⟩

instance : Inhabited HostConfig := ⟨standard⟩

/-- Reads the settings; one that is not written has its default. -/
def ofDocument? (d : Document) : Option HostConfig := do
  let extended ← d.fieldOr "express" 0 standard.extended Document.flag?
  let maxAccessSize ← d.fieldOr "max_access_size" 1 standard.maxAccessSize Document.word?
  if d.fits 2 then some ⟨extended, maxAccessSize⟩ else none

/-- The record of both settings. -/
def toDocument (c : HostConfig) : Document :=
  .object [("express", .flag c.extended), ("max_access_size", .integer c.maxAccessSize.toNat)]

/-- **What the gate that serves a space accepts:** accesses the size of a register, without masks
and repetition.  Only memory has direct windows. -/
def gateConfig (c : HostConfig) (space : Space) : GateConfig :=
  { GateConfig.standard with
    space := space.tag
    maxAccessSize := some c.maxAccessSize
    alignment := .natural
    streaming := false
    byteEnable := false
    allowDirect := space = .mmio }

end HostConfig

/-- The number of a device. -/
abbrev DeviceId := Nat

/-- A device as it is attached to a host. -/
structure Attachment where
  /-- The device. -/
  device : DeviceId
  /-- Whether the host may use the device's windows. -/
  windows : Bool
deriving DecidableEq

/-- A range that a base address register of an attached device decodes. -/
structure BarMapping where
  /-- The function that the device has on the bus. -/
  devfn : UInt8
  /-- The number of the register. -/
  bar : UInt8
  /-- The addresses. -/
  range : AddressRange
  /-- The size that the register was programmed with. -/
  size : UInt64
deriving DecidableEq

/-- Whether this is the mapping of the given register. -/
def BarMapping.isOf (m : BarMapping) (devfn bar : UInt8) : Bool := m.devfn = devfn && m.bar = bar

/-- **Devices behind three address spaces.** -/
structure Host where
  /-- The settings. -/
  config : HostConfig
  /-- The devices, by function. -/
  devices : Table Attachment
  /-- The registers that decode memory, in the order in which they were mapped. -/
  mmio : List BarMapping
  /-- The registers that decode I/O addresses, in the order in which they were mapped. -/
  io : List BarMapping
  /-- Which function drives which line. -/
  asserted : List (Pin × UInt8)
  /-- The handles of everyone who may hold windows, in order of attachment. -/
  handles : List HandleId

namespace Host

/-- A host without devices. -/
def ofConfig (config : HostConfig) : Host := ⟨config, .empty, [], [], [], []⟩

/-- The device at a function. -/
def deviceAt (h : Host) (devfn : UInt8) : Option Attachment := h.devices.find? devfn.toNat

/-- Whether a device is attached at a function. -/
def hasDevice (h : Host) (devfn : UInt8) : Bool := (h.deviceAt devfn).isSome

/-! ### Devices and their registers -/

/-- Attaches a device at a function that is free. -/
def attach (h : Host) (devfn : UInt8) (device : Attachment) :
    Except Fault Unit × List AddressRange × Host :=
  if h.hasDevice devfn then (.error (.deviceExists devfn), [], h)
  else (.ok (), [], { h with devices := h.devices.insert devfn.toNat device })

/-- Whether a register is mapped. -/
def isMapped (h : Host) (devfn bar : UInt8) : Bool := (h.mmio ++ h.io).any fun m => m.isOf devfn bar

/-- Ends the mappings with a property, and gives the memory ranges that they decoded. -/
def unmapWhere (h : Host) (ends : BarMapping → Bool) : List AddressRange × Host :=
  ((h.mmio.filter ends).map BarMapping.range,
    { h with
      mmio := h.mmio.filter fun m => !ends m
      io := h.io.filter fun m => !ends m })

/-- **Ends the mapping of a register,** and gives the memory ranges that it decoded. -/
def unmapBar (h : Host) (devfn bar : UInt8) : List AddressRange × Host :=
  h.unmapWhere fun m => m.isOf devfn bar

/-- Ends the mappings of several registers of a device, one after the other. -/
def unmapBars (h : Host) (devfn : UInt8) : List UInt8 → List AddressRange × Host
  | [] => ([], h)
  | bar :: rest =>
    let (ended, h) := h.unmapBar devfn bar
    let (later, h) := unmapBars h devfn rest
    (ended ++ later, h)

/-- The host with one more mapping, after the others of its space. -/
def add (h : Host) (io : Bool) (mapping : BarMapping) : Host :=
  if io then { h with io := h.io ++ [mapping] } else { h with mmio := h.mmio ++ [mapping] }

/-- **Maps a register in place of any earlier mapping of it.**  The register and its device are
looked at before the earlier mapping ends. -/
def mapBar (h : Host) (devfn : UInt8) (bar : Bar) : Except Fault Unit × List AddressRange × Host :=
  match bar.range with
  | .error fault => (.error fault, [], h)
  | .ok range =>
    if !h.hasDevice devfn then (.error (.noDevice devfn), [], h)
    else
      let (ended, h) := h.unmapBar devfn bar.number
      (.ok (), ended, h.add bar.io ⟨devfn, bar.number, range, bar.size⟩)

/-- The numbers of the registers that a device can have. -/
def barNumbers : List UInt8 := (List.range barCount).map UInt8.ofNat

/-- **Detaches a device.**  Its registers are unmapped one by one, and its pins fall. -/
def detach (h : Host) (devfn : UInt8) : Except Fault Unit × List AddressRange × Host :=
  let removed := h.deviceAt devfn
  let h := { h with devices := h.devices.erase devfn.toNat }
  match removed with
  | none => (.error (.noDevice devfn), [], h)
  | some _ =>
    let (ended, h) := h.unmapBars devfn barNumbers
    (.ok (), ended, { h with asserted := h.asserted.filter fun e => e.2 != devfn })

/-- The mapped registers, those of memory first, each with its space. -/
def barMappings (h : Host) : List (BarMapping × Space) :=
  h.mmio.map (·, .mmio) ++ h.io.map (·, .io)

/-! ### Interrupts -/

/-- **Drives a pin of a function high or low,** and gives the line that the pin is routed to. -/
def interrupt (h : Host) (devfn : UInt8) (pin : Pin) (level : Bool) : Pin × Host :=
  let line := pin.swizzle (devfn.toNat / 8)
  let others := h.asserted.filter fun e => e != (line, devfn)
  (line, { h with asserted := if level then others ++ [(line, devfn)] else others })

/-- Whether any function drives the line. -/
def line (h : Host) (line : Pin) : Bool := h.asserted.any fun e => e.1 = line

end Host

end Interconnect.Pci
