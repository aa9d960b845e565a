import Interconnect.Access.Transaction

/-!
# What a gate accepts

## Main Definitions

* `Alignment` — what a gate demands of addresses and widths
* `GateConfig` — the rules, the latencies and the size of the grant cache
* `GateConfig.accepts` — whether a transaction keeps the rules
-/

namespace Interconnect

/-- What a gate demands of the address and the width of an access. -/
inductive Alignment where
  /-- Nothing. -/
  | unrestricted
  /-- The address is a multiple of the width. -/
  | aligned
  /-- The same, and the width is that of a register: one, two, four or eight bytes. -/
  | natural
deriving DecidableEq, Repr

/-- Whether an access of `width` bytes may start at `address`. -/
def Alignment.permits (alignment : Alignment) (address : UInt64) (width : Nat) : Bool :=
  match alignment with
  | unrestricted => true
  | aligned => width != 0 && address.toNat % width == 0
  | natural => [1, 2, 4, 8].contains width && address.toNat % width == 0

/-- **The rules of a gate.** -/
structure GateConfig where
  /-- The address space that its accesses are meant for. -/
  space : SpaceTag
  /-- The greatest width of an access, if there is a limit. -/
  maxAccessSize : Option UInt64
  /-- The rule for addresses. -/
  alignment : Alignment
  /-- Whether a transaction may have a mask. -/
  byteEnable : Bool
  /-- Whether a transfer may repeat at one address. -/
  streaming : Bool
  /-- Whether direct windows are granted. -/
  allowDirect : Bool
  /-- The cycles that each completed piece of a read costs. -/
  readLatency : UInt64
  /-- The cycles that each completed piece of a write costs. -/
  writeLatency : UInt64
  /-- The limit of the grant cache, if there is one. -/
  entryLimit : Option Nat
deriving DecidableEq

namespace GateConfig

/-- The gate that accepts everything and charges nothing. -/
def standard : GateConfig where
  space := 0
  maxAccessSize := none
  alignment := .unrestricted
  byteEnable := true
  streaming := true
  allowDirect := true
  readLatency := 0
  writeLatency := 0
  entryLimit := none

instance : Inhabited GateConfig := ⟨standard⟩

/-- A streaming width divides the length, and differs from it only where streaming is allowed. -/
def acceptsStreaming (c : GateConfig) (tx : Transaction) : Bool :=
  match tx.streamingWidth with
  | none => true
  | some w =>
    (w == tx.data.length || c.streaming) && w != 0 && w ≤ tx.data.length
      && tx.data.length % w == 0

/-- A mask is allowed and as long as a pulse. -/
def acceptsMask (c : GateConfig) (tx : Transaction) : Bool :=
  match tx.byteEnable with
  | none => true
  | some mask => c.byteEnable && mask.length == tx.width

/-- A pulse is within the size limit. -/
def acceptsSize (c : GateConfig) (tx : Transaction) : Bool :=
  match c.maxAccessSize with
  | none => true
  | some limit => tx.width ≤ limit.toNat

/-- **Whether a transaction keeps the rules.**  A streaming transfer reaches its target pulse by
pulse, so the rules on size and alignment apply to a pulse. -/
def accepts (c : GateConfig) (tx : Transaction) : Bool :=
  c.acceptsStreaming tx && c.acceptsMask tx && c.acceptsSize tx
    && c.alignment.permits tx.address tx.width

/-- The cycles that a completed piece costs. -/
def latency (c : GateConfig) : Command → UInt64
  | .read => c.readLatency
  | .write | .ignore => c.writeLatency

end GateConfig

end Interconnect
