import Interconnect.Bytes
import Interconnect.Pci.Space
import Interconnect.Text.Hex

/-!
# PCI payloads

A payload is one access between a host and a device, the size of a register.  Its data are a word of
which the low bytes count; on the interconnect the same bytes stand in little-endian order.

## Main Definitions

* `Pci.Payload` — the access and its outcome
* `Pci.Payload.mask` — the bits that count
* `Bytes.ofWord`, `Bytes.toWord` — words as runs of bytes
-/

namespace Interconnect

namespace Bytes

/-- The low `count` bytes of a word, the least significant first. -/
def ofWord : (count : Nat) → UInt64 → Bytes
  | 0, _ => []
  | count + 1, w => w.toUInt8 :: ofWord count (w >>> 8)

/-- The word whose least significant byte comes first. -/
def toWord : Bytes → UInt64
  | [] => 0
  | b :: rest => b.toUInt64 ||| (toWord rest <<< 8)

@[simp] theorem length_ofWord (count : Nat) (w : UInt64) : (ofWord count w).length = count := by
  induction count generalizing w with
  | zero => rfl
  | succ count ih => simp [ofWord, ih]

end Bytes

namespace Pci

/-- **One access between a host and a device.** -/
structure Payload where
  /-- What is asked for. -/
  command : Command
  /-- How it ended. -/
  status : Status
  /-- The space of the address. -/
  space : Space
  /-- The address. -/
  address : UInt64
  /-- The data, in the low bytes. -/
  data : UInt64
  /-- The number of bytes. -/
  size : UInt32
  /-- Whether the access is made for debugging. -/
  debug : Bool
deriving DecidableEq

namespace Payload

/-- All ones in the low `size` bytes, up to the whole word. -/
def mask (p : Payload) : UInt64 :=
  if p.size < 8 then (1 <<< (8 * p.size.toUInt64)) - 1 else 0 - 1

/-- The data that count. -/
def value (p : Payload) : UInt64 := p.data &&& p.mask

/-- The payload as a line of text.  The data take two places for each byte. -/
def render (p : Payload) : String :=
  let command := match p.command with
    | .read => "read"
    | .write => "write"
  let value :=
    if p.size = 0 then Hex.short p.value.toNat
    else Hex.padded (2 * p.size.toNat) p.value.toNat
  "pci " ++ command ++ " " ++ p.space.render ++ ":" ++ Hex.short p.address.toNat ++ " [" ++ value
    ++ "] (" ++ p.status.render ++ ")"

/-- The payload with its outcome. -/
def answer (p : Payload) (status : Status) : Payload := { p with status := status }

@[simp] theorem status_answer (p : Payload) (s : Status) : (p.answer s).status = s := rfl

end Payload

end Pci

end Interconnect
