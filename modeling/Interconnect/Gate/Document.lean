import Interconnect.Document.Basic
import Interconnect.Gate.Config

/-!
# Gate configurations in documents

Every field of a configuration has a default, so a document names only what it changes.

## Main Definitions

* `GateConfig.ofDocument?`, `GateConfig.toDocument` — reading and writing a configuration
-/

namespace Interconnect

namespace Alignment

/-- Reads a rule from its name. -/
def ofDocument? : Document → Option Alignment :=
  Document.variant? [("unrestricted", .unrestricted), ("aligned", .aligned), ("natural", .natural)]

/-- The name of a rule. -/
def toDocument : Alignment → Document
  | unrestricted => .text "unrestricted"
  | aligned => .text "aligned"
  | natural => .text "natural"

end Alignment

namespace GateConfig

/-- Reads a configuration; a field that is not written has its default. -/
def ofDocument? (d : Document) : Option GateConfig := do
  let space ← d.fieldOr "space" 0 standard.space fun v => (v.natBelow? 65536).map UInt16.ofNat
  let maxAccessSize ←
    d.fieldOr "max_access_size" 1 standard.maxAccessSize (Document.optional? Document.word?)
  let alignment ← d.fieldOr "alignment" 2 standard.alignment Alignment.ofDocument?
  let byteEnable ← d.fieldOr "byte_enable" 3 standard.byteEnable Document.flag?
  let streaming ← d.fieldOr "streaming" 4 standard.streaming Document.flag?
  let allowDirect ← d.fieldOr "allow_dmi" 5 standard.allowDirect Document.flag?
  let readLatency ← d.fieldOr "read_latency" 6 standard.readLatency Document.word?
  let writeLatency ← d.fieldOr "write_latency" 7 standard.writeLatency Document.word?
  let entryLimit ← d.fieldOr "dmi_entry_limit" 8 standard.entryLimit
    (Document.optional? (Document.natBelow? UInt64.size))
  if d.fits 9 then
    some ⟨space, maxAccessSize, alignment, byteEnable, streaming, allowDirect, readLatency,
      writeLatency, entryLimit⟩
  else none

/-- The record of all fields. -/
def toDocument (c : GateConfig) : Document :=
  .object [
    ("space", .integer c.space.toNat),
    ("max_access_size", (c.maxAccessSize.map fun n => .integer n.toNat).getD .null),
    ("alignment", c.alignment.toDocument),
    ("byte_enable", .flag c.byteEnable),
    ("streaming", .flag c.streaming),
    ("allow_dmi", .flag c.allowDirect),
    ("read_latency", .integer c.readLatency.toNat),
    ("write_latency", .integer c.writeLatency.toNat),
    ("dmi_entry_limit", (c.entryLimit.map fun n => .integer n).getD .null)]

end GateConfig

end Interconnect
