import Interconnect.Access.Basic
import Interconnect.Document.Basic

/-!
# Ranges, commands and responses in documents

## Main Definitions

* `AddressRange.ofDocument?`, `AddressRange.toDocument` — a range as the record of its bounds
* `Command.ofDocument?`, `Response.ofDocument?`, `Response.toDocument` — the names
-/

namespace Interconnect

/-- Reads a range from the record of its two bounds, which must be written and in order. -/
def AddressRange.ofDocument? (d : Document) : Option AddressRange := do
  let start ← d.required "start" 0 Document.word?
  let last ← d.required "end" 1 Document.word?
  if d.fits 2 then (ofBounds start last).toOption else none

/-- The record of the two bounds. -/
def AddressRange.toDocument (r : AddressRange) : Document :=
  .object [("start", .integer r.start.toNat), ("end", .integer r.last.toNat)]

/-- Reads a command from its name. -/
def Command.ofDocument? : Document → Option Command :=
  Document.variant? [("read", .read), ("write", .write), ("ignore", .ignore)]

/-- Reads a response from its name. -/
def Response.ofDocument? : Document → Option Response :=
  Document.variant? [("incomplete", .incomplete), ("ok", .ok), ("address_error", .addressError),
    ("command_error", .commandError)]

/-- The name of a response. -/
def Response.toDocument : Response → Document
  | .incomplete => .text "incomplete"
  | .ok => .text "ok"
  | .addressError => .text "address_error"
  | .commandError => .text "command_error"

end Interconnect
