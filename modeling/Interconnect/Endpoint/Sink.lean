import Interconnect.Target

/-!
# Sinks

A sink accepts everything: reads give one byte over and over, and writes are dropped.  It records
what it sees.

## Main Definitions

* `Sink` — the byte and the record
* `Sink.read`, `Sink.write` — the answers to accesses
-/

namespace Interconnect

/-- An access as a target has seen it. -/
structure Sighting where
  /-- The command. -/
  command : Command
  /-- The addresses. -/
  range : AddressRange
  /-- What came with it. -/
  attributes : Attributes
deriving DecidableEq

/-- **A target that accepts everything,** and remembers it. -/
structure Sink where
  /-- The byte that reads give. -/
  fill : UInt8
  /-- The accesses so far, in order. -/
  seen : List Sighting
deriving DecidableEq

namespace Sink

/-- A sink that has seen nothing. -/
def ofByte (fill : UInt8) : Sink := ⟨fill, []⟩

/-- Fills the buffer. -/
def read (s : Sink) (range : AddressRange) (attributes : Attributes) (buffer : Bytes) :
    Bytes × Sink :=
  (List.replicate buffer.length s.fill, { s with seen := s.seen ++ [⟨.read, range, attributes⟩] })

/-- Drops what is written. -/
def write (s : Sink) (range : AddressRange) (attributes : Attributes) : Sink :=
  { s with seen := s.seen ++ [⟨.write, range, attributes⟩] }

/-- Forgets what was seen. -/
def clear (s : Sink) : Sink := { s with seen := [] }

end Sink

end Interconnect
