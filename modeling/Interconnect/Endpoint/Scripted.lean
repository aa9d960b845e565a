import Interconnect.Target
import Interconnect.Withdrawal.Network

/-!
# Scripted targets

A scripted target is a stretch of storage that misbehaves on order: rules give fixed responses for
accesses to some ranges, and every request for a direct window is answered with one fixed window,
whatever was asked for.

## Main Definitions

* `Scripted` — the storage, the rules and the fixed window
* `Scripted.read`, `Scripted.write`, `Scripted.window` — the answers to accesses
-/

namespace Interconnect

/-- A fixed response for every access that overlaps a range. -/
structure ScriptRule where
  /-- The addresses. -/
  range : AddressRange
  /-- The response. -/
  response : Response
deriving DecidableEq

/-- **A target that follows a script.** -/
structure Scripted where
  /-- The storage. -/
  block : StorageId
  /-- The rules; the first that applies counts. -/
  rules : List ScriptRule
  /-- The answer to every request for a window. -/
  offered : Option DirectWindow
  /-- The requests for windows so far, in order. -/
  asked : List (AddressRange × Attributes)
  /-- The handles of everyone who may hold windows, in order of attachment. -/
  handles : List HandleId
deriving DecidableEq

namespace Scripted

/-- **The response that is decided without moving a byte,** by a rule or because the range is empty
or leaves the storage; there is none for an access that goes through. -/
def verdict (s : Scripted) (bank : StorageBank) (range : AddressRange) : Option Response :=
  match s.rules.find? fun rule => rule.range.overlaps range with
  | some rule => some rule.response
  | none =>
    if range.isEmpty || (bank.contents s.block).length ≤ range.last.toNat then some .addressError
    else none

/-- Reads into a buffer. -/
def read (s : Scripted) (bank : StorageBank) (range : AddressRange) (buffer : Bytes) :
    Response × Bytes :=
  match s.verdict bank range with
  | some response => (response, buffer)
  | none =>
    (.ok, buffer.overwrite 0 ((bank.contents s.block).slice range.start.toNat buffer.length))

/-- Writes bytes. -/
def write (s : Scripted) (bank : StorageBank) (range : AddressRange) (data : Bytes) :
    Response × StorageBank :=
  match s.verdict bank range with
  | some response => (response, bank)
  | none =>
    (.ok, bank.setContents s.block ((bank.contents s.block).overwrite range.start.toNat data))

/-- Records the request and gives the fixed answer. -/
def window (s : Scripted) (range : AddressRange) (attributes : Attributes) :
    Option DirectWindow × Scripted :=
  (s.offered, { s with asked := s.asked ++ [(range, attributes)] })

@[simp] theorem length_read (s : Scripted) (bank : StorageBank) (range : AddressRange)
    (buffer : Bytes) : (s.read bank range buffer).2.length = buffer.length := by
  unfold read
  split <;> simp

end Scripted

end Interconnect
