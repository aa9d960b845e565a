import Interconnect.Access.Basic
import Interconnect.Bytes

/-!
# Transactions

A transaction is what an initiator hands to a gate: a command, an address and a buffer, with an
optional byte-enable mask and streaming width.  The gate fills in the response, and for a read the
buffer.

## Main Definitions

* `Transaction` — the request together with its outcome
* `Transaction.range`, `Transaction.access` — the addresses it spans
-/

namespace Interconnect

/-- **A request on its way through a gate, together with its outcome.** -/
structure Transaction where
  /-- What is asked for. -/
  command : Command
  /-- Where it starts. -/
  address : UInt64
  /-- The bytes to be written, or the place for those that are read. -/
  data : Bytes
  /-- The initiator. -/
  owner : Owner
  /-- Which bytes of a pulse take part: those whose mask byte is not zero. -/
  byteEnable : Option Bytes
  /-- The length of a pulse, if the transfer repeats at one address. -/
  streamingWidth : Option Nat
  /-- Whether the access is made for debugging. -/
  debug : Bool
  /-- Whether the access takes or needs a reservation. -/
  exclusive : Bool
  /-- The outcome so far. -/
  response : Response
  /-- Whether the addresses may be accessed directly from now on. -/
  directAllowed : Bool
deriving DecidableEq

namespace Transaction

/-- A plain transaction of the first initiator that has not been answered. -/
def ofData (command : Command) (address : UInt64) (data : Bytes) : Transaction where
  command := command
  address := address
  data := data
  owner := 0
  byteEnable := none
  streamingWidth := none
  debug := false
  exclusive := false
  response := .incomplete
  directAllowed := false

/-- The addresses that the buffer spans, as if no streaming took place. -/
def range (tx : Transaction) : Except RangeError AddressRange :=
  AddressRange.ofSize tx.address tx.data.length

/-- The access that the whole buffer stands for. -/
def access (tx : Transaction) : Except RangeError Access :=
  tx.range.map fun range => ⟨range, tx.command, tx.owner, tx.exclusive⟩

/-- The bytes in one pulse: the streaming width, or the whole buffer without one. -/
def width (tx : Transaction) : Nat := tx.streamingWidth.getD tx.data.length

/-- The transaction made ready to be issued again. -/
def reset (tx : Transaction) : Transaction :=
  { tx with response := .incomplete, directAllowed := false }

@[simp] theorem response_reset (tx : Transaction) : tx.reset.response = .incomplete := rfl

@[simp] theorem directAllowed_reset (tx : Transaction) : tx.reset.directAllowed = false := rfl

end Transaction

end Interconnect
