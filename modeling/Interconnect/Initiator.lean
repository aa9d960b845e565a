import Interconnect.Gate.Passage

/-!
# Initiators

An initiator makes accesses on behalf of one owner.  It keeps the windows that gates grant it, and
where one of them covers a plain access the bytes are moved in host storage without the gate.

## Main Definitions

* `Initiator` — the owner, the cache, and whether the cache is used
* `Initiator.pointerFor` — the host pointer that a cached window gives for a range
* `Initiator.direct`, `Initiator.throughGate` — an access through a window and through a gate
* `Initiator.access` — the first of the two that is possible

### Which windows are used

An exclusive access must meet the monitor and never goes through a window.  A debug write may go
through any window that can be read, because debug writes reach read-only storage too.  A window
whose host pointer is null at the address is no way to any storage and is not used.
-/

namespace Interconnect

universe u

/-- **The source of accesses of one owner.** -/
structure Initiator where
  /-- The owner in whose name accesses are made. -/
  owner : Owner
  /-- Whether direct windows are used and kept. -/
  allowDirect : Bool
  /-- The cache for windows. -/
  cache : CacheId
deriving DecidableEq

/-- What a caller asks of a single access. -/
structure AccessMode where
  /-- The access is made for debugging. -/
  debug : Bool
  /-- The access takes or needs a reservation. -/
  exclusive : Bool
  /-- No window is used, and none is kept. -/
  bypass : Bool
deriving DecidableEq

/-- An access without anything special. -/
def AccessMode.plain : AccessMode := ⟨false, false, false⟩

/-- **How an access ended.** -/
structure Completion where
  /-- The response. -/
  response : Response
  /-- The number of bytes moved. -/
  bytes : Nat
  /-- Whether it went through a window. -/
  direct : Bool
deriving DecidableEq

/-- Whether the access succeeded. -/
def Completion.isOk (c : Completion) : Bool := c.response = .ok

namespace Initiator

variable {σ : Type u}

/-- An initiator with a new cache of the given limit. -/
def create (owner : Owner) (limit : Option Nat) (net : Network) : Initiator × Network :=
  let (cache, net) := net.addCache limit
  (⟨owner, true, cache⟩, net)

/-- Allows or forbids the use of windows; without them the cache is emptied. -/
def setAllowDirect (i : Initiator) (allow : Bool) (net : Network) : Initiator × Network :=
  ({ i with allowDirect := allow },
    if allow then net else net.setCache i.cache (net.cache i.cache).clear)

/-- **The host pointer for the first address of `range`,** if a cached window covers the range,
allows the command and points to some storage there. -/
def pointerFor (i : Initiator) (range : AddressRange) (command : Command) (net : Network) :
    Option HostPointer × Network :=
  if i.allowDirect then
    let (found, cache) := (net.cache i.cache).lookup range command
    (found.bind fun w => (w.pointerAt range.start).filter fun p => !p.isNull,
      net.setCache i.cache cache)
  else (none, net)

/-- **The host pointer that an access may go through.** -/
def shortcut (i : Initiator) (command : Command) (address : UInt64) (length : Nat)
    (mode : AccessMode) (net : Network) : Option HostPointer × Network :=
  if mode.exclusive || mode.bypass || length = 0 then (none, net)
  else
    match AddressRange.ofSize address length with
    | .error _ => (none, net)
    | .ok range => i.pointerFor range (if mode.debug then .read else command) net

/-- **An access through host storage.**  It always succeeds. -/
def direct (command : Command) (p : HostPointer) (data : Bytes) (s : Station σ) :
    Bytes × Completion × Station σ :=
  let done : Completion := ⟨.ok, data.length, true⟩
  match command with
  | .read => (s.world.storage.load p data.length, done, s)
  | .write =>
    (data, done, s.setWorld { s.world with storage := s.world.storage.store p data })
  | .ignore => (data, done, s)

/-- The transaction that stands for an access.  The buffer of a read starts with zeros. -/
def transaction (i : Initiator) (command : Command) (address : UInt64) (data : Bytes)
    (mode : AccessMode) : Transaction :=
  { Transaction.ofData command address
      (if command = .write then data else List.replicate data.length 0) with
    owner := i.owner
    debug := mode.debug
    exclusive := mode.exclusive }

/-- Keeps a granted window.  The cache is bound to the gate first, so that the gate can take the
window back. -/
def keep (i : Initiator) (granted : Option DirectWindow) (mode : AccessMode) (s : Station σ) :
    Station σ :=
  match granted with
  | none => s
  | some w =>
    if i.allowDirect && !mode.bypass then
      let s := s.bind i.cache
      { s with network := s.network.setCache i.cache ((s.network.cache i.cache).insert w) }
    else s

/-- **An access through the gate.**  A read fills the buffer from the transaction whatever the
response, and an exclusive access that fails counts no bytes. -/
def throughGate (T : Target σ) (i : Initiator) (command : Command) (address : UInt64) (data : Bytes)
    (mode : AccessMode) (s : Station σ) : Except Interruption (Bytes × Completion × Station σ) :=
  match s.submit T (i.transaction command address data mode) with
  | (.error cause, _) => .error cause
  | (.ok (), p) =>
    let refused := mode.exclusive && p.tx.response ≠ .ok
    .ok (if command = .read then p.tx.data else data,
      ⟨p.tx.response, if refused then 0 else p.delivery.bytes, false⟩,
      i.keep p.delivery.grant mode p.station)

/-- **An access:** through a window where that is possible, and through the gate otherwise.  One
that moves nothing always goes to the gate. -/
def access (T : Target σ) (i : Initiator) (command : Command) (address : UInt64) (data : Bytes)
    (mode : AccessMode) (s : Station σ) : Except Interruption (Bytes × Completion × Station σ) :=
  if command = .ignore then i.throughGate T command address data mode s
  else
    let (found, net) := i.shortcut command address data.length mode s.network
    let s := { s with network := net }
    match found with
    | some p => .ok (direct command p data s)
    | none => i.throughGate T command address data mode s

end Initiator

end Interconnect
