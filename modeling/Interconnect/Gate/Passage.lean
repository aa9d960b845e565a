import Interconnect.Fault
import Interconnect.Gate.Grant
import Interconnect.Transfer.Plan

/-!
# The passage of a transaction

A transaction that a gate accepts is admitted by the monitor, broken into pieces, and carried out
piece by piece until the target answers anything but success.  A plain transaction that succeeds and
meets no reservation may be answered with a direct window for later accesses.

## Main Definitions

* `Interruption` — why a transaction breaks off
* `Delivery` — what a gate reports besides the response
* `Passage.carry` — one piece of a transfer
* `Passage.carryAll` — the pieces in order, up to the first that fails
* `Station.submit` — the whole path of a transaction through a gate
* `Station.transport` — the same, as the report on it

### Who sees what

A transaction that is refused before the first piece has had no effect: neither the target nor the
monitor, the clock or any cache has seen it.  Debug transactions pass the monitor by, cost no cycles
and neither withdraw nor receive windows.  An exclusive access is admitted or refused as a whole,
over the addresses that it touches; a plain write breaks reservations piece by piece.

### Breaking off

Ranges are made and slices are cut while a transfer is under way, the report adds up cycles in a
word, and an exclusive read waits for a withdrawal.  Any of these may put an end to a transaction in
the middle, so every step tells its outcome together with what has been done by then.
-/

namespace Interconnect

universe u

/-- **Why a transaction breaks off.** -/
inductive Interruption where
  /-- A fault that is reported. -/
  | fault (cause : Fault)
  /-- A slice that reaches beyond the buffer. -/
  | noSlice (offset length : Nat)
  /-- More cycles to report than a word can hold. -/
  | overflow
  /-- A withdrawal that goes round for ever. -/
  | endless
deriving DecidableEq

/-- **What a gate reports of a transaction besides its response.** -/
structure Delivery where
  /-- The bytes moved by the pieces that succeeded. -/
  bytes : Nat
  /-- The number of pieces that succeeded. -/
  accesses : Nat
  /-- The cycles that they cost. -/
  cycles : UInt64
  /-- A window that the initiator may keep. -/
  grant : Option DirectWindow
deriving DecidableEq

/-- Nothing moved and nothing granted. -/
def Delivery.nothing : Delivery := ⟨0, 0, 0, none⟩

/-- A transaction with its report and everything that it acts upon. -/
structure Passage (σ : Type u) where
  /-- The transaction. -/
  tx : Transaction
  /-- The report so far. -/
  delivery : Delivery
  /-- The gate and what it acts upon. -/
  station : Station σ

namespace Passage

variable {σ : Type u}

/-- The passage with its response; after a failure nothing may be accessed directly. -/
def answer (p : Passage σ) (response : Response) : Passage σ :=
  { p with
    tx := { p.tx with
      response := response
      directAllowed := p.tx.directAllowed && response = .ok } }

/-- Changes the state behind the transaction. -/
def setStation (p : Passage σ) (s : Station σ) : Passage σ := { p with station := s }

/-! ### Before the first piece -/

/-- **An exclusive read takes back the windows over what it will reserve,** and a plain transaction
becomes a candidate for a window; debug transactions do neither.  Nothing follows a withdrawal that
never ends. -/
def prepare (range : AddressRange) (p : Passage σ) : Option (Passage σ) :=
  if p.tx.debug || !p.station.gate.config.allowDirect then some p
  else if p.tx.exclusive then
    if p.tx.command = .read then
      (p.station.withdraw range).map fun outcome => p.setStation outcome.2
    else some p
  else some { p with tx := { p.tx with directAllowed := true } }

/-- **The monitor's verdict on an exclusive transaction,** over the addresses of one pulse.  Every
other transaction is admitted as it is. -/
def admission (p : Passage σ) : Except RangeError (Option (Passage σ)) :=
  if p.tx.exclusive && !p.tx.debug then
    (AddressRange.ofSize p.tx.address p.tx.width).map fun range =>
      (p.station.gate.monitor.apply ⟨range, p.tx.command, p.tx.owner, true⟩).map fun monitor =>
        p.setStation (p.station.setMonitor monitor)
  else .ok (some p)

/-! ### Piece by piece -/

/-- **What the monitor does with one piece:** a reservation there rules out a window, and a plain
write breaks it. -/
def watch (range : AddressRange) (p : Passage σ) : Passage σ :=
  if p.tx.debug then p
  else
    let m := p.station.gate.monitor
    let p := { p with tx := { p.tx with directAllowed := p.tx.directAllowed && !m.watches range } }
    if p.tx.exclusive then p
    else p.setStation (p.station.setMonitor
      ((m.apply ⟨range, p.tx.command, p.tx.owner, false⟩).getD m))

/-- **The target's answer to one piece.**  The bytes of the piece are cut out of the buffer, handed
to the target and, for a read, put back. -/
def ask (T : Target σ) (range : AddressRange) (piece : Piece) (p : Passage σ) :
    Response × Passage σ :=
  let attributes := p.station.attributes p.tx.owner p.tx.debug p.tx.exclusive
  let slice := Bytes.slice p.tx.data piece.offset piece.length
  match p.tx.command with
  | .read =>
    let (response, bytes, world) := T.read range attributes slice p.station.world
    (response,
      { p with
        tx := { p.tx with data := Bytes.overwrite p.tx.data piece.offset bytes }
        station := p.station.setWorld world })
  | .write =>
    let (response, world) := T.write range attributes slice p.station.world
    (response, p.setStation (p.station.setWorld world))
  | .ignore => (.ok, p)

/-- **Counts a piece that succeeded** and, unless it was made for debugging, the cycles it cost.
The clock stops at the greatest word, and the report cannot go beyond it. -/
def count (piece : Piece) (p : Passage σ) : Except Interruption Response × Passage σ :=
  let p := { p with delivery := { p.delivery with
    bytes := p.delivery.bytes + piece.length, accesses := p.delivery.accesses + 1 } }
  if p.tx.debug then (.ok .ok, p)
  else
    let latency := p.station.gate.config.latency p.tx.command
    let p := p.setStation (p.station.charge latency)
    if p.delivery.cycles.toNat + latency.toNat < UInt64.size then
      (.ok .ok, { p with delivery := { p.delivery with cycles := p.delivery.cycles + latency } })
    else (.error .overflow, p)

/-- **One piece of a transfer.**  It needs a range before anything is done about it, and a slice of
the buffer before the target is asked.  A target that leaves the piece unanswered counts as one that
does not exist there. -/
def carry (T : Target σ) (piece : Piece) (p : Passage σ) :
    Except Interruption Response × Passage σ :=
  match AddressRange.ofSize piece.address piece.length with
  | .error e => (.error (.fault (.range e)), p)
  | .ok range =>
    let p := p.watch range
    if p.tx.data.length < piece.offset + piece.length then
      (.error (.noSlice piece.offset piece.length), p)
    else
      match p.ask T range piece with
      | (.ok, p) => p.count piece
      | (.incomplete, p) => (.ok .addressError, p)
      | (refused, p) => (.ok refused, p)

/-- **The pieces in order, up to the first that fails.** -/
def carryAll (T : Target σ) : List Piece → Passage σ → Except Interruption Response × Passage σ
  | [], p => (.ok .ok, p)
  | piece :: rest, p =>
    match p.carry T piece with
    | (.ok .ok, p) => carryAll T rest p
    | ended => ended

@[simp] theorem carryAll_nil (T : Target σ) (p : Passage σ) : p.carryAll T [] = (.ok .ok, p) := rfl

/-! ### After the last piece -/

/-- Asks for a window over a range if the transaction still qualifies for one. -/
def reward (T : Target σ) (range : AddressRange) (p : Passage σ) : Passage σ :=
  if p.tx.directAllowed then
    let (granted, s) :=
      p.station.grant T ⟨range, p.tx.command, p.tx.owner, p.tx.exclusive⟩
    { p with delivery := { p.delivery with grant := granted }, station := s }
  else p

/-- **The end of a transfer:** a window over the whole buffer, if the transaction qualifies. -/
def conclude (T : Target σ) (p : Passage σ) : Except Interruption Unit × Passage σ :=
  if p.tx.directAllowed then
    match p.tx.range with
    | .error e => (.error (.fault (.range e)), p)
    | .ok range => (.ok (), p.reward T range)
  else (.ok (), p)

/-! ### The whole path -/

/-- **An accepted transaction:** admission, all pieces, and perhaps a window. -/
def perform (T : Target σ) (range : AddressRange) (p : Passage σ) :
    Except Interruption Unit × Passage σ :=
  match p.prepare range with
  | none => (.error .endless, p)
  | some p =>
    match p.admission with
    | .error e => (.error (.fault (.range e)), p)
    | .ok none => (.ok (), p.answer .commandError)
    | .ok (some p) =>
      let pieces := plan p.tx.address p.tx.data.length p.tx.streamingWidth p.tx.byteEnable
      match p.carryAll T pieces with
      | (.error cause, p) => (.error cause, p)
      | (.ok response, p) => (p.answer response).conclude T

end Passage

namespace Station

variable {σ : Type u}

/-- **The path of a transaction through a gate.**  One that has been answered before or carries no
data is a fault of the initiator.  Otherwise it is answered with an address error if it leaves the
address space, with success if it asks for nothing, and with a command error if it breaks the rules
of the gate or is not admitted. -/
def submit (T : Target σ) (tx : Transaction) (s : Station σ) :
    Except Interruption Unit × Passage σ :=
  if tx.response ≠ .incomplete then
    (.error (.fault (.staleResponse tx.address tx.response)), ⟨tx, .nothing, s⟩)
  else if tx.data = [] then (.error (.fault (.emptyTransaction tx.address)), ⟨tx, .nothing, s⟩)
  else
    let p : Passage σ := ⟨{ tx with directAllowed := false }, .nothing, s⟩
    match tx.range with
    | .error _ => (.ok (), p.answer .addressError)
    | .ok range =>
      if tx.command = .ignore then (.ok (), p.answer .ok)
      else if s.gate.config.accepts tx then p.perform T range
      else (.ok (), p.answer .commandError)

/-- **The path of a transaction,** as the report on it or the reason why it broke off, with the
transaction and the station as they stand in the end. -/
def transport (T : Target σ) (tx : Transaction) (s : Station σ) :
    Except Interruption Delivery × Transaction × Station σ :=
  let ended := s.submit T tx
  (ended.1.map fun _ => ended.2.delivery, ended.2.tx, ended.2.station)

end Station

end Interconnect
