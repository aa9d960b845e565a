import Interconnect.Range.Basic

/-!
# Accesses

What an initiator may ask of a target, how the target answers, and the description of one contiguous
access that monitors and targets look at.

## Main Definitions

* `Command`, `Response` — the request and the outcome
* `Permission` — which commands a direct window serves
* `Access` — one contiguous access as the monitor sees it
* `Attributes` — what a target learns of the transaction behind an access
-/

namespace Interconnect

/-- What a transaction asks for. -/
inductive Command where
  /-- Bytes move from the target. -/
  | read
  /-- Bytes move to the target. -/
  | write
  /-- Nothing moves. -/
  | ignore
deriving DecidableEq, Repr

/-- The name of a command in messages. -/
def Command.render : Command → String
  | .read => "read"
  | .write => "write"
  | .ignore => "ignore"

/-- The outcome of an access. -/
inductive Response where
  /-- Not answered yet. -/
  | incomplete
  /-- Carried out. -/
  | ok
  /-- Nothing answers at this address. -/
  | addressError
  /-- The target refuses the command. -/
  | commandError
deriving DecidableEq, Repr

instance : Inhabited Response := ⟨.incomplete⟩

namespace Response

/-- Whether the access was refused. -/
def isError : Response → Bool
  | addressError | commandError => true
  | incomplete | ok => false

/-- The name of a response in messages. -/
def render : Response → String
  | incomplete => "incomplete"
  | ok => "ok"
  | addressError => "address error"
  | commandError => "command error"

end Response

/-- **Which commands may use a direct window.** -/
structure Permission where
  /-- Reads are allowed. -/
  read : Bool
  /-- Writes are allowed. -/
  write : Bool
deriving DecidableEq, Repr

namespace Permission

/-- Neither reads nor writes. -/
def none : Permission := ⟨false, false⟩

/-- Reads only. -/
def readOnly : Permission := ⟨true, false⟩

/-- Writes only. -/
def writeOnly : Permission := ⟨false, true⟩

/-- Reads and writes. -/
def readWrite : Permission := ⟨true, true⟩

/-- The place of a permission in the order: reading counts one and writing two. -/
def rank (p : Permission) : Nat := p.read.toNat + 2 * p.write.toNat

/-- Whether the permission covers a command.  One that moves nothing is always allowed. -/
def allows (p : Permission) : Command → Bool
  | .read => p.read
  | .write => p.write
  | .ignore => true

/-- The least permission that covers a command. -/
def ofCommand : Command → Permission
  | .read => readOnly
  | .write => writeOnly
  | .ignore => none

@[simp] theorem allows_ofCommand (c : Command) : (ofCommand c).allows c = true := by
  cases c <;> rfl

end Permission

/-- The number of the initiator on whose behalf an access is made. -/
abbrev Owner := UInt32

/-- The number that tells the address spaces behind one target apart. -/
abbrev SpaceTag := UInt16

/-- The name of an address space in messages. -/
def SpaceTag.render (tag : SpaceTag) : String := "space#" ++ toString tag.toNat

/-- **One contiguous access,** as far as reservations are concerned. -/
structure Access where
  /-- The addresses touched. -/
  range : AddressRange
  /-- The command. -/
  command : Command
  /-- The initiator. -/
  owner : Owner
  /-- Whether the access takes or needs a reservation. -/
  exclusive : Bool
deriving DecidableEq

/-- **What a target learns of the transaction behind an access.** -/
structure Attributes where
  /-- The address space that is meant. -/
  space : SpaceTag
  /-- The initiator. -/
  owner : Owner
  /-- Whether the access is made for debugging and has no side effects. -/
  debug : Bool
  /-- Whether the access takes or needs a reservation. -/
  exclusive : Bool
deriving DecidableEq

end Interconnect
