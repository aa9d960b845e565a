import Interconnect.Document.Basic

/-!
# Interrupt pins

A device has four interrupt pins, and a host has four lines of the same names.  Which line a pin
drives depends on the slot: from slot to slot the pins are turned by one.

## Main Definitions

* `Pci.Pin` — the four pins, and the four lines
* `Pci.Pin.swizzle` — the line that a pin drives
-/

namespace Interconnect.Pci

/-- The four interrupt pins of a device, and the four lines of a host. -/
inductive Pin where
  /-- The first pin. -/
  | a
  /-- The second pin. -/
  | b
  /-- The third pin. -/
  | c
  /-- The fourth pin. -/
  | d
deriving DecidableEq, Repr

namespace Pin

/-- All pins in order. -/
def all : List Pin := [a, b, c, d]

/-- The place of a pin among the four, from zero. -/
def index : Pin → Nat
  | a => 0
  | b => 1
  | c => 2
  | d => 3

/-- The pin at a place, counted modulo four. -/
def ofIndex (n : Nat) : Pin :=
  match n % 4 with
  | 0 => a
  | 1 => b
  | 2 => c
  | _ => d

/-- The number of a pin as devices report it, from one. -/
def number (p : Pin) : Nat := p.index + 1

/-- The pin that a device reports, if there is one. -/
def ofNumber? (n : Nat) : Option Pin :=
  if 1 ≤ n ∧ n ≤ 4 then some (ofIndex (n - 1)) else none

/-- **The line that a pin of a device in `slot` drives.** -/
def swizzle (p : Pin) (slot : Nat) : Pin := ofIndex (p.index + slot)

/-- Reads a pin from its name. -/
def ofDocument? : Document → Option Pin :=
  Document.variant? [("A", a), ("B", b), ("C", c), ("D", d)]

/-- The name of a pin. -/
def render : Pin → String
  | a => "A"
  | b => "B"
  | c => "C"
  | d => "D"

@[simp] theorem ofIndex_index (p : Pin) : ofIndex p.index = p := by cases p <;> rfl

@[simp] theorem ofNumber?_number (p : Pin) : ofNumber? p.number = some p := by cases p <;> rfl

end Pin

end Interconnect.Pci
