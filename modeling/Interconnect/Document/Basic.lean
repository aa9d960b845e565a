/-!
# Documents

Configurations and values of the interconnect are read from structured documents.  A document is
read strictly: a value has the kind that is asked for or is refused, while fields that nobody asks
for are ignored.

## Main Definitions

* `Document` — the values a document can hold
* `word?`, `flag?`, `optional?` — the readers for single values
* `variant?` — the reader for a choice among names
* `Document.field?` — a field of a record, given by name or by place

### Records and choices

A record is written as an object with named fields, or as a list of its fields in order.  A choice
that carries nothing is written as its name, or as an object whose only field is the name with the
value `null`.
-/

namespace Interconnect

/-- **A structured value.** -/
inductive Document where
  /-- The absent value. -/
  | null
  /-- A truth value. -/
  | flag (value : Bool)
  /-- A number without a fraction. -/
  | integer (value : Int)
  /-- A number written with a fraction or an exponent; no reader accepts one. -/
  | fraction
  /-- A text. -/
  | text (value : String)
  /-- A list of values. -/
  | list (items : List Document)
  /-- Named fields. -/
  | object (fields : List (String × Document))

namespace Document

instance : Inhabited Document := ⟨null⟩

/-! ### Single values -/

/-- The truth value that the document holds. -/
def flag? : Document → Option Bool
  | flag value => some value
  | _ => none

/-- A number below `bound`. -/
def natBelow? (bound : Nat) : Document → Option Nat
  | integer value => if 0 ≤ value ∧ value < bound then some value.toNat else none
  | _ => none

/-- A number that fits into a word. -/
def word? (d : Document) : Option UInt64 := (d.natBelow? UInt64.size).map UInt64.ofNat

/-- An optional value: `null` stands for none. -/
def optional? {α : Type} (read : Document → Option α) : Document → Option (Option α)
  | null => some none
  | d => (read d).map some

/-! ### Choices -/

/-- The name of a choice that carries nothing. -/
def choice? : Document → Option String
  | text name => some name
  | object [(name, null)] => some name
  | _ => none

/-- The value that a table gives for the name in the document. -/
def variant? {α : Type} (table : List (String × α)) (d : Document) : Option α :=
  d.choice?.bind fun name => table.lookup name

/-! ### Records -/

/-- **The value of the field with the given name and place, if it is written.**  Fails on a document
that is no record. -/
def field? (name : String) (place : Nat) : Document → Option (Option Document)
  | object fields => some (fields.lookup name)
  | list items => some items[place]?
  | _ => none

/-- A field that has a default when it is not written. -/
def fieldOr {α : Type} (name : String) (place : Nat) (default : α) (read : Document → Option α)
    (d : Document) : Option α :=
  (d.field? name place).bind fun
    | none => some default
    | some value => read value

/-- A field that must be written. -/
def required {α : Type} (name : String) (place : Nat) (read : Document → Option α) (d : Document) :
    Option α :=
  (d.field? name place).bind fun written => written.bind read

/-- Whether a record written as a list has no more than `count` items. -/
def fits (count : Nat) : Document → Bool
  | list items => items.length ≤ count
  | _ => true

end Document

end Interconnect
