import Interconnect.Range.Algebra
import Interconnect.Text.Hex
import Interconnect.Text.Blank

/-!
# The text of an address range

A range is written as its two bounds with two dots between them.  Both bounds take eight places if
they fit, and sixteen otherwise.  Reading is more generous: blanks around either bound, capital
letters, any number of digits and one plus sign after the marker are accepted.

## Main Definitions

* `AddressRange.render` — the written form
* `AddressRange.parse` — the reader
* `RangeError.message` — what is said of a range that cannot be
-/

namespace Interconnect

namespace AddressRange

/-- Both bounds in eight places, or in sixteen if either needs more than eight. -/
def render (r : AddressRange) : String :=
  let places := if r.start < 0x100000000 ∧ r.last < 0x100000000 then 8 else 16
  Hex.padded places r.start.toNat ++ ".." ++ Hex.padded places r.last.toNat

/-- The texts before and after the first two dots in a row. -/
def splitAtDots : List Char → Option (List Char × List Char)
  | [] => none
  | '.' :: '.' :: rest => some ([], rest)
  | c :: rest => (splitAtDots rest).map fun halves => (c :: halves.1, halves.2)

/-- What follows the marker of a hexadecimal numeral. -/
def afterMarker : List Char → Option (List Char)
  | '0' :: 'x' :: ds => some ds
  | '0' :: 'X' :: ds => some ds
  | _ => none

/-- The digits without a plus sign in front of them. -/
def withoutPlus : List Char → List Char
  | '+' :: ds => ds
  | ds => ds

/-- **One bound of a range:** a marked hexadecimal numeral below 2⁶⁴ between blanks. -/
def readBound (cs : List Char) : Option UInt64 := do
  let ds ← afterMarker (Text.trim cs)
  let n ← Hex.value? (withoutPlus ds)
  if n < UInt64.size then some (UInt64.ofNat n) else none

/-- **Reads a range.**  Bounds that are numerals but out of order are reported as such; any other
fault makes the whole text unreadable. -/
def parse (text : String) : Except RangeError AddressRange :=
  match splitAtDots text.toList with
  | none => .error (.unreadable text)
  | some (low, high) =>
    match readBound low, readBound high with
    | some start, some last => ofBounds start last
    | _, _ => .error (.unreadable text)

end AddressRange

/-- The bounds of a failed range, each as short as it can be. -/
private def boundsText (start last : UInt64) : String :=
  Hex.short start.toNat ++ ".." ++ Hex.short last.toNat

/-- What is said of a range that cannot be built, moved or read. -/
def RangeError.message : RangeError → String
  | .invalid start last =>
    "invalid range: " ++ Hex.padded 16 start.toNat ++ ".." ++ Hex.padded 16 last.toNat
  | .overflow start last offset =>
    "range overflow when adding " ++ Hex.short offset ++ " to " ++ boundsText start last
  | .underflow start last offset =>
    "range underflow when subtracting " ++ Hex.short offset ++ " from " ++ boundsText start last
  | .unreadable text =>
    "cannot parse `" ++ text ++ "` as a range (expected `0xSTART..0xEND`)"

end Interconnect
