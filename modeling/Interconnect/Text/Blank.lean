/-!
# Blanks

A blank is a character with the Unicode property `White_Space`.  Text that a person wrote is read
without the blanks around it.

## Main Definitions

* `Text.isBlank` — the property, as a list of code points
* `Text.trim` — a text without the blanks at either end
-/

namespace Interconnect.Text

/-- The code points with the property `White_Space`: the five controls from tab to carriage return,
the two ASCII and Latin spaces, next line, and the spaces and separators of general punctuation and
of the Ogham and ideographic blocks. -/
def isBlank (c : Char) : Bool :=
  let n := c.toNat
  (9 ≤ n && n ≤ 13) || n == 0x20 || n == 0x85 || n == 0xA0 || n == 0x1680
    || (0x2000 ≤ n && n ≤ 0x200A) || n == 0x2028 || n == 0x2029 || n == 0x202F || n == 0x205F
    || n == 0x3000

/-- The text without the blanks at either end. -/
def trim (cs : List Char) : List Char :=
  ((cs.dropWhile isBlank).reverse.dropWhile isBlank).reverse

end Interconnect.Text
