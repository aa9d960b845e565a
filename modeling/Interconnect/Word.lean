/-!
# Words

Counters and bounds are 64-bit words.  Where a sum must not wrap it stops at the greatest word.

## Main Definitions

* `Word.addUpTo` — the sum of two words, or the greatest word where it does not fit
* `Word.widen` — a word in 128 bits
-/

namespace Interconnect.Word

/-- The greatest word. -/
def greatest : UInt64 := 0 - 1

/-- **The sum of two words, or the greatest word where it does not fit.**  A sum has wrapped exactly
when it is smaller than its first term. -/
def addUpTo (a b : UInt64) : UInt64 := if a ≤ a + b then a + b else greatest

/-- The word in 128 bits, where a product with another word has room. -/
def widen (a : UInt64) : BitVec 128 := a.toBitVec.setWidth 128

theorem toNat_greatest : greatest.toNat = UInt64.size - 1 := by decide

/-- A sum of words has not wrapped exactly if it fits. -/
theorem le_add_iff {a b : UInt64} : a ≤ a + b ↔ a.toNat + b.toNat < UInt64.size := by
  have := a.toNat_lt
  have := b.toNat_lt
  rw [UInt64.le_iff_toNat_le, UInt64.toNat_add, UInt64.size]
  omega

theorem toNat_addUpTo (a b : UInt64) :
    (addUpTo a b).toNat = min (a.toNat + b.toNat) (UInt64.size - 1) := by
  unfold addUpTo
  split
  · next fits =>
      rw [le_add_iff, UInt64.size] at fits
      rw [UInt64.toNat_add, UInt64.size]
      omega
  · next wraps =>
      rw [le_add_iff] at wraps
      rw [toNat_greatest]
      omega

@[simp] theorem toNat_widen (a : UInt64) : (widen a).toNat = a.toNat := by
  rw [widen, BitVec.toNat_setWidth, UInt64.toNat_toBitVec]
  have := a.toNat_lt
  omega

end Interconnect.Word
