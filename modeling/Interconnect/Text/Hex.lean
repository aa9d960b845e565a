/-!
# Hexadecimal numerals

Numbers appear in messages with lower-case hexadecimal digits, either as few as will do or in a
fixed number of places; on input the letters may have either case.

## Main Definitions

* `Hex.fixed` — the numeral of a given number of places
* `Hex.digits` — the shortest numeral
* `Hex.value?` — the number that a row of digits denotes
-/

namespace Interconnect.Hex

/-- The digit for a number below sixteen. -/
def digit (d : Nat) : Char := Char.ofNat (if d < 10 then 48 + d else 87 + d)

/-- The value of a digit, a letter counting in either case. -/
def digitValue? (c : Char) : Option Nat :=
  let n := c.toNat
  if 48 ≤ n ∧ n ≤ 57 then some (n - 48)
  else if 97 ≤ n ∧ n ≤ 102 then some (n - 87)
  else if 65 ≤ n ∧ n ≤ 70 then some (n - 55)
  else none

/-- **The last `places` digits of `n`,** with zeros in front of a shorter numeral. -/
def fixed : (places : Nat) → (n : Nat) → List Char
  | 0, _ => []
  | places + 1, n => fixed places (n / 16) ++ [digit (n % 16)]

@[simp] theorem fixed_zero (n : Nat) : fixed 0 n = [] := rfl

@[simp] theorem fixed_succ (places n : Nat) :
    fixed (places + 1) n = fixed places (n / 16) ++ [digit (n % 16)] := rfl

@[simp] theorem length_fixed (places n : Nat) : (fixed places n).length = places := by
  induction places generalizing n with
  | zero => rfl
  | succ places ih => simp [ih]

/-- The shortest numeral of `n`. -/
def digits (n : Nat) : List Char :=
  if n < 16 then [digit n] else digits (n / 16) ++ [digit (n % 16)]

/-- The number that a row of digits denotes: none of no digits or of a foreign character. -/
def value? (cs : List Char) : Option Nat :=
  if cs = [] then none else cs.foldlM (fun n c => (digitValue? c).map (16 * n + ·)) 0

/-- The shortest numeral of `n` behind its marker. -/
def short (n : Nat) : String := String.ofList ('0' :: 'x' :: digits n)

/-- The numeral of `n` in `places` places behind its marker. -/
def padded (places n : Nat) : String := String.ofList ('0' :: 'x' :: fixed places n)

end Interconnect.Hex
