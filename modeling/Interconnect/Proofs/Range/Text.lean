import Mathlib.Data.List.Forall2
import Mathlib.Data.List.TakeWhile
import Mathlib.Data.Nat.Digits.Defs
import Interconnect.Range.Text
import Interconnect.Proofs.Range

/-!
# Which texts denote a range

The written form of a range as a grammar: two dots, on either side a marked numeral among blanks.
The grammar says which texts belong to it and what they stand for, and nothing about how they are
read.  Reading accepts these texts and no others.

## Main Definitions

* `Hex.IsDigit`, `Hex.Denotes` — digits by their places in two rows, numerals by their positions
* `AddressRange.IsNumeral`, `AddressRange.IsBound` — a marked numeral, alone and among blanks
* `AddressRange.IsText` — a text with its two bounds

## Main Statements

* `Hex.value?_eq_some_iff` — what a row of digits denotes
* `Text.trim_append`, `Text.exists_blanks_trim` — a text and the blanks around it
* `AddressRange.splitAtDots_eq_some_iff` — the first two dots
* `AddressRange.readBound_eq_some_iff` — which parts are bounds
* `AddressRange.parse_spec` — which texts are read, as what, and what is wrong with the others

### The first two dots

Dots may overlap: of three in a row, the first two are the separator and the third belongs to the
upper part.  That no two dots come earlier is therefore asked of the lower part together with the
first dot after it.
-/

namespace Interconnect

/-! ### Digits and numerals -/

namespace Hex

/-- The digits in order, with small letters. -/
def smallDigits : List Char :=
  ['0', '1', '2', '3', '4', '5', '6', '7', '8', '9', 'a', 'b', 'c', 'd', 'e', 'f']

/-- The digits in order, with capital letters. -/
def capitalDigits : List Char :=
  ['0', '1', '2', '3', '4', '5', '6', '7', '8', '9', 'A', 'B', 'C', 'D', 'E', 'F']

/-- **The digit for a number** stands at that place in one of the two rows. -/
def IsDigit (c : Char) (d : Nat) : Prop := smallDigits[d]? = some c ∨ capitalDigits[d]? = some c

instance (c : Char) (d : Nat) : Decidable (IsDigit c d) :=
  inferInstanceAs (Decidable (smallDigits[d]? = some c ∨ capitalDigits[d]? = some c))

/-- **What a row of digits denotes:** at least one digit, each worth sixteen times the next. -/
def Denotes (digits : List Char) (n : Nat) : Prop :=
  digits ≠ [] ∧ ∃ values, List.Forall₂ IsDigit digits values ∧ n = Nat.ofDigits 16 values.reverse

theorem IsDigit.lt {c : Char} {d : Nat} (h : IsDigit c d) : d < 16 := by
  rcases h with small | capital
  · exact (List.getElem?_eq_some_iff.1 small).1
  · exact (List.getElem?_eq_some_iff.1 capital).1

/-- The digits of both rows have the values of their places. -/
theorem digitValue?_of_isDigit {c : Char} {d : Nat} (h : IsDigit c d) : digitValue? c = some d := by
  have rows : ∀ d < 16, smallDigits[d]?.bind digitValue? = some d ∧
      capitalDigits[d]?.bind digitValue? = some d := by decide
  obtain ⟨inSmall, inCapital⟩ := rows d h.lt
  rcases h with small | capital
  · rwa [small] at inSmall
  · rwa [capital] at inCapital

/-- Every character with a value is a digit of one row. -/
theorem isDigit_of_digitValue? {c : Char} {d : Nat} (h : digitValue? c = some d) : IsDigit c d := by
  have table : ∀ n < 103, ∀ d ∈ digitValue? (Char.ofNat n), IsDigit (Char.ofNat n) d := by decide
  have small : c.toNat < 103 := by
    simp only [digitValue?] at h
    split at h
    · omega
    · split at h
      · omega
      · split at h
        · omega
        · cases h
  have valued := table c.toNat small d
  rw [Char.ofNat_toNat] at valued
  exact valued h

theorem digitValue?_eq_some_iff {c : Char} {d : Nat} : digitValue? c = some d ↔ IsDigit c d :=
  ⟨isDigit_of_digitValue?, digitValue?_of_isDigit⟩

/-- The first digit of a numeral is worth the most. -/
private theorem ofDigits_reverse_cons (d : Nat) (values : List Nat) :
    Nat.ofDigits 16 (d :: values).reverse =
      16 ^ values.length * d + Nat.ofDigits 16 values.reverse := by
  rw [List.reverse_cons, Nat.ofDigits_append, Nat.ofDigits_singleton, List.length_reverse,
    Nat.add_comm]

/-- **Reading on from a number:** it is moved up by as many places as there are digits. -/
theorem foldlM_digits_eq_some_iff {cs : List Char} {m n : Nat} :
    cs.foldlM (fun n c => (digitValue? c).map (16 * n + ·)) m = some n ↔
      ∃ values, List.Forall₂ IsDigit cs values ∧
        n = 16 ^ cs.length * m + Nat.ofDigits 16 values.reverse := by
  induction cs generalizing m with
  | nil =>
      constructor
      · rintro ⟨⟩
        exact ⟨[], .nil, by simp⟩
      · rintro ⟨values, digits, rfl⟩
        cases digits
        simp
  | cons c rest ih =>
      rw [List.foldlM_cons]
      constructor
      · intro read
        obtain ⟨next, first, read⟩ := Option.bind_eq_some_iff.1 read
        obtain ⟨d, valued, rfl⟩ := Option.map_eq_some_iff.1 first
        obtain ⟨values, digits, rfl⟩ := ih.1 read
        refine ⟨d :: values, .cons (digitValue?_eq_some_iff.1 valued) digits, ?_⟩
        rw [ofDigits_reverse_cons, ← digits.length_eq, List.length_cons]
        ring
      · rintro ⟨values, digits, rfl⟩
        cases digits with
        | @cons _ d _ values digit digits =>
            refine Option.bind_eq_some_iff.2 ⟨16 * m + d, ?_, ih.2 ⟨values, digits, ?_⟩⟩
            · rw [digitValue?_eq_some_iff.2 digit]
              rfl
            · rw [ofDigits_reverse_cons, ← digits.length_eq, List.length_cons]
              ring

/-- **The number of a row of digits** is the one that it denotes. -/
theorem value?_eq_some_iff {cs : List Char} {n : Nat} : value? cs = some n ↔ Denotes cs n := by
  unfold value? Denotes
  split
  · next none => simp [none]
  · next some => simp [some, foldlM_digits_eq_some_iff]

/-- A digit is not a blank. -/
theorem IsDigit.isBlank_eq_false {c : Char} {d : Nat} (h : IsDigit c d) :
    Text.isBlank c = false := by
  have rows : (smallDigits ++ capitalDigits).all (! Text.isBlank ·) = true := by decide
  have inRows : c ∈ smallDigits ++ capitalDigits :=
    List.mem_append.2 (h.imp List.mem_of_getElem? List.mem_of_getElem?)
  simpa using List.all_eq_true.1 rows c inRows

/-- A row of digits has no blanks in it. -/
theorem Denotes.isBlank_eq_false {digits : List Char} {n : Nat} (h : Denotes digits n) :
    ∀ c ∈ digits, Text.isBlank c = false := by
  obtain ⟨-, values, digits, -⟩ := h
  induction digits with
  | nil => simp
  | cons digit _ ih => exact List.forall_mem_cons.2 ⟨digit.isBlank_eq_false, ih⟩

end Hex

/-! ### Blanks around a text -/

namespace Text

/-- What stands behind characters of a kind is left when they are dropped, if it starts with
another. -/
theorem dropWhile_append {p : Char → Bool} {front rest : List Char}
    (inside : ∀ c ∈ front, p c = true) (stops : ∀ c, rest.head? = some c → p c = false) :
    (front ++ rest).dropWhile p = rest := by
  rw [List.dropWhile_append_of_pos inside]
  cases rest with
  | nil => rfl
  | cons c tail => simp [stops c rfl]

/-- **Blanks around a text without blanks are taken off.** -/
theorem trim_append {before core after : List Char} (something : core ≠ [])
    (bare : ∀ c ∈ core, isBlank c = false) (left : ∀ c ∈ before, isBlank c = true)
    (right : ∀ c ∈ after, isBlank c = true) : trim (before ++ core ++ after) = core := by
  have front : (before ++ core ++ after).dropWhile isBlank = core ++ after := by
    rw [List.append_assoc]
    refine dropWhile_append left fun c first => bare c ?_
    rw [List.head?_append, List.head?_eq_some_head something] at first
    exact List.mem_of_head? ((List.head?_eq_some_head something).trans first)
  have back : (core ++ after).reverse.dropWhile isBlank = core.reverse := by
    rw [List.reverse_append]
    refine dropWhile_append (fun c inside => right c (List.mem_reverse.1 inside)) fun c first =>
      bare c (List.mem_reverse.1 (List.mem_of_head? first))
  rw [trim, front, back, List.reverse_reverse]

/-- **What is taken off is blank,** on either side. -/
theorem exists_blanks_trim (cs : List Char) : ∃ before after, cs = before ++ trim cs ++ after ∧
    (∀ c ∈ before, isBlank c = true) ∧ ∀ c ∈ after, isBlank c = true := by
  refine ⟨cs.takeWhile isBlank, ((cs.dropWhile isBlank).reverse.takeWhile isBlank).reverse, ?_,
    fun c inside => List.mem_takeWhile_imp inside, fun c inside =>
      List.mem_takeWhile_imp (List.mem_reverse.1 inside)⟩
  rw [trim, List.append_assoc, ← List.reverse_append, List.takeWhile_append_dropWhile,
    List.reverse_reverse, List.takeWhile_append_dropWhile]

end Text

namespace AddressRange

/-! ### The grammar -/

/-- **A marked numeral:** a zero, the letter x in either case, perhaps a plus sign, and digits. -/
def IsNumeral (cs : List Char) (n : Nat) : Prop :=
  ∃ marker sign digits, cs = '0' :: marker :: (sign ++ digits) ∧ (marker = 'x' ∨ marker = 'X') ∧
    (sign = [] ∨ sign = ['+']) ∧ Hex.Denotes digits n

/-- **One part of a text that is a bound:** a marked numeral of a 64-bit word, among blanks. -/
def IsBound (part : List Char) (a : UInt64) : Prop :=
  ∃ before numeral after, part = before ++ numeral ++ after ∧ IsNumeral numeral a.toNat ∧
    (∀ c ∈ before, Text.isBlank c = true) ∧ ∀ c ∈ after, Text.isBlank c = true

/-- **The first two dots in a row** stand between two parts of a text. -/
def Splits (cs low high : List Char) : Prop :=
  cs = low ++ '.' :: '.' :: high ∧ ¬ ['.', '.'] <:+: low ++ ['.']

/-- **A text with two bounds,** on either side of the first two dots. -/
def IsText (text : String) (start last : UInt64) : Prop :=
  ∃ low high, Splits text.toList low high ∧ IsBound low start ∧ IsBound high last

/-! ### The parts of a text -/

/-- Two dots are in a row at the start of a text exactly when they are at the start of its lower
part and the dot after it. -/
theorem splits_cons_iff {c : Char} {rest low high : List Char} :
    Splits (c :: rest) (c :: low) high ↔
      Splits rest low high ∧ ¬ (c = '.' ∧ rest.head? = some '.') := by
  unfold Splits
  rw [List.cons_append, List.cons_append, List.cons.injEq, List.infix_cons_iff,
    List.cons_prefix_cons]
  have next : ['.'] <+: low ++ ['.'] ↔ (low ++ '.' :: '.' :: high).head? = some '.' := by
    cases low with
    | nil => simp
    | cons d tail => simp [eq_comm]
  rw [next]
  grind

/-- **The reader splits a text at its first two dots.** -/
theorem splitAtDots_eq_some_iff {cs low high : List Char} :
    splitAtDots cs = some (low, high) ↔ Splits cs low high := by
  induction cs using splitAtDots.induct generalizing low with
  | case1 => simp [splitAtDots, Splits]
  | case2 rest =>
      rw [splitAtDots]
      constructor
      · rintro ⟨⟩
        exact ⟨rfl, by decide⟩
      · intro splits
        cases low with
        | nil =>
            obtain ⟨split, -⟩ := splits
            cases split
            rfl
        | cons c tail =>
            obtain rfl : '.' = c := (List.cons.inj splits.1).1
            exact absurd ⟨rfl, rfl⟩ (splits_cons_iff.1 splits).2
  | case3 c rest apart ih =>
      have notHere : ¬ (c = '.' ∧ rest.head? = some '.') := by
        rintro ⟨dot, next⟩
        obtain ⟨tail, rfl⟩ := List.head?_eq_some_iff.1 next
        exact apart tail dot rfl
      rw [splitAtDots.eq_3 _ _ apart, Option.map_eq_some_iff]
      constructor
      · rintro ⟨⟨front, back⟩, later, ⟨⟩⟩
        exact splits_cons_iff.2 ⟨ih.1 later, notHere⟩
      · intro splits
        cases low with
        | nil =>
            obtain ⟨split, -⟩ := splits
            cases split
            exact absurd ⟨rfl, rfl⟩ notHere
        | cons d tail =>
            obtain rfl : c = d := (List.cons.inj splits.1).1
            exact ⟨(tail, high), ih.2 (splits_cons_iff.1 splits).1, rfl⟩

/-- The marker is a zero and the letter x in either case. -/
theorem afterMarker_eq_some_iff {cs ds : List Char} :
    afterMarker cs = some ds ↔
      ∃ marker, (marker = 'x' ∨ marker = 'X') ∧ cs = '0' :: marker :: ds := by
  unfold afterMarker
  split
  · next digits => simp [eq_comm]
  · next digits => simp [eq_comm]
  · next small capital =>
      simp only [reduceCtorEq, false_iff, not_exists, not_and]
      rintro marker (rfl | rfl)
      · exact small ds
      · exact capital ds

/-- One plus sign may stand before the digits. -/
theorem value?_withoutPlus_eq_some_iff {ds : List Char} {n : Nat} :
    Hex.value? (withoutPlus ds) = some n ↔ ∃ sign digits, ds = sign ++ digits ∧
      (sign = [] ∨ sign = ['+']) ∧ Hex.Denotes digits n := by
  rw [Hex.value?_eq_some_iff]
  unfold withoutPlus
  split
  · next digits =>
      constructor
      · intro number
        exact ⟨['+'], digits, rfl, .inr rfl, number⟩
      · rintro ⟨sign, other, split, rfl | rfl, number⟩
        · -- a plus sign is no digit
          rw [List.nil_append] at split
          rw [← split] at number
          obtain ⟨-, values, read, -⟩ := number
          cases read with
          | cons digit _ => exact absurd (Hex.digitValue?_eq_some_iff.2 digit) nofun
        · rwa [(List.cons.inj split).2]
  · next unsigned =>
      constructor
      · intro number
        exact ⟨[], ds, rfl, .inl rfl, number⟩
      · rintro ⟨sign, digits, rfl, rfl | rfl, number⟩
        · exact number
        · exact absurd rfl (unsigned digits)

/-- **The reader takes a marked numeral apart.** -/
theorem isNumeral_iff {cs : List Char} {n : Nat} :
    IsNumeral cs n ↔ ∃ ds, afterMarker cs = some ds ∧ Hex.value? (withoutPlus ds) = some n := by
  constructor
  · rintro ⟨marker, sign, digits, rfl, mark, signs, number⟩
    exact ⟨sign ++ digits, afterMarker_eq_some_iff.2 ⟨marker, mark, rfl⟩,
      value?_withoutPlus_eq_some_iff.2 ⟨sign, digits, rfl, signs, number⟩⟩
  · rintro ⟨ds, marked, read⟩
    obtain ⟨marker, mark, rfl⟩ := afterMarker_eq_some_iff.1 marked
    obtain ⟨sign, digits, rfl, signs, number⟩ := value?_withoutPlus_eq_some_iff.1 read
    exact ⟨marker, sign, digits, rfl, mark, signs, number⟩

/-- A marked numeral has no blanks in it. -/
theorem IsNumeral.isBlank_eq_false {cs : List Char} {n : Nat} (h : IsNumeral cs n) :
    ∀ c ∈ cs, Text.isBlank c = false := by
  obtain ⟨marker, sign, digits, rfl, mark, signs, number⟩ := h
  have markerBare : Text.isBlank marker = false := by
    rcases mark with rfl | rfl
    · rfl
    · rfl
  have signBare : ∀ c ∈ sign, Text.isBlank c = false := by
    rcases signs with rfl | rfl
    · simp
    · simp [Text.isBlank]
  refine List.forall_mem_cons.2 ⟨rfl, List.forall_mem_cons.2 ⟨markerBare, fun c inside => ?_⟩⟩
  exact (List.mem_append.1 inside).elim (signBare c) (number.isBlank_eq_false c)

/-- **The reader accepts exactly the bounds** among the parts of texts. -/
theorem readBound_eq_some_iff {part : List Char} {a : UInt64} :
    readBound part = some a ↔ IsBound part a := by
  have read : readBound part = some a ↔ IsNumeral (Text.trim part) a.toNat := by
    simp only [readBound, Option.bind_eq_bind, Option.bind_eq_some_iff, isNumeral_iff]
    constructor
    · rintro ⟨ds, marked, n, value, fits⟩
      split at fits
      · next below =>
          obtain rfl := Option.some.inj fits
          rw [UInt64.toNat_ofNat_of_lt' below]
          exact ⟨ds, marked, value⟩
      · cases fits
    · rintro ⟨ds, marked, value⟩
      exact ⟨ds, marked, a.toNat, value, by rw [if_pos a.toNat_lt, UInt64.ofNat_toNat]⟩
  rw [read]
  constructor
  · intro numeral
    obtain ⟨before, after, whole, left, right⟩ := Text.exists_blanks_trim part
    exact ⟨before, Text.trim part, after, whole, numeral, left, right⟩
  · rintro ⟨before, numeral, after, rfl, number, left, right⟩
    have something : numeral ≠ [] := by
      obtain ⟨_, _, _, rfl, _⟩ := number
      exact List.cons_ne_nil _ _
    rwa [Text.trim_append something number.isBlank_eq_false left right]

/-! ### Texts of ranges -/

theorem isText_iff {text : String} {start last : UInt64} :
    IsText text start last ↔ ∃ low high, splitAtDots text.toList = some (low, high) ∧
      readBound low = some start ∧ readBound high = some last := by
  simp only [IsText, splitAtDots_eq_some_iff, readBound_eq_some_iff]

/-- **A text with two bounds** is read as they make a range. -/
theorem parse_of_isText {text : String} {start last : UInt64} (h : IsText text start last) :
    parse text = ofBounds start last := by
  obtain ⟨low, high, split, first, second⟩ := isText_iff.1 h
  simp only [parse, split, first, second]

/-- **A text without two bounds** is unreadable. -/
theorem parse_of_not_isText {text : String} (h : ¬ ∃ start last, IsText text start last) :
    parse text = .error (.unreadable text) := by
  unfold parse
  split
  · rfl
  · next low high split =>
      split
      · next start last first second =>
          exact absurd ⟨start, last, isText_iff.2 ⟨low, high, split, first, second⟩⟩ h
      · rfl

/-- A text has one pair of bounds at most. -/
theorem IsText.unique {text : String} {start last start' last' : UInt64}
    (h : IsText text start last) (h' : IsText text start' last') :
    start = start' ∧ last = last' := by
  obtain ⟨low, high, split, first, second⟩ := isText_iff.1 h
  obtain ⟨low', high', split', first', second'⟩ := isText_iff.1 h'
  obtain ⟨rfl, rfl⟩ := Prod.mk.inj (Option.some.inj (split.symm.trans split'))
  exact ⟨Option.some.inj (first.symm.trans first'), Option.some.inj (second.symm.trans second')⟩

/-- **The reader accepts exactly the texts of the grammar whose bounds are in order,** as the range
with these bounds.  A text of which only the order is wrong is reported with both bounds, and every
other text as it stands. -/
theorem parse_spec (text : String) :
    (∀ start last, (∃ r, parse text = .ok r ∧ r.start = start ∧ r.last = last) ↔
      IsText text start last ∧ start.toNat ≤ last.toNat + 1) ∧
    ∀ error, parse text = .error error ↔
      (∃ start last, IsText text start last ∧ last.toNat + 1 < start.toNat ∧
        error = .invalid start last) ∨
      (¬ ∃ start last, IsText text start last) ∧ error = .unreadable text := by
  by_cases readable : ∃ start last, IsText text start last
  · obtain ⟨start, last, bounds⟩ := readable
    rw [parse_of_isText bounds]
    refine ⟨fun start' last' => ?_, fun error => ?_⟩
    · constructor
      · rintro ⟨r, made, rfl, rfl⟩
        obtain ⟨rfl, rfl⟩ := ofBounds_eq_ok_iff.1 made
        exact ⟨bounds, ordered_iff.1 r.ordered⟩
      · rintro ⟨other, ordered⟩
        obtain ⟨rfl, rfl⟩ := bounds.unique other
        exact ⟨⟨start, last, ordered_iff.2 ordered⟩, ofBounds_eq_ok_iff.2 ⟨rfl, rfl⟩, rfl, rfl⟩
    · rw [ofBounds_eq_error_iff]
      constructor
      · rintro ⟨reversed, rfl⟩
        exact .inl ⟨start, last, bounds, reversed, rfl⟩
      · rintro (⟨start', last', other, reversed, rfl⟩ | ⟨unreadable, -⟩)
        · obtain ⟨rfl, rfl⟩ := bounds.unique other
          exact ⟨reversed, rfl⟩
        · exact absurd ⟨start, last, bounds⟩ unreadable
  · rw [parse_of_not_isText readable]
    refine ⟨fun start last => ?_, fun error => ?_⟩
    · simp only [reduceCtorEq, false_and, exists_false, false_iff, not_and]
      exact fun bounds => absurd ⟨start, last, bounds⟩ readable
    · simp only [Except.error.injEq, readable, not_false_eq_true, true_and]
      constructor
      · rintro rfl
        exact .inr rfl
      · rintro (⟨start, last, bounds, -⟩ | rfl)
        · exact absurd ⟨start, last, bounds⟩ readable
        · rfl

example : parse "0x10 ..\t0X+f" = .ok ⟨0x10, 0xf, .inr rfl⟩ := by decide +kernel

example : parse "0x10...0x20" = .error (.unreadable "0x10...0x20") := by decide +kernel

end AddressRange

end Interconnect
