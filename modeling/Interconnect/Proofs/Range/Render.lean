import Interconnect.Proofs.Range.Text

/-!
# Written ranges are read back

The printed form of a range is one of the texts that denote it, whatever its bounds are.  A reader
and a printer that know nothing of each other agree through the grammar of
`Interconnect.Proofs.Range.Text`: the printer writes a text with these two bounds, and the reader
finds the bounds of every such text.

## Main Statements

* `Hex.denotes_fixed` — a numeral with places enough denotes its number
* `AddressRange.render_spec` — what is printed: two small numerals of one length, and which
* `AddressRange.isText_render` — what is printed has the bounds of the range
* `AddressRange.isText_of_parse_eq_ok` — what is read has the bounds of the range
* `AddressRange.round_trip` — printing and reading undo each other
-/

namespace Interconnect

/-! ### Numerals of fixed length -/

namespace Hex

/-- The digit of a number stands at its place in the row of small digits. -/
theorem getElem?_smallDigits {d : Nat} (small : d < 16) : smallDigits[d]? = some (digit d) := by
  have row : ∀ d < 16, smallDigits[d]? = some (digit d) := by decide
  exact row d small

theorem isDigit_digit {d : Nat} (small : d < 16) : IsDigit (digit d) d :=
  .inl (getElem?_smallDigits small)

/-- Numerals are written with small digits. -/
theorem mem_smallDigits_of_mem_fixed {places n : Nat} {c : Char} (h : c ∈ fixed places n) :
    c ∈ smallDigits := by
  induction places generalizing n with
  | zero => cases h
  | succ places ih =>
      rcases List.mem_append.1 h with early | last
      · exact ih early
      · obtain rfl := List.mem_singleton.1 last
        exact List.mem_of_getElem? (getElem?_smallDigits (Nat.mod_lt _ (by decide)))

/-- **The digits of a numeral of some places** are worth the number modulo that power of sixteen. -/
theorem exists_values_fixed (places n : Nat) : ∃ values,
    List.Forall₂ IsDigit (fixed places n) values ∧
      Nat.ofDigits 16 values.reverse = n % 16 ^ places := by
  induction places generalizing n with
  | zero => exact ⟨[], .nil, (Nat.mod_one n).symm⟩
  | succ places ih =>
      obtain ⟨values, digits, worth⟩ := ih (n / 16)
      have last : IsDigit (digit (n % 16)) (n % 16) := isDigit_digit (Nat.mod_lt _ (by decide))
      refine ⟨values ++ [n % 16], List.rel_append digits (.cons last .nil), ?_⟩
      rw [List.reverse_append, List.reverse_singleton, List.singleton_append, Nat.ofDigits_cons,
        worth, Nat.pow_succ', Nat.mod_mul]

/-- **A numeral with places enough** denotes its number. -/
theorem denotes_fixed {places n : Nat} (something : places ≠ 0) (fits : n < 16 ^ places) :
    Denotes (fixed places n) n := by
  obtain ⟨values, digits, worth⟩ := exists_values_fixed places n
  refine ⟨fun nothing => something ?_, values, digits, ?_⟩
  · rw [← length_fixed places n, nothing, List.length_nil]
  · rw [worth, Nat.mod_eq_of_lt fits]

end Hex

namespace AddressRange

/-! ### The printed form -/

/-- **What is printed for a range:** each bound behind its marker, in small digits, two dots between
them.  Both numerals have eight digits if both bounds are below 2³², and sixteen if one is not. -/
theorem render_spec (r : AddressRange) : ∃ low high : List Char,
    r.render.toList = '0' :: 'x' :: low ++ '.' :: '.' :: '0' :: 'x' :: high ∧
    low.length = high.length ∧
    low.length = (if r.start.toNat < 2 ^ 32 ∧ r.last.toNat < 2 ^ 32 then 8 else 16) ∧
    (∀ c ∈ low ++ high, c ∈ Hex.smallDigits) ∧
    Hex.Denotes low r.start.toNat ∧ Hex.Denotes high r.last.toNat := by
  have narrow : (r.start < 0x100000000 ∧ r.last < 0x100000000) ↔
      (r.start.toNat < 2 ^ 32 ∧ r.last.toNat < 2 ^ 32) := Iff.rfl
  obtain ⟨places, printed, chosen⟩ : ∃ places,
      r.render = Hex.padded places r.start.toNat ++ ".." ++ Hex.padded places r.last.toNat ∧
      places = (if r.start.toNat < 2 ^ 32 ∧ r.last.toNat < 2 ^ 32 then 8 else 16) :=
    ⟨_, rfl, if_congr narrow rfl rfl⟩
  have room : places ≠ 0 ∧ r.start.toNat < 16 ^ places ∧ r.last.toNat < 16 ^ places := by
    have := r.start.toNat_lt
    have := r.last.toNat_lt
    split at chosen
    · subst chosen
      omega
    · subst chosen
      omega
  refine ⟨Hex.fixed places r.start.toNat, Hex.fixed places r.last.toNat, ?_, ?_, ?_, ?_, ?_, ?_⟩
  · rw [printed, Hex.padded, Hex.padded]
    simp
  · rw [Hex.length_fixed, Hex.length_fixed]
  · rw [Hex.length_fixed, chosen]
  · intro c inside
    rcases List.mem_append.1 inside with first | second
    · exact Hex.mem_smallDigits_of_mem_fixed first
    · exact Hex.mem_smallDigits_of_mem_fixed second
  · exact Hex.denotes_fixed room.1 room.2.1
  · exact Hex.denotes_fixed room.1 room.2.2

/-- Behind a part without a dot, the next two dots are the first two. -/
theorem splits_of_not_mem {low high : List Char} (bare : '.' ∉ low) :
    Splits (low ++ '.' :: '.' :: high) low high := by
  refine ⟨rfl, fun early => ?_⟩
  -- the lower part and the one dot after it hold one dot in all
  have dots := early.sublist.count_le '.'
  rw [List.count_append, List.count_eq_zero_of_not_mem bare] at dots
  exact absurd dots (by decide)

/-- Digits behind a small marker are a bound, without a blank or a sign. -/
theorem isBound_of_denotes {digits : List Char} {a : UInt64} (number : Hex.Denotes digits a.toNat) :
    IsBound ('0' :: 'x' :: digits) a :=
  ⟨[], _, [], (List.append_nil _).symm, ⟨'x', [], digits, rfl, .inl rfl, .inl rfl, number⟩, nofun,
    nofun⟩

/-- **What is printed is a text with the bounds of the range.** -/
theorem isText_render (r : AddressRange) : IsText r.render r.start r.last := by
  obtain ⟨low, high, printed, -, -, small, first, second⟩ := render_spec r
  have bare : '.' ∉ '0' :: 'x' :: low := by
    have noDigit : '.' ∉ Hex.smallDigits := by decide
    intro dot
    rcases List.mem_cons.1 dot with zero | dot
    · exact absurd zero (by decide)
    · rcases List.mem_cons.1 dot with mark | dot
      · exact absurd mark (by decide)
      · exact noDigit (small _ (List.mem_append_left _ dot))
  refine ⟨_, _, ?_, isBound_of_denotes first, isBound_of_denotes second⟩
  rw [printed]
  exact splits_of_not_mem bare

/-! ### Reading what was printed -/

/-- **What is printed for a range is read as the range.** -/
theorem parse_render (r : AddressRange) : parse r.render = .ok r := by
  rw [parse_of_isText (isText_render r), ofBounds_eq_ok_iff]
  exact ⟨rfl, rfl⟩

/-- A text that is read has the bounds of the range that it is read as. -/
theorem isText_of_parse_eq_ok {text : String} {r : AddressRange} (read : parse text = .ok r) :
    IsText text r.start r.last := by
  by_cases readable : ∃ start last, IsText text start last
  · obtain ⟨start, last, bounds⟩ := readable
    rw [parse_of_isText bounds] at read
    obtain ⟨rfl, rfl⟩ := ofBounds_eq_ok_iff.1 read
    exact bounds
  · rw [parse_of_not_isText readable] at read
    cases read

/-- **Printing and reading undo each other.**  Every range, empty or not, is read back from its
printed form; and a text that is read denotes the range that its printed form denotes, so that
reading either gives the same. -/
theorem round_trip :
    (∀ r : AddressRange, parse r.render = .ok r) ∧
    ∀ (text : String) (r : AddressRange), parse text = .ok r →
      IsText text r.start r.last ∧ IsText r.render r.start r.last ∧
        parse r.render = parse text :=
  ⟨parse_render, fun _ r read =>
    ⟨isText_of_parse_eq_ok read, isText_render r, (parse_render r).trans read.symm⟩⟩

/-- An empty range across the border of eight digits, written with blanks, a capital marker, a sign
and leading zeros, and its printed form. -/
theorem round_trip_of_spaced :
    parse " 0X+000100000000\t..0xffffffff" = .ok ⟨0x100000000, 0xffffffff, .inr rfl⟩ ∧
    render ⟨0x100000000, 0xffffffff, .inr rfl⟩ = "0x0000000100000000..0x00000000ffffffff" ∧
    parse "0x0000000100000000..0x00000000ffffffff" = parse " 0X+000100000000\t..0xffffffff" := by
  have read : parse " 0X+000100000000\t..0xffffffff" =
      .ok ⟨0x100000000, 0xffffffff, .inr rfl⟩ := by decide +kernel
  have printed : render ⟨0x100000000, 0xffffffff, .inr rfl⟩ =
      "0x0000000100000000..0x00000000ffffffff" := by decide +kernel
  refine ⟨read, printed, ?_⟩
  rw [← printed]
  exact (round_trip.2 _ _ read).2.2

end AddressRange

end Interconnect
