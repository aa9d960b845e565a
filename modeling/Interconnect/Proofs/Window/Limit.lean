import Mathlib.Data.List.Basic
import Interconnect.Proofs.Window.Offers

/-!
# The number of windows in a cache

Only insertions look at the limit of a cache.  A withdrawal leaves two windows of each that reaches
beyond the range on either side, and so may bring a cache above its limit, where it stays until the
next insertion.

## Main Definitions

* `DirectWindow.isSplitBy`, `DirectWindow.isCoveredBy` — a cut leaves two windows, or none
* `WindowCache.splits` — how many windows an operation splits
* `WindowCache.excess` — how many windows have been split since the limit was last enforced

## Main Statements

* `length_cut` — how many windows a cut leaves
* `length_insert_le` — after an insertion the limit holds
* `length_run_le` — after any operations the limit holds but for what has been split since
* `not_forall_length_run_le` — the limit alone does not always hold
-/

namespace Interconnect

namespace AddressRange

/-- What a cut leaves of a range that it meets: a piece on either side on which the range reaches
beyond it. -/
theorem length_pieces_subtract {r cut : AddressRange} (meet : r.overlaps cut = true) :
    (r.subtract cut).pieces.length =
      (decide (r.start < cut.start)).toNat + (decide (cut.last < r.last)).toNat := by
  have below : (r.partBelow cut).isSome = decide (r.start < cut.start) := by
    unfold partBelow
    split <;> simp_all
  have above : (r.partAbove cut).isSome = decide (cut.last < r.last) := by
    unfold partAbove
    split <;> simp_all
  rw [← below, ← above, subtract, if_pos meet]
  cases r.partBelow cut <;> cases r.partAbove cut <;> rfl

end AddressRange

namespace DirectWindow

/-- **The window reaches beyond the range on either side.** -/
def isSplitBy (w : DirectWindow) (range : AddressRange) : Bool :=
  !range.isEmpty && w.range.start < range.start && range.last < w.range.last

/-- **The whole window lies in the range.** -/
def isCoveredBy (w : DirectWindow) (range : AddressRange) : Bool := range.contains w.range

variable {w : DirectWindow} {range : AddressRange}

theorem isSplitBy_of_overlaps (meet : w.range.overlaps range = true) :
    w.isSplitBy range =
      (decide (w.range.start < range.start) && decide (range.last < w.range.last)) := by
  obtain ⟨a, -, inside⟩ := AddressRange.overlaps_iff.1 meet
  have holds : range.isEmpty = false :=
    AddressRange.isEmpty_eq_false_iff.2 (UInt64.le_trans inside.1 inside.2)
  rw [isSplitBy, holds, Bool.not_false, Bool.true_and]

theorem isCoveredBy_of_overlaps (meet : w.range.overlaps range = true) :
    w.isCoveredBy range =
      (!decide (w.range.start < range.start) && !decide (range.last < w.range.last)) := by
  obtain ⟨a, shown, inside⟩ := AddressRange.overlaps_iff.1 meet
  rw [AddressRange.mem_iff] at shown inside
  rw [Bool.eq_iff_iff]
  simp only [isCoveredBy, AddressRange.contains, Bool.and_eq_true,
    AddressRange.includes_eq_true_iff, AddressRange.mem_iff, Bool.not_eq_true',
    decide_eq_false_iff_not, UInt64.not_lt]
  grind

/-- A range that does not meet a window neither splits nor covers it. -/
theorem isSplitBy_of_apart (apart : w.range.overlaps range = false) :
    w.isSplitBy range = false := by
  rw [AddressRange.overlaps_eq_false_iff] at apart
  rw [← Bool.not_eq_true, isSplitBy, Bool.and_eq_true, Bool.and_eq_true, Bool.not_eq_true',
    AddressRange.isEmpty_eq_false_iff, decide_eq_true_eq, decide_eq_true_eq]
  rintro ⟨⟨holds, below⟩, above⟩
  refine apart range.start ⟨UInt64.le_of_lt below, ?_⟩ ⟨UInt64.le_refl _, holds⟩
  exact UInt64.le_trans holds (UInt64.le_of_lt above)

theorem isCoveredBy_of_apart (holds : w.isEmpty = false)
    (apart : w.range.overlaps range = false) : w.isCoveredBy range = false := by
  rw [isEmpty, AddressRange.isEmpty_eq_false_iff] at holds
  rw [AddressRange.overlaps_eq_false_iff] at apart
  rw [← Bool.not_eq_true, isCoveredBy, AddressRange.contains, Bool.and_eq_true,
    AddressRange.includes_eq_true_iff]
  exact fun covered => apart w.range.start ⟨UInt64.le_refl _, holds⟩ covered.1

end DirectWindow

namespace WindowCache

/-! ### Withdrawal -/

/-- What a cut leaves of a window that it meets are the pieces of its range. -/
theorem length_cut_of_overlaps {e : CacheEntry} {range : AddressRange}
    (meet : e.window.range.overlaps range = true) :
    (e.cut range).length = (e.window.range.subtract range).pieces.length := by
  rw [CacheEntry.cut, if_pos meet, List.filterMap_length_eq_length]
  intro piece left
  rw [Option.isSome_map, Option.isSome_iff_ne_none, Ne, DirectWindow.restrict_eq_none_iff]
  intro apart
  have holds := AddressRange.isEmpty_of_mem_pieces_subtract left
  have first : piece.start ∈ piece :=
    ⟨UInt64.le_refl _, AddressRange.isEmpty_eq_false_iff.1 holds⟩
  exact apart _ (AddressRange.mem_pieces_subtract.1 ⟨piece, left, first⟩).1 first

/-- A cut leaves one window of each, two of one that it splits, and none of one that it covers. -/
theorem length_cut_entry {e : CacheEntry} (holds : e.window.isEmpty = false)
    (range : AddressRange) :
    (e.cut range).length + (e.window.isCoveredBy range).toNat =
      1 + (e.window.isSplitBy range).toNat := by
  cases meet : e.window.range.overlaps range with
  | true =>
      rw [length_cut_of_overlaps meet, AddressRange.length_pieces_subtract meet,
        DirectWindow.isCoveredBy_of_overlaps meet, DirectWindow.isSplitBy_of_overlaps meet]
      cases decide (e.window.range.start < range.start) <;>
        cases decide (range.last < e.window.range.last) <;> rfl
  | false =>
      rw [CacheEntry.cut, meet, DirectWindow.isCoveredBy_of_apart holds meet,
        DirectWindow.isSplitBy_of_apart meet]
      rfl

theorem length_flatMap_cut {entries : List CacheEntry}
    (holds : ∀ e ∈ entries, e.window.isEmpty = false) (range : AddressRange) :
    (entries.flatMap fun e => e.cut range).length +
        entries.countP (fun e => e.window.isCoveredBy range) =
      entries.length + entries.countP fun e => e.window.isSplitBy range := by
  induction entries with
  | nil => rfl
  | cons e rest ih =>
      have first := length_cut_entry (holds e List.mem_cons_self) range
      have others := ih fun f later => holds f (List.mem_cons_of_mem e later)
      have count : ∀ p : CacheEntry → Bool,
          (e :: rest).countP p = rest.countP p + (p e).toNat := by
        intro p
        rw [List.countP_cons]
        cases p e <;> rfl
      rw [List.flatMap_cons, List.length_append, List.length_cons, count, count]
      omega

/-- **A cut leaves one window more for each that it splits, and one less for each that it
covers.** -/
theorem length_cut {c : WindowCache} (tidy : Tidy c.windows) (range : AddressRange) :
    (c.cut range).windows.length + c.windows.countP (fun w => w.isCoveredBy range) =
      c.windows.length + c.windows.countP fun w => w.isSplitBy range := by
  have holds : ∀ e ∈ c.entries, e.window.isEmpty = false :=
    fun e cached => tidy.holds _ (List.mem_map_of_mem cached)
  have whole := length_flatMap_cut holds range
  rw [windows, windows, List.length_map, List.length_map, List.countP_map, List.countP_map]
  rw [cut]
  split
  · rw [(perm_foldr_place _).length_eq]
    exact whole
  · next untouched =>
      -- a cut that is not made would leave every entry as it is
      have same : (c.entries.flatMap fun e => e.cut range) = c.entries := by
        rw [Bool.not_eq_true, touches, List.any_eq_false] at untouched
        have alone : ∀ e ∈ c.entries, e.cut range = [e] := fun e cached => by
          rw [CacheEntry.cut, if_neg (untouched e cached)]
        rw [List.flatMap_congr alone, List.flatMap_singleton']
      rw [same] at whole
      exact whole

/-! ### Insertion -/

theorem mem_of_stalest {entries : List CacheEntry} {e : CacheEntry}
    (found : stalest entries = some e) : e ∈ entries := by
  induction entries with
  | nil => cases found
  | cons f rest ih =>
      unfold stalest at found
      split at found
      · cases found
        exact List.mem_cons_self
      · next g last =>
          split at found
          · exact List.mem_cons_of_mem f (ih (found ▸ last))
          · cases found
            exact List.mem_cons_self

theorem stalest_eq_none_iff {entries : List CacheEntry} :
    stalest entries = none ↔ entries = [] := by
  cases entries with
  | nil => simp [stalest]
  | cons e rest =>
      unfold stalest
      split
      · simp
      · split <;> simp

/-- **Entries are dropped until no more than the limit remain,** and no longer. -/
theorem length_evict {rounds limit : Nat} {entries : List CacheEntry}
    (enough : entries.length ≤ rounds + limit) :
    (evict rounds limit entries).length = min limit entries.length := by
  induction rounds generalizing entries with
  | zero =>
      have few : entries.length ≤ limit := by omega
      exact (Nat.min_eq_right few).symm
  | succ rounds ih =>
      unfold evict
      split
      · next few => exact (Nat.min_eq_right few).symm
      · next many =>
          split
          · next nobody =>
              rw [stalest_eq_none_iff.1 nobody]
              exact (Nat.min_zero limit).symm
          · next e stale =>
              have fewer := List.length_erase_of_mem (mem_of_stalest stale)
              rw [ih (by omega)]
              omega

/-- What a cache with a limit holds after an insertion. -/
theorem entries_insert {c : WindowCache} {limit : Nat} (limited : c.limit = some limit)
    (positive : limit ≠ 0) {w : DirectWindow} (holds : w.isEmpty = false) :
    (c.insert w).entries = evict (c.joined w).length limit (c.joined w) := by
  have taken : ¬ (w.isEmpty || c.limit = some 0) = true := by
    simp [holds, limited, positive]
  rw [insert, if_neg taken]
  simp only [limited]
  rfl

/-- **After an insertion the limit holds,** whether or not it held before. -/
theorem length_insert_le {c : WindowCache} {limit : Nat} (limited : c.limit = some limit)
    (positive : limit ≠ 0) {w : DirectWindow} (holds : w.isEmpty = false) :
    (c.insert w).windows.length ≤ limit := by
  rw [windows, List.length_map, entries_insert limited positive holds]
  exact (length_evict (Nat.le_add_right _ _)).trans_le (Nat.min_le_left _ _)

/-! ### Runs -/

/-- How many windows an operation splits. -/
def splits (c : WindowCache) : Operation → Nat
  | .withdraw range => c.windows.countP fun w => w.isSplitBy range
  | .withdrawBetween start last =>
    match AddressRange.ofBounds start last with
    | .ok range => c.windows.countP fun w => w.isSplitBy range
    | .error _ => 0
  | .insert _ | .lookup _ _ | .lookupAt _ _ _ | .clear => 0

/-- Whether the limit holds after an operation, whatever was before: an insertion drops what is too
much, and a cache that is cleared is empty. -/
def Operation.enforces : Operation → Bool
  | .insert w => !w.isEmpty
  | .clear => true
  | .lookup _ _ | .lookupAt _ _ _ | .withdraw _ | .withdrawBetween _ _ => false

/-- **How many windows some operations split** after the last one that enforces the limit, if
`before` have been split already. -/
def excessFrom (c : WindowCache) (before : Nat) : List Operation → Nat
  | [] => before
  | operation :: rest =>
    excessFrom (c.perform operation)
      (if operation.enforces then 0 else before + c.splits operation) rest

/-- **How many windows have been split since the limit was last enforced.** -/
def excess (limit : Option Nat) (operations : List Operation) : Nat :=
  excessFrom (withLimit limit) 0 operations

/-- A cache with the limit zero stays empty. -/
theorem windows_perform_eq_nil {c : WindowCache} (closed : c.limit = some 0)
    (hollow : c.windows = []) (operation : Operation) : (c.perform operation).windows = [] := by
  have untouched : ∀ range, c.cut range = c := by
    intro range
    refine cut_eq_self ?_
    rw [windows, List.map_eq_nil_iff] at hollow
    rw [touches, hollow]
    rfl
  cases operation with
  | insert w =>
      rw [perform, insert, if_pos (by simp [closed])]
      exact hollow
  | lookup range command => exact (c.windows_lookup range command).trans hollow
  | lookupAt start size command => exact (c.windows_lookupAt start size command).trans hollow
  | withdraw range =>
      rw [perform, withdraw, untouched]
      exact hollow
  | withdrawBetween start last =>
      rw [perform, withdrawBetween]
      split
      · rw [withdraw, untouched]
        exact hollow
      · exact hollow
  | clear => rfl

/-- **An operation adds no window but those that it splits off,** unless it enforces the limit. -/
theorem length_perform_le {c : WindowCache} (tidy : Tidy c.windows) {operation : Operation}
    (lax : operation.enforces = false) :
    (c.perform operation).windows.length ≤ c.windows.length + c.splits operation := by
  have step : ∀ range, (c.cut range).windows.length ≤
      c.windows.length + c.windows.countP fun w => w.isSplitBy range := by
    intro range
    have := length_cut tidy range
    omega
  cases operation with
  | insert w =>
      rw [Operation.enforces, Bool.not_eq_false'] at lax
      rw [perform, insert, lax, Bool.true_or, if_pos rfl]
      exact Nat.le_add_right _ _
  | lookup range command =>
      rw [perform, windows_lookup]
      exact Nat.le_add_right _ _
  | lookupAt start size command =>
      rw [perform, windows_lookupAt]
      exact Nat.le_add_right _ _
  | withdraw range => exact step range
  | withdrawBetween start last =>
      cases made : AddressRange.ofBounds start last with
      | ok range =>
          simp only [perform, withdrawBetween, splits, made]
          exact step range
      | error e =>
          simp only [perform, withdrawBetween, splits, made]
          exact Nat.le_add_right _ _
  | clear => cases lax

/-- An operation that enforces the limit leaves no more windows than it allows. -/
theorem length_perform_le_of_enforces {c : WindowCache} {limit : Nat}
    (limited : c.limit = some limit) (positive : limit ≠ 0) {operation : Operation}
    (strict : operation.enforces = true) : (c.perform operation).windows.length ≤ limit := by
  cases operation with
  | insert w =>
      rw [Operation.enforces, Bool.not_eq_true'] at strict
      exact length_insert_le limited positive strict
  | clear => exact Nat.zero_le limit
  | lookup range command => cases strict
  | lookupAt start size command => cases strict
  | withdraw range => cases strict
  | withdrawBetween start last => cases strict

/-- The bound of a run, from any state that keeps it. -/
theorem length_foldl_le {c : WindowCache} (tidy : Tidy c.windows) {limit before : Nat}
    (limited : c.limit = some limit) (hollow : limit = 0 → c.windows = [])
    (bounded : c.windows.length ≤ limit + before) (operations : List Operation) :
    (operations.foldl perform c).windows.length ≤ limit + c.excessFrom before operations := by
  induction operations generalizing c before with
  | nil => exact bounded
  | cons operation rest ih =>
      have closed : limit = 0 → (c.perform operation).windows = [] := fun zero =>
        windows_perform_eq_nil (zero ▸ limited) (hollow zero) operation
      refine ih (tidy.perform operation) ((c.limit_perform operation).trans limited) closed ?_
      split
      · next strict =>
          by_cases zero : limit = 0
          · rw [closed zero]
            exact Nat.zero_le _
          · exact length_perform_le_of_enforces limited zero strict
      · next lax =>
          have := length_perform_le tidy (Bool.not_eq_true _ ▸ lax)
          omega

theorem length_run_le_excess (limit : Nat) (operations : List Operation) :
    (run (some limit) operations).windows.length ≤ limit + excess (some limit) operations :=
  length_foldl_le (c := withLimit (some limit)) .nil rfl (fun _ => rfl) (Nat.zero_le _) operations

/-- Nothing that was split before the limit is enforced counts. -/
theorem excessFrom_concat_of_enforces (c : WindowCache) (before : Nat) (operations : List Operation)
    {last : Operation} (strict : last.enforces = true) :
    c.excessFrom before (operations ++ [last]) = 0 := by
  induction operations generalizing c before with
  | nil => simp [excessFrom, strict]
  | cons operation rest ih => exact ih _ _

/-- **After any operations on a cache, it holds no more windows than its limit and those that have
been split since the limit was last enforced.**  In particular the limit holds right after every
insertion of a window, and as long as no withdrawal splits one.  A withdrawal adds one window for
each that it splits and takes one for each that it covers. -/
theorem length_run_le (limit : Nat) (operations : List Operation) :
    (run (some limit) operations).windows.length ≤ limit + excess (some limit) operations ∧
      (∀ w : DirectWindow, w.isEmpty = false →
        (run (some limit) (operations ++ [.insert w])).windows.length ≤ limit) ∧
      ∀ range, ((run (some limit) operations).withdraw range).2.windows.length +
          (run (some limit) operations).windows.countP (fun w => w.isCoveredBy range) =
        (run (some limit) operations).windows.length +
          (run (some limit) operations).windows.countP fun w => w.isSplitBy range := by
  refine ⟨length_run_le_excess limit operations, fun w holds => ?_,
    length_cut (tidy_run (some limit) operations)⟩
  have strict : (Operation.insert w).enforces = true := by rw [Operation.enforces, holds]; rfl
  have bound := length_run_le_excess limit (operations ++ [.insert w])
  rwa [excess, excessFrom_concat_of_enforces _ _ _ strict] at bound

/-- Two windows, of which a withdrawal splits the second. -/
def splitSecond : List Operation := [
  .insert ⟨⟨0, 9, by decide⟩, ⟨none, 0x1000⟩, .readOnly⟩,
  .insert ⟨⟨100, 109, by decide⟩, ⟨none, 0x8000⟩, .readOnly⟩,
  .withdraw ⟨104, 105, by decide⟩]

/-- In a cache for two windows, one too many is there after a withdrawal has split one, and is
dropped when the next window is inserted. -/
theorem exists_excess :
    ∃ w : DirectWindow, w.isEmpty = false ∧ excess (some 2) splitSecond = 1 ∧
      (run (some 2) splitSecond).windows.length = 3 ∧
      (run (some 2) splitSecond).windows.length ≤ 2 + excess (some 2) splitSecond ∧
      (run (some 2) (splitSecond ++ [.insert w])).windows.length ≤ 2 := by
  obtain ⟨bound, inserted, -⟩ := length_run_le 2 splitSecond
  refine ⟨⟨⟨200, 209, by decide⟩, ⟨none, 0xf000⟩, .readOnly⟩, rfl, ?_, ?_, bound, inserted _ rfl⟩
  · decide +kernel
  · decide +kernel

/-- **A withdrawal can leave more windows than the limit allows.** -/
theorem not_forall_length_run_le :
    ¬ ∀ (limit : Nat) (operations : List Operation),
      (run (some limit) operations).windows.length ≤ limit := by
  intro always
  have count : (run (some 2) splitSecond).windows.length = 3 := by decide +kernel
  have bound := always 2 splitSecond
  omega

end WindowCache

end Interconnect
