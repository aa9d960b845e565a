import Interconnect.Window.Basic

/-!
# Window caches

A window cache keeps direct windows in address order.  Windows that are parts of one are merged as
they come in, a lookup finds a window that covers a whole request, and a withdrawal cuts a range out
of every window.  A cache may be limited, and then drops the entry that was used longest ago.

## Main Definitions

* `WindowCache` — the entries, the limit and the count of uses
* `insert`, `lookup`, `cut`, `clear` — the operations
* `covers` — the mappings from addresses to host storage that the cache offers

### Order and use

Entries are ordered by start and, within one start, by permission; `place` keeps that order, and a
newcomer stands before older entries of its rank.  Every insertion and every lookup counts as one
use; an entry remembers the use that last concerned it, and the pieces that a withdrawal leaves
remember the use of the entry they were cut from.
-/

namespace Interconnect

/-- A cached window with the number of the use that last concerned it. -/
structure CacheEntry where
  /-- The window. -/
  window : DirectWindow
  /-- The use that last concerned it. -/
  lastUse : Nat
deriving DecidableEq

namespace CacheEntry

/-- Whether `e` stands before `f`: by start first, by permission within one start. -/
def before (e f : CacheEntry) : Bool :=
  e.window.start < f.window.start
    || (e.window.start = f.window.start && e.window.permission.rank < f.window.permission.rank)

/-- What remains of an entry once `range` has been cut out of it. -/
def cut (e : CacheEntry) (range : AddressRange) : List CacheEntry :=
  if e.window.range.overlaps range then
    (e.window.range.subtract range).pieces.filterMap fun piece =>
      (e.window.restrict piece).map fun window => { e with window := window }
  else [e]

end CacheEntry

/-- **Direct windows in address order.** -/
structure WindowCache where
  /-- The entries in order. -/
  entries : List CacheEntry
  /-- The number of entries that an insertion leaves at most, if there is a limit. -/
  limit : Option Nat
  /-- The number of uses so far. -/
  uses : Nat
deriving DecidableEq

namespace WindowCache

/-- The empty cache with the given limit. -/
def withLimit (limit : Option Nat) : WindowCache := ⟨[], limit, 0⟩

/-- The empty cache without a limit. -/
def empty : WindowCache := withLimit none

instance : Inhabited WindowCache := ⟨empty⟩

/-- The cached windows in order. -/
def windows (c : WindowCache) : List DirectWindow := c.entries.map CacheEntry.window

/-- The cache without its entries. -/
def clear (c : WindowCache) : WindowCache := { c with entries := [] }

/-! ### Insertion -/

/-- Puts an entry in front of the first one that does not stand before it. -/
def place (e : CacheEntry) : List CacheEntry → List CacheEntry
  | [] => [e]
  | f :: rest => if f.before e then f :: place e rest else e :: f :: rest

/-- **Merges `w` with entries until none is mergeable with it any more,** and gives the merged
window together with the entries that are left.  Every round takes one entry away, so as many rounds
as there are entries suffice. -/
def absorb : (rounds : Nat) → DirectWindow → List CacheEntry → DirectWindow × List CacheEntry
  | 0, w, entries => (w, entries)
  | rounds + 1, w, entries =>
    match entries.find? fun e => e.window.mergeable w with
    | none => (w, entries)
    | some e => absorb rounds (w.merge e.window) (entries.eraseP fun e => e.window.mergeable w)

/-- The first of the entries that were used longest ago. -/
def stalest : List CacheEntry → Option CacheEntry
  | [] => none
  | e :: rest =>
    match stalest rest with
    | none => some e
    | some f => if f.lastUse < e.lastUse then some f else some e

/-- Drops the entry that was used longest ago until at most `limit` remain.  Every round drops one,
so as many rounds as there are entries suffice. -/
def evict : (rounds : Nat) → (limit : Nat) → List CacheEntry → List CacheEntry
  | 0, _, entries => entries
  | rounds + 1, limit, entries =>
    if entries.length ≤ limit then entries
    else
      match stalest entries with
      | none => entries
      | some e => evict rounds limit (entries.erase e)

/-- **Adds a window.**  It is merged with everything it is mergeable with; an empty window is
ignored, and so is every window if the limit is zero. -/
def insert (c : WindowCache) (w : DirectWindow) : WindowCache :=
  if w.isEmpty || c.limit = some 0 then c
  else
    let uses := c.uses + 1
    let merged := absorb c.entries.length w c.entries
    let entries := place ⟨merged.1, uses⟩ merged.2
    match c.limit with
    | none => { c with entries := entries, uses := uses }
    | some limit => { c with entries := evict entries.length limit entries, uses := uses }

/-! ### Lookup -/

/-- The first window that covers `range` and allows `command`, together with the entries after it
has been marked with `use`.  An entry that starts above the range ends the search. -/
def find? (range : AddressRange) (command : Command) (use : Nat) :
    List CacheEntry → Option (DirectWindow × List CacheEntry)
  | [] => none
  | e :: rest =>
    if range.start < e.window.start then none
    else if e.window.range.contains range && e.window.permission.allows command then
      some (e.window, { e with lastUse := use } :: rest)
    else (find? range command use rest).map fun found => (found.1, e :: found.2)

/-- **Looks for a window that covers `range` and allows `command`.**  The search counts as a use
whether or not it finds one. -/
def lookup (c : WindowCache) (range : AddressRange) (command : Command) :
    Option DirectWindow × WindowCache :=
  let uses := c.uses + 1
  match find? range command uses c.entries with
  | some (w, entries) => (some w, { c with entries := entries, uses := uses })
  | none => (none, { c with uses := uses })

/-- Looks for a window that covers `size` addresses from `start` on.  A size for which there is no
range finds nothing and is no use. -/
def lookupAt (c : WindowCache) (start : UInt64) (size : Nat) (command : Command) :
    Option DirectWindow × WindowCache :=
  match AddressRange.ofSize start size with
  | .ok range => c.lookup range command
  | .error _ => (none, c)

/-! ### Withdrawal -/

/-- Whether some entry has an address in `range`. -/
def touches (c : WindowCache) (range : AddressRange) : Bool :=
  c.entries.any fun e => e.window.range.overlaps range

/-- **Cuts `range` out of every window.**  A cache that has no address in it stays as it is. -/
def cut (c : WindowCache) (range : AddressRange) : WindowCache :=
  if c.touches range then
    { c with entries := (c.entries.flatMap fun e => e.cut range).foldr place [] }
  else c

/-- Cuts a range out of every window, and tells whether any window had an address in it. -/
def withdraw (c : WindowCache) (range : AddressRange) : Bool × WindowCache :=
  (c.touches range, c.cut range)

/-- The same for the addresses from `start` to `last`.  Bounds that make no range touch nothing. -/
def withdrawBetween (c : WindowCache) (start last : UInt64) : Bool × WindowCache :=
  match AddressRange.ofBounds start last with
  | .ok range => c.withdraw range
  | .error _ => (false, c)

/-! ### The mappings on offer -/

/-- **The cache maps address `a` to the host pointer `p` with permission `q`:** some entry covers
the address and backs it so. -/
def Covers (c : WindowCache) (a : UInt64) (q : Permission) (p : HostPointer) : Prop :=
  ∃ w ∈ c.windows, a ∈ w.range ∧ w.permission = q ∧ w.pointerFor a = p

@[simp] theorem windows_clear (c : WindowCache) : c.clear.windows = [] := rfl

@[simp] theorem windows_withLimit (limit : Option Nat) : (withLimit limit).windows = [] := rfl

/-- A cut that meets no window changes nothing. -/
theorem cut_eq_self {c : WindowCache} {range : AddressRange} (h : c.touches range = false) :
    c.cut range = c := by
  simp [cut, h]

/-- A lookup never changes which windows are cached. -/
theorem windows_lookup (c : WindowCache) (range : AddressRange) (command : Command) :
    (c.lookup range command).2.windows = c.windows := by
  have kept : ∀ (use : Nat) (entries : List CacheEntry) (w : DirectWindow)
      (after : List CacheEntry), find? range command use entries = some (w, after) →
        after.map CacheEntry.window = entries.map CacheEntry.window := by
    intro use entries
    induction entries with
    | nil => intro w after found; cases found
    | cons e rest ih =>
        intro w after found
        simp only [find?] at found
        split at found
        · cases found
        · split at found
          · cases found; rfl
          · obtain ⟨⟨v, tail⟩, inRest, eq⟩ := Option.map_eq_some_iff.1 found
            cases eq
            simp [ih v tail inRest]
  unfold lookup windows
  dsimp only
  split
  · next w entries found => exact kept _ _ _ _ found
  · rfl

end WindowCache

end Interconnect
