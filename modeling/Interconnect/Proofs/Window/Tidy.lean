import Mathlib.Data.List.Pairwise
import Interconnect.Proofs.Window.Cache

/-!
# The order within a window cache

A cache keeps its windows in address order, keeps none without an address, and keeps no two that are
parts of one.  The search of a lookup relies on the order, and that one entry covers a whole request
if any entries do relies on the rest.

## Main Definitions

* `WindowCache.Tidy` — the invariant
* `WindowCache.Operation`, `WindowCache.run` — what is done to a cache, and what becomes of it

## Main Statements

* `Tidy.insert`, `Tidy.cut` — the operations keep the invariant
* `windows_run_ordered_apart` — the invariant holds after any operations

### Why nothing can be merged

A newcomer is merged with entries until it is mergeable with none of those that are left, and these
were apart before.  What a cut leaves of two entries are parts of them, and windows of which parts
can be merged can be merged themselves; what it leaves of one entry lies on either side of the cut.
-/

namespace Interconnect

namespace DirectWindow

/-- **The window may stand before the other in a cache:** it starts below, or at the same address
and with no higher permission. -/
def Precedes (v w : DirectWindow) : Prop :=
  v.start < w.start ∨ (v.start = w.start ∧ v.permission.rank ≤ w.permission.rank)

theorem Precedes.start_le {v w : DirectWindow} (h : v.Precedes w) : v.start ≤ w.start := by
  rcases h with lower | ⟨same, -⟩
  · exact UInt64.le_of_lt lower
  · exact UInt64.le_of_eq same

theorem Precedes.trans {u v w : DirectWindow} (h : u.Precedes v) (h' : v.Precedes w) :
    u.Precedes w := by
  simp only [Precedes, UInt64.lt_iff_toNat_lt, ← UInt64.toNat_inj] at h h' ⊢
  omega

end DirectWindow

theorem CacheEntry.before_eq_false_iff {e f : CacheEntry} :
    f.before e = false ↔ e.window.Precedes f.window := by
  simp only [before, DirectWindow.Precedes, Bool.or_eq_false_iff, Bool.and_eq_false_iff,
    decide_eq_false_iff_not, UInt64.lt_iff_toNat_lt, ← UInt64.toNat_inj]
  omega

theorem CacheEntry.precedes_of_before {e f : CacheEntry} (h : e.before f = true) :
    e.window.Precedes f.window := by
  simp only [before, Bool.or_eq_true, Bool.and_eq_true, decide_eq_true_eq] at h
  exact h.imp_right fun ⟨same, lower⟩ => ⟨same, Nat.le_of_lt lower⟩

namespace WindowCache

/-- **The windows of a cache are in order.** -/
structure Tidy (windows : List DirectWindow) : Prop where
  /-- Every window holds an address. -/
  holds : ∀ w ∈ windows, w.isEmpty = false
  /-- They are ordered by start and, within one start, by permission. -/
  ordered : windows.Pairwise DirectWindow.Precedes
  /-- No two can be merged. -/
  apart : windows.Pairwise fun v w => v.mergeable w = false

theorem Tidy.nil : Tidy [] := ⟨by simp, .nil, .nil⟩

/-- Windows that are left out are not missed. -/
theorem Tidy.sublist {windows kept : List DirectWindow} (h : Tidy windows)
    (fewer : kept.Sublist windows) : Tidy kept :=
  ⟨fun w cached => h.holds w (fewer.subset cached), h.ordered.sublist fewer, h.apart.sublist fewer⟩

/-- Of two different windows, neither continues the other. -/
theorem Tidy.eq_of_continues {windows : List DirectWindow} (h : Tidy windows) {v w : DirectWindow}
    (first : v ∈ windows) (second : w ∈ windows) (continues : v.Continues w) : v = w := by
  have : Std.Symm fun v w : DirectWindow => v.mergeable w = false :=
    ⟨fun v w apart => (DirectWindow.mergeable_comm w v).trans apart⟩
  by_contra different
  exact DirectWindow.not_continues_of_mergeable (h.holds v first) (h.holds w second)
    (h.apart.forall first second different) continues

/-! ### Placing -/

theorem ordered_place (e : CacheEntry) {entries : List CacheEntry}
    (h : (entries.map CacheEntry.window).Pairwise DirectWindow.Precedes) :
    ((place e entries).map CacheEntry.window).Pairwise DirectWindow.Precedes := by
  induction entries with
  | nil => simp [place]
  | cons f rest ih =>
      rw [List.map_cons, List.pairwise_cons] at h
      obtain ⟨first, ordered⟩ := h
      unfold place
      split
      · next before =>
          rw [List.map_cons, List.pairwise_cons]
          refine ⟨fun w placed => ?_, ih ordered⟩
          rw [((perm_place e rest).map CacheEntry.window).mem_iff, List.map_cons,
            List.mem_cons] at placed
          rcases placed with rfl | old
          · exact CacheEntry.precedes_of_before before
          · exact first w old
      · next after =>
          have precedes : e.window.Precedes f.window :=
            CacheEntry.before_eq_false_iff.1 (Bool.not_eq_true _ ▸ after)
          rw [List.map_cons, List.map_cons, List.pairwise_cons, List.pairwise_cons]
          refine ⟨fun w behind => ?_, first, ordered⟩
          rcases List.mem_cons.1 behind with rfl | later
          · exact precedes
          · exact precedes.trans (first w later)

/-- Placing an entry that can be merged with no other keeps the order. -/
theorem Tidy.place {e : CacheEntry} {entries : List CacheEntry}
    (h : Tidy (entries.map CacheEntry.window)) (holds : e.window.isEmpty = false)
    (apart : ∀ f ∈ entries, f.window.mergeable e.window = false) :
    Tidy ((place e entries).map CacheEntry.window) := by
  have perm := (perm_place e entries).map CacheEntry.window
  refine ⟨fun w placed => ?_, ordered_place e h.ordered, ?_⟩
  · rw [perm.mem_iff, List.map_cons, List.mem_cons] at placed
    rcases placed with rfl | old
    · exact holds
    · exact h.holds w old
  · refine (perm.pairwise_iff fun {v w} apart => ?_).2 ?_
    · exact (DirectWindow.mergeable_comm w v).trans apart
    · rw [List.map_cons, List.pairwise_cons]
      refine ⟨fun w old => ?_, h.apart⟩
      obtain ⟨f, cached, rfl⟩ := List.mem_map.1 old
      exact (DirectWindow.mergeable_comm _ _).trans (apart f cached)

/-! ### Merging -/

theorem absorb_sublist (rounds : Nat) (w : DirectWindow) (entries : List CacheEntry) :
    (absorb rounds w entries).2.Sublist entries := by
  induction rounds generalizing w entries with
  | zero => exact List.Sublist.refl _
  | succ rounds ih =>
      rcases absorb_cases rounds w entries with ⟨same, -⟩ | ⟨e, rest, fewer, -, -, next⟩
      · simpa only [same] using List.Sublist.refl entries
      · rw [next]
        exact (ih _ _).trans fewer

theorem isEmpty_absorb (rounds : Nat) {w : DirectWindow} (entries : List CacheEntry)
    (holds : w.isEmpty = false) : (absorb rounds w entries).1.isEmpty = false := by
  induction rounds generalizing w entries with
  | zero => exact holds
  | succ rounds ih =>
      rcases absorb_cases rounds w entries with ⟨same, -⟩ | ⟨e, rest, -, -, mergeable, next⟩
      · rw [same]
        exact holds
      · rw [next]
        exact ih _ (DirectWindow.isEmpty_merge (DirectWindow.mergeable_comm _ _ ▸ mergeable))

/-- **After as many rounds as there are entries, the merged window is mergeable with none that is
left.** -/
theorem mergeable_absorb {rounds : Nat} (w : DirectWindow) {entries : List CacheEntry}
    (enough : entries.length ≤ rounds) :
    ∀ e ∈ (absorb rounds w entries).2, e.window.mergeable (absorb rounds w entries).1 = false := by
  induction rounds generalizing w entries with
  | zero =>
      rw [List.length_eq_zero_iff.1 (Nat.le_zero.1 enough)]
      exact fun e absent => absurd absent List.not_mem_nil
  | succ rounds ih =>
      rcases absorb_cases rounds w entries with ⟨same, apart⟩ | ⟨e, rest, -, front, -, next⟩
      · rw [same]
        exact apart
      · rw [next]
        refine ih _ ?_
        rw [front.length_eq, List.length_cons] at enough
        omega

/-! ### Insertion -/

theorem Tidy.joined {c : WindowCache} (h : Tidy c.windows) {w : DirectWindow}
    (holds : w.isEmpty = false) : Tidy ((c.joined w).map CacheEntry.window) :=
  (h.sublist ((absorb_sublist _ w c.entries).map CacheEntry.window)).place
    (isEmpty_absorb _ _ holds) (mergeable_absorb w (Nat.le_refl _))

/-- **An insertion keeps the order.** -/
theorem Tidy.insert {c : WindowCache} (h : Tidy c.windows) (w : DirectWindow) :
    Tidy (c.insert w).windows := by
  rcases c.insert_cases w with ⟨same, -⟩ | ⟨holds, -, fewer, -⟩
  · rwa [same]
  · exact (h.joined holds).sublist (fewer.map CacheEntry.window)

/-! ### Withdrawal -/

/-- What a cut leaves of an entry are parts of its window, each with an address. -/
theorem isPartOf_of_mem_cut {e f : CacheEntry} {range : AddressRange} (h : f ∈ e.cut range)
    (holds : e.window.isEmpty = false) :
    f.window.IsPartOf e.window ∧ f.window.isEmpty = false := by
  unfold CacheEntry.cut at h
  split at h
  · obtain ⟨piece, -, restricted⟩ := List.mem_filterMap.1 h
    obtain ⟨w, found, rfl⟩ := Option.map_eq_some_iff.1 restricted
    exact ⟨DirectWindow.isPartOf_of_restrict found, DirectWindow.isEmpty_of_restrict found⟩
  · rw [List.mem_singleton.1 h]
    exact ⟨.refl _, holds⟩

/-- What a cut leaves of one entry cannot be merged again. -/
theorem pairwise_cut (e : CacheEntry) (range : AddressRange) :
    (e.cut range).Pairwise fun f g => f.window.mergeable g.window = false := by
  unfold CacheEntry.cut
  split
  · rw [List.pairwise_filterMap]
    cases pieces : e.window.range.subtract range with
    | nothing => simp
    | one piece => simp
    | two low high =>
        have distant := AddressRange.not_adjoins_of_subtract pieces
        simp only [Remainder.pieces_two, List.pairwise_cons, List.mem_singleton, forall_eq,
          List.not_mem_nil, false_imp_iff, implies_true, List.Pairwise.nil, and_true,
          Option.map_eq_some_iff]
        rintro f ⟨v, below, rfl⟩ g ⟨w, above, rfl⟩
        rw [← Bool.not_eq_true]
        intro mergeable
        obtain ⟨leftHolds, rightHolds, together⟩ :=
          DirectWindow.mergeable_iff_continues.1 mergeable
        refine distant (together.adjoins.mono leftHolds rightHolds ?_ ?_)
        · exact fun a inside => ((DirectWindow.mem_of_restrict_eq_some below).1 inside).2
        · exact fun a inside => ((DirectWindow.mem_of_restrict_eq_some above).1 inside).2
  · exact List.pairwise_singleton _ _

/-- The pieces of all entries are placed one by one, so they come out in order. -/
theorem ordered_foldr_place (entries : List CacheEntry) :
    ((entries.foldr place []).map CacheEntry.window).Pairwise DirectWindow.Precedes := by
  induction entries with
  | nil => exact .nil
  | cons e rest ih => exact ordered_place e ih

/-- **A cut keeps the order.** -/
theorem Tidy.cut {c : WindowCache} (h : Tidy c.windows) (range : AddressRange) :
    Tidy (c.cut range).windows := by
  unfold WindowCache.cut
  split
  · have perm := perm_foldr_place (c.entries.flatMap fun e => e.cut range)
    refine ⟨fun w placed => ?_, ordered_foldr_place _, ?_⟩
    · obtain ⟨f, piece, rfl⟩ := List.mem_map.1 placed
      obtain ⟨e, cached, piece⟩ := List.mem_flatMap.1 (perm.mem_iff.1 piece)
      exact (isPartOf_of_mem_cut piece (h.holds _ (List.mem_map_of_mem cached))).2
    · refine List.pairwise_map.2 ((perm.pairwise_iff fun {f g} apart => ?_).2 ?_)
      · exact (DirectWindow.mergeable_comm _ _).trans apart
      · rw [List.pairwise_flatMap]
        refine ⟨fun e _ => pairwise_cut e range, ?_⟩
        -- pieces of two entries that can be merged would make the entries mergeable
        refine (List.pairwise_map.1 h.apart).imp_of_mem fun {d e} here there apart => ?_
        intro f left g right
        have partLeft := (isPartOf_of_mem_cut left (h.holds _ (List.mem_map_of_mem here))).1
        have partRight := (isPartOf_of_mem_cut right (h.holds _ (List.mem_map_of_mem there))).1
        rw [← Bool.not_eq_true]
        intro mergeable
        rw [DirectWindow.mergeable_of_parts partLeft partRight mergeable] at apart
        cases apart
  · exact h

/-! ### Runs -/

/-- **What can be done to a cache.** -/
inductive Operation where
  /-- A window is added. -/
  | insert (w : DirectWindow)
  /-- A window for a range is looked for. -/
  | lookup (range : AddressRange) (command : Command)
  /-- A window for so many addresses is looked for. -/
  | lookupAt (start : UInt64) (size : Nat) (command : Command)
  /-- A range is withdrawn. -/
  | withdraw (range : AddressRange)
  /-- The addresses between two bounds are withdrawn. -/
  | withdrawBetween (start last : UInt64)
  /-- All entries are dropped. -/
  | clear

/-- The cache after an operation. -/
def perform (c : WindowCache) : Operation → WindowCache
  | .insert w => c.insert w
  | .lookup range command => (c.lookup range command).2
  | .lookupAt start size command => (c.lookupAt start size command).2
  | .withdraw range => (c.withdraw range).2
  | .withdrawBetween start last => (c.withdrawBetween start last).2
  | .clear => c.clear

/-- **The cache with the given limit after some operations.** -/
def run (limit : Option Nat) (operations : List Operation) : WindowCache :=
  operations.foldl perform (withLimit limit)

theorem windows_lookupAt (c : WindowCache) (start : UInt64) (size : Nat) (command : Command) :
    (c.lookupAt start size command).2.windows = c.windows := by
  unfold lookupAt
  split
  · exact windows_lookup c _ command
  · rfl

theorem Tidy.withdrawBetween {c : WindowCache} (h : Tidy c.windows) (start last : UInt64) :
    Tidy (c.withdrawBetween start last).2.windows := by
  unfold WindowCache.withdrawBetween
  split
  · exact h.cut _
  · exact h

/-- **Every operation keeps the order.** -/
theorem Tidy.perform {c : WindowCache} (h : Tidy c.windows) (operation : Operation) :
    Tidy (c.perform operation).windows := by
  cases operation with
  | insert w => exact h.insert w
  | lookup range command => exact (c.windows_lookup range command).symm ▸ h
  | lookupAt start size command => exact (c.windows_lookupAt start size command).symm ▸ h
  | withdraw range => exact h.cut range
  | withdrawBetween start last => exact h.withdrawBetween start last
  | clear => exact .nil

theorem tidy_foldl {c : WindowCache} (h : Tidy c.windows) (operations : List Operation) :
    Tidy (operations.foldl WindowCache.perform c).windows := by
  induction operations generalizing c with
  | nil => exact h
  | cons operation rest ih => exact ih (h.perform operation)

theorem tidy_run (limit : Option Nat) (operations : List Operation) :
    Tidy (run limit operations).windows :=
  tidy_foldl (c := withLimit limit) .nil operations

/-- **After any operations on a cache of any limit, every window holds an address, the windows are
ordered by start and permission, and no two can be merged:** of no two are the permissions equal,
the ranges overlapping or touching, and the pointers lined up. -/
theorem windows_run_ordered_apart (limit : Option Nat) (operations : List Operation) :
    (∀ w ∈ (run limit operations).windows, w.isEmpty = false) ∧
      (run limit operations).windows.Pairwise DirectWindow.Precedes ∧
      (run limit operations).windows.Pairwise fun v w =>
        v.mergeable w = false ∧ w.mergeable v = false ∧ ¬ v.Continues w := by
  have tidy := tidy_run limit operations
  refine ⟨tidy.holds, tidy.ordered, tidy.apart.imp_of_mem fun {v w} first second apart => ?_⟩
  exact ⟨apart, (DirectWindow.mergeable_comm w v).trans apart,
    DirectWindow.not_continues_of_mergeable (tidy.holds v first) (tidy.holds w second) apart⟩

/-- Three windows that make one are cut in two, and a fourth one, which touches both pieces, has
another permission: they stay three. -/
theorem exists_windows_run_ordered_apart :
    ∃ u v w, (run none [
        .insert ⟨⟨0, 9, by decide⟩, ⟨none, 0x1000⟩, .readOnly⟩,
        .insert ⟨⟨20, 29, by decide⟩, ⟨none, 0x1014⟩, .readOnly⟩,
        .insert ⟨⟨10, 19, by decide⟩, ⟨none, 0x100a⟩, .readOnly⟩,
        .withdraw ⟨4, 5, by decide⟩,
        .insert ⟨⟨4, 5, by decide⟩, ⟨none, 0x1004⟩, .readWrite⟩]).windows = [u, v, w] ∧
      v.isEmpty = false ∧ u.Precedes w ∧ u.mergeable v = false ∧ ¬ u.Continues w := by
  obtain ⟨holds, ordered, apart⟩ := windows_run_ordered_apart none [
    .insert ⟨⟨0, 9, by decide⟩, ⟨none, 0x1000⟩, .readOnly⟩,
    .insert ⟨⟨20, 29, by decide⟩, ⟨none, 0x1014⟩, .readOnly⟩,
    .insert ⟨⟨10, 19, by decide⟩, ⟨none, 0x100a⟩, .readOnly⟩,
    .withdraw ⟨4, 5, by decide⟩,
    .insert ⟨⟨4, 5, by decide⟩, ⟨none, 0x1004⟩, .readWrite⟩]
  have first := List.pairwise_cons.1 ordered
  have alone := List.pairwise_cons.1 apart
  refine ⟨⟨⟨0, 3, by decide⟩, ⟨none, 0x1000⟩, .readOnly⟩,
    ⟨⟨4, 5, by decide⟩, ⟨none, 0x1004⟩, .readWrite⟩,
    ⟨⟨6, 29, by decide⟩, ⟨none, 0x1006⟩, .readOnly⟩, rfl, ?_, ?_, ?_, ?_⟩
  · exact holds _ (.tail _ (.head _))
  · exact first.1 _ (.tail _ (.head _))
  · exact (alone.1 _ (.head _)).1
  · exact (alone.1 _ (.tail _ (.head _))).2.2

end WindowCache

end Interconnect
