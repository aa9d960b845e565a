import Interconnect.Proofs.Window.Recency

/-!
# What an insertion drops

An insertion merges the window with the entries that it can be merged with, and then drops entries
until the limit holds.  It drops those that were used longest ago, however many withdrawals have
split since the limit held, and never the one that it has just made.

## Main Definitions

* `Joins` — a window as it is cached
* `Inserts` — what an insertion makes of a cache with a limit

## Main Statements

* `joined_spec` — the entries before any is dropped
* `lastUse_le_of_evict` — no entry is dropped that was used after one that is left
* `run_drops_longest_unused` — both, after any operations, in terms of what used the windows

### Why merging does not go on

What has been merged with the window reaches further than the window, and could be mergeable with
more.  But the entries of a cache cannot be merged with each other, and a window that is mergeable
with a union is mergeable with a part of it.
-/

namespace Interconnect

namespace DirectWindow

/-- **A window that is mergeable with a union is mergeable with one of its parts.** -/
theorem mergeable_of_mergeable_merge {u v w : DirectWindow} (h : v.mergeable w = true)
    (together : u.mergeable (v.merge w) = true) :
    u.mergeable v = true ∨ u.mergeable w = true := by
  obtain ⟨leftHolds, rightHolds, pair⟩ := mergeable_iff_continues.1 h
  obtain ⟨holds, unionHolds, continues⟩ := mergeable_iff_continues.1 together
  have left : u.range.Adjoins v.range → u.mergeable v = true := fun adjoins =>
    mergeable_iff_continues.2 ⟨holds, leftHolds, continues.permission, adjoins, fun a =>
      (continues.aligned a).trans (pointerFor_merge h a)⟩
  have right : u.range.Adjoins w.range → u.mergeable w = true := fun adjoins =>
    mergeable_iff_continues.2 ⟨holds, rightHolds, continues.permission.trans pair.permission,
      adjoins, fun a => (continues.aligned a).trans ((pointerFor_merge h a).trans (pair.aligned a))⟩
  refine Or.imp left right ?_
  -- a range that adjoins neither of two ranges that adjoin lies beyond both
  obtain ⟨below, above⟩ := (AddressRange.adjoins_iff holds unionHolds).1 continues.adjoins
  have meet := (AddressRange.adjoins_iff leftHolds rightHolds).1 pair.adjoins
  rw [AddressRange.adjoins_iff holds leftHolds, AddressRange.adjoins_iff holds rightHolds]
  simp only [merge, AddressRange.start_hull, AddressRange.last_hull, apply_ite UInt64.toNat,
    UInt64.le_iff_toNat_le] at below above
  simp only [isEmpty, AddressRange.isEmpty_eq_false_iff, UInt64.le_iff_toNat_le]
    at holds leftHolds rightHolds
  split at below <;> split at above <;> omega

end DirectWindow

namespace WindowCache

/-! ### Dropping -/

theorem lastUse_le_of_stalest {entries : List CacheEntry} {e : CacheEntry}
    (stale : stalest entries = some e) : ∀ f ∈ entries, e.lastUse ≤ f.lastUse := by
  induction entries generalizing e with
  | nil => cases stale
  | cons g rest ih =>
      unfold stalest at stale
      split at stale
      · next nobody =>
          cases stale
          rw [stalest_eq_none_iff.1 nobody]
          simp
      · next last found =>
          have least := ih found
          split at stale
          · cases stale
            exact List.forall_mem_cons.2 ⟨by omega, least⟩
          · cases stale
            refine List.forall_mem_cons.2 ⟨Nat.le_refl _, fun f later => ?_⟩
            have := least f later
            omega

/-- **No entry is dropped that was used after one that is left.** -/
theorem lastUse_le_of_evict {rounds limit : Nat} {entries : List CacheEntry} {e f : CacheEntry}
    (cached : e ∈ entries) (dropped : e ∉ evict rounds limit entries)
    (left : f ∈ evict rounds limit entries) : e.lastUse ≤ f.lastUse := by
  induction rounds generalizing entries with
  | zero => exact absurd cached dropped
  | succ rounds ih =>
      have before : f ∈ entries := (evict_sublist _ _ _).subset left
      unfold evict at dropped left
      split at dropped
      · exact absurd cached dropped
      · next many =>
          rw [if_neg many] at left
          split at dropped
          · exact absurd cached dropped
          · next g stale =>
              rw [stale] at left
              by_cases now : e = g
              · exact now ▸ lastUse_le_of_stalest stale f before
              · exact ih ((List.mem_erase_of_ne now).2 cached) dropped left

/-! ### Joining -/

/-- **The window `m` is what the cache makes of `w`:** the window together with all cached windows
that it is mergeable with. -/
structure Joins (c : WindowCache) (w m : DirectWindow) : Prop where
  /-- The window is a part of it. -/
  part : w.IsPartOf m
  /-- So is every window that it is mergeable with. -/
  absorbed : ∀ v ∈ c.windows, v.mergeable w = true → v.IsPartOf m
  /-- It has no other address. -/
  filled : ∀ a ∈ m.range, a ∈ w.range ∨ ∃ v ∈ c.windows, v.mergeable w = true ∧ a ∈ v.range

/-- The entries that are merged with a window are those that it is mergeable with. -/
theorem exists_absorbed (rounds : Nat) (w : DirectWindow) {entries : List CacheEntry}
    (apart : entries.Pairwise fun e f => e.window.mergeable f.window = false) :
    ∃ taken, entries.Perm (taken ++ (absorb rounds w entries).2) ∧
      (∀ e ∈ taken, e.window.mergeable w = true ∧
        e.window.IsPartOf (absorb rounds w entries).1) ∧
      ∀ a ∈ (absorb rounds w entries).1.range,
        a ∈ w.range ∨ ∃ e ∈ taken, a ∈ e.window.range := by
  induction rounds generalizing w entries with
  | zero => exact ⟨[], .refl _, by simp, fun a inside => .inl inside⟩
  | succ rounds ih =>
      rcases absorb_cases rounds w entries with ⟨same, -⟩ | ⟨e, rest, fewer, front, merged, next⟩
      · rw [same]
        exact ⟨[], .refl _, by simp, fun a inside => .inl inside⟩
      · have turned : w.mergeable e.window = true := DirectWindow.mergeable_comm _ _ ▸ merged
        have alone : ∀ f ∈ rest, f.window.mergeable e.window = false := by
          have first := (front.pairwise_iff fun {f g} distinct =>
            (DirectWindow.mergeable_comm _ _).trans distinct).1 apart
          intro f later
          rw [DirectWindow.mergeable_comm]
          exact (List.pairwise_cons.1 first).1 f later
        obtain ⟨taken, perm, parts, filled⟩ := ih (w.merge e.window) (apart.sublist fewer)
        have whole := isPartOf_absorb rounds (w.merge e.window) rest
        rw [next]
        refine ⟨e :: taken, front.trans (perm.cons e), ?_, fun a inside => ?_⟩
        · refine List.forall_mem_cons.2 ⟨⟨merged, ?_⟩, fun f later => ?_⟩
          · exact (DirectWindow.isPartOf_merge_right turned).trans whole
          · obtain ⟨together, part⟩ := parts f later
            have among : f ∈ rest := perm.mem_iff.2 (List.mem_append_left _ later)
            have distinct : ¬ f.window.mergeable e.window = true := by
              rw [alone f among]
              exact Bool.false_ne_true
            exact ⟨(DirectWindow.mergeable_of_mergeable_merge turned together).resolve_right
              distinct, part⟩
        · rcases filled a inside with united | ⟨f, later, there⟩
          · rcases (DirectWindow.mem_range_merge turned).1 united with here | there
            · exact .inl here
            · exact .inr ⟨e, List.mem_cons_self, there⟩
          · exact .inr ⟨f, List.mem_cons_of_mem e later, there⟩

section

variable {c : WindowCache} (tidy : Tidy c.windows) (w : DirectWindow)
include tidy

/-- The entries that are left beside a window are those that it is not mergeable with. -/
theorem perm_filter_absorb : (absorb c.entries.length w c.entries).2.Perm
    (c.entries.filter fun e => !e.window.mergeable w) := by
  obtain ⟨taken, perm, parts, -⟩ :=
    exists_absorbed c.entries.length w (List.pairwise_map.1 tidy.apart)
  have emptied : taken.filter (fun e => !e.window.mergeable w) = [] := by
    refine List.filter_eq_nil_iff.2 fun e merged => ?_
    simp [(parts e merged).1]
  have whole : (absorb c.entries.length w c.entries).2.filter (fun e => !e.window.mergeable w) =
      (absorb c.entries.length w c.entries).2 := by
    refine List.filter_eq_self.2 fun e untouched => ?_
    have apart := mergeable_absorb w (Nat.le_refl _) e untouched
    cases together : e.window.mergeable w with
    | false => rfl
    | true =>
        have part := isPartOf_absorb c.entries.length w c.entries
        rw [DirectWindow.mergeable_of_parts (.refl _) part together] at apart
        cases apart
  have split := perm.filter fun e => !e.window.mergeable w
  rw [List.filter_append, emptied, whole, List.nil_append] at split
  exact split.symm

theorem joins_absorb : Joins c w (absorb c.entries.length w c.entries).1 := by
  obtain ⟨taken, perm, parts, filled⟩ :=
    exists_absorbed c.entries.length w (List.pairwise_map.1 tidy.apart)
  refine ⟨isPartOf_absorb _ _ _, fun v cached together => ?_, fun a inside => ?_⟩
  · obtain ⟨e, stored, rfl⟩ := List.mem_map.1 cached
    rcases List.mem_append.1 (perm.mem_iff.1 stored) with merged | untouched
    · exact (parts e merged).2
    · have apart := (List.mem_filter.1 ((perm_filter_absorb tidy w).mem_iff.1 untouched)).2
      rw [together] at apart
      cases apart
  · refine (filled a inside).imp_right fun ⟨e, merged, there⟩ => ?_
    have stored : e ∈ c.entries := perm.mem_iff.2 (List.mem_append_left _ merged)
    exact ⟨e.window, List.mem_map_of_mem stored, (parts e merged).1, there⟩

/-- **The entries before any is dropped** are a new one for the window, with the entries that it is
mergeable with, and all others. -/
theorem joined_spec :
    ∃ m, Joins c w m ∧ (c.joined w).length = 1 + c.windows.countP (fun v => !v.mergeable w) ∧
      ∀ e, e ∈ c.joined w ↔
        e = ⟨m, c.uses + 1⟩ ∨ (e ∈ c.entries ∧ e.window.mergeable w = false) := by
  have placed := (perm_place ⟨(absorb c.entries.length w c.entries).1, c.uses + 1⟩ _).trans
    ((perm_filter_absorb tidy w).cons _)
  refine ⟨_, joins_absorb tidy w, ?_, fun e => ?_⟩
  · rw [joined, placed.length_eq, List.length_cons, windows, List.countP_map, Nat.add_comm,
      ← List.countP_eq_length_filter]
    rfl
  · rw [joined, placed.mem_iff, List.mem_cons, List.mem_filter, Bool.not_eq_true']

end

/-! ### Runs -/

/-- A mark is the number of a use. -/
theorem lastUse_le_uses {limit : Option Nat} (room : limit ≠ some 0) {operations : List Operation}
    {e : CacheEntry} (cached : e ∈ (run limit operations).entries) :
    e.lastUse ≤ (run limit operations).uses := by
  obtain ⟨k, last⟩ := exists_lastUsed room operations cached
  have made := last.madeBy room cached rfl
  have index : k + 1 ≤ operations.length := made.index
  have within := uses_take_le limit operations index
  rwa [made.after, List.take_length] at within

/-- **What an insertion makes of a cache with a limit,** after some operations, if `m` is the window
as it is cached. -/
structure Inserts (limit : Nat) (past : List Operation) (w m : DirectWindow) : Prop where
  /-- There are as many windows as the limit allows, if they are that many. -/
  length : (run (some limit) (past ++ [.insert w])).windows.length =
    min limit (1 + (run (some limit) past).windows.countP fun v => !v.mergeable w)
  /-- The window has been merged with those that it was mergeable with. -/
  joins : Joins (run (some limit) past) w m
  /-- It is cached. -/
  cached : m ∈ (run (some limit) (past ++ [.insert w])).windows
  /-- Any other window was cached before, and has not been used since. -/
  kept : ∀ v ∈ (run (some limit) (past ++ [.insert w])).windows, v ≠ m →
    v ∈ (run (some limit) past).windows ∧ v.mergeable w = false ∧
      ∀ k, LastUsed (some limit) (past ++ [.insert w]) v k ↔ LastUsed (some limit) past v k
  /-- A window that is cached no longer was last used no later than any that is. -/
  oldest : ∀ u ∈ (run (some limit) past).windows, u.mergeable w = false →
    u ∉ (run (some limit) (past ++ [.insert w])).windows →
    ∀ v k l, LastUsed (some limit) past u k →
      LastUsed (some limit) (past ++ [.insert w]) v l → k ≤ l

theorem windows_run_zero (operations : List Operation) :
    (run (some 0) operations).windows = [] := by
  induction operations using List.reverseRecOn with
  | nil => rfl
  | append_singleton past operation ih =>
      rw [run_concat]
      exact windows_perform_eq_nil (limit_run _ past) ih operation

section

variable {limit : Nat} (positive : limit ≠ 0) {past : List Operation} {w : DirectWindow}
  (holds : w.isEmpty = false)
include positive holds

theorem entries_run_insert :
    (run (some limit) (past ++ [.insert w])).entries =
      evict ((run (some limit) past).joined w).length limit ((run (some limit) past).joined w) := by
  rw [run_concat]
  exact entries_insert (limit_run _ past) positive holds

/-- **The new entry is not dropped,** since no other has been used as late. -/
theorem newest_kept {m : DirectWindow}
    (joined : ∀ e, e ∈ (run (some limit) past).joined w ↔
      e = ⟨m, (run (some limit) past).uses + 1⟩ ∨
        (e ∈ (run (some limit) past).entries ∧ e.window.mergeable w = false)) :
    (⟨m, (run (some limit) past).uses + 1⟩ : CacheEntry) ∈
      (run (some limit) (past ++ [.insert w])).entries := by
  have new := (joined ⟨m, (run (some limit) past).uses + 1⟩).2 (.inl rfl)
  rw [entries_run_insert positive holds]
  by_contra dropped
  have nonempty : 0 < (evict ((run (some limit) past).joined w).length limit
      ((run (some limit) past).joined w)).length := by
    rw [length_evict (Nat.le_add_right _ _)]
    have := List.length_pos_of_mem new
    omega
  obtain ⟨f, left⟩ := List.exists_mem_of_length_pos nonempty
  have later : (run (some limit) past).uses + 1 ≤ f.lastUse :=
    lastUse_le_of_evict new dropped left
  rcases (joined f).1 ((evict_sublist _ _ _).subset left) with rfl | ⟨old, -⟩
  · exact dropped left
  · have earlier := lastUse_le_uses (mt Option.some.inj positive) old
    omega

/-- A window that stays beside the new one has the last use that it had. -/
theorem lastUsed_insert_iff {v : DirectWindow} (before : v ∈ (run (some limit) past).windows)
    (after : v ∈ (run (some limit) (past ++ [.insert w])).windows)
    (apart : v.mergeable w = false) (k : Nat) :
    LastUsed (some limit) (past ++ [.insert w]) v k ↔ LastUsed (some limit) past v k := by
  have room : some limit ≠ some 0 := mt Option.some.inj positive
  have idle : ¬ (Operation.insert w).Uses (run (some limit) past) v := by
    rintro ⟨-, part⟩
    rw [DirectWindow.mergeable_of_parts part (.refl w) (DirectWindow.mergeable_self holds)] at apart
    cases apart
  have keeps : ∀ k, LastUsed (some limit) past v k →
      LastUsed (some limit) (past ++ [.insert w]) v k :=
    fun k last => .unused last (.refl v) after idle
  refine ⟨fun last => ?_, keeps k⟩
  obtain ⟨l, earlier, -⟩ := existsUnique_lastUsed room before
  rwa [(existsUnique_lastUsed room after).unique last (keeps l earlier)]

theorem exists_inserts : ∃ m, Inserts limit past w m := by
  obtain ⟨m, joins, count, joined⟩ := joined_spec (tidy_run (some limit) past) w
  have room : some limit ≠ some 0 := mt Option.some.inj positive
  have entries : (run (some limit) (past ++ [.insert w])).entries = _ :=
    entries_run_insert positive holds
  refine ⟨m, ?_, joins, List.mem_map_of_mem (newest_kept positive holds joined), ?_, ?_⟩
  · rw [windows, List.length_map, entries, length_evict (Nat.le_add_right _ _), count]
  · intro v after other
    obtain ⟨e, stored, rfl⟩ := List.mem_map.1 after
    rcases (joined e).1 ((evict_sublist _ _ _).subset (entries ▸ stored)) with rfl | ⟨old, apart⟩
    · exact absurd rfl other
    · have before := List.mem_map_of_mem (f := CacheEntry.window) old
      exact ⟨before, apart, lastUsed_insert_iff positive holds before after apart⟩
  · intro u before apart gone v k l first second
    obtain ⟨e, old, rfl⟩ := List.mem_map.1 before
    obtain ⟨f, stored, rfl⟩ := List.mem_map.1 second.cached
    have dropped : e ∉ (run (some limit) (past ++ [.insert w])).entries :=
      fun stays => gone (List.mem_map_of_mem stays)
    have older : e.lastUse ≤ f.lastUse := by
      rw [entries] at dropped stored
      exact lastUse_le_of_evict ((joined e).2 (.inr ⟨old, apart⟩)) dropped stored
    have made := (first.madeBy room old rfl).concat (.insert w)
    exact (made.le_iff (second.madeBy room stored rfl)).1 older

end

/-- **A cache drops what was used longest ago.**  After any operations on a cache with a limit,
there are no more uses than operations, nothing is cached if the limit is zero, and every cached
window has one last use.  If a window is then inserted, the cache holds no more windows than the
limit allows, among them the one that has been merged with all it was mergeable with; every other
one is as it was, and was last used no earlier than any that has been dropped. -/
theorem run_drops_longest_unused (limit : Nat) (operations : List Operation) :
    (run (some limit) operations).uses ≤ operations.length ∧
      (limit = 0 → (run (some limit) operations).windows = []) ∧
      (∀ v ∈ (run (some limit) operations).windows,
        ∃! k, LastUsed (some limit) operations v k) ∧
      (limit ≠ 0 → ∀ w : DirectWindow, w.isEmpty = false → ∃ m, Inserts limit operations w m) := by
  have closed : limit = 0 → (run (some limit) operations).windows = [] := by
    rintro rfl
    exact windows_run_zero operations
  refine ⟨uses_run_le _ _, closed, fun v cached => ?_, fun positive w holds =>
    exists_inserts positive holds⟩
  by_cases zero : limit = 0
  · rw [closed zero] at cached
    exact absurd cached List.not_mem_nil
  · exact existsUnique_lastUsed (mt Option.some.inj zero) cached

/-- In a cache for two windows the second has been split, and the first has been looked up since.
When a third is inserted, both pieces are dropped: they were last used when the second was. -/
theorem exists_inserts_dropping_pieces :
    ∃ (past : List Operation) (w m u v : DirectWindow), w.isEmpty = false ∧
      Inserts 2 past w m ∧ u ∈ (run (some 2) past).windows ∧ v ∈ (run (some 2) past).windows ∧
      u ∉ (run (some 2) (past ++ [.insert w])).windows ∧
      v ∈ (run (some 2) (past ++ [.insert w])).windows ∧
      LastUsed (some 2) past u 1 ∧ LastUsed (some 2) past v 3 := by
  let first : AddressRange := ⟨0, 0, by decide⟩
  let search : Operation := .lookup first .read
  let u : DirectWindow := ⟨⟨106, 109, by decide⟩, ⟨none, 0x8006⟩, .readOnly⟩
  let v : DirectWindow := ⟨⟨0, 9, by decide⟩, ⟨none, 0x1000⟩, .readOnly⟩
  let whole : DirectWindow := ⟨⟨100, 109, by decide⟩, ⟨none, 0x8000⟩, .readOnly⟩
  have inserted : LastUsed (some 2) ([.insert v] ++ [.insert whole]) whole 1 :=
    .used (by decide +kernel) ⟨rfl, .refl whole⟩
  have split : LastUsed (some 2) ([.insert v, .insert whole] ++ [.withdraw ⟨104, 105, by decide⟩])
      u 1 :=
    .unused inserted (DirectWindow.isPartOf_of_contains (by decide) rfl (by decide))
      (by decide +kernel) id
  have hit : ((run (some 2) splitSecond).lookup first .read).1 = some v := by decide +kernel
  have other : ((run (some 2) splitSecond).lookup first .read).1 ≠ some u := by decide +kernel
  have passed : LastUsed (some 2) (splitSecond ++ [search]) u 1 :=
    .unused split (.refl u) (by decide +kernel) other
  have found : LastUsed (some 2) (splitSecond ++ [search]) v 3 :=
    .used (by decide +kernel) hit
  obtain ⟨-, -, -, inserts⟩ := run_drops_longest_unused 2 (splitSecond ++ [search])
  obtain ⟨m, made⟩ :=
    inserts (by decide) ⟨⟨200, 209, by decide⟩, ⟨none, 0xf000⟩, .readOnly⟩ rfl
  exact ⟨splitSecond ++ [search], _, m, u, v, rfl, made, passed.cached, found.cached,
    by decide +kernel, by decide +kernel, passed, found⟩

end WindowCache

end Interconnect
