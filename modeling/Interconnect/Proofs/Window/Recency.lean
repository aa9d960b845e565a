import Mathlib.Data.List.Induction
import Mathlib.Data.List.Nodup
import Interconnect.Proofs.Window.Canonical
import Interconnect.Proofs.Window.Limit

/-!
# The last use of a window

A cache numbers its uses and marks an entry with the use that last concerned it.  What that means is
told here without any numbers: of a history of operations, it is the last one that used the window,
or that used what the window was cut from.  The marks are ordered as these operations are.

## Main Definitions

* `Operation.Uses` — an operation uses a window
* `LastUsed` — the operation of a history that used a cached window last

## Main Statements

* `entry_cases` — an operation marks an entry exactly if it uses its window
* `uses_run_le` — there are no more uses than operations
* `existsUnique_lastUsed` — every cached window has one last use
* `lastUse_le_iff` — the marks tell which of two windows was used longer ago

### Why pieces have a last use of their own

What a withdrawal leaves of a window has not been used since the window was, and the two pieces of a
window have the same last use.  A window that is cached before and after an operation which does not
use it is the case of a piece with nothing cut off.
-/

namespace Interconnect

namespace WindowCache

/-- **The operation uses the window,** which is cached after it.  An insertion uses the window of
which the inserted one has become a part, and a lookup uses the one that it finds. -/
def Operation.Uses (operation : Operation) (c : WindowCache) (v : DirectWindow) : Prop :=
  match operation with
  | .insert w => w.isEmpty = false ∧ w.IsPartOf v
  | .lookup range command => (c.lookup range command).1 = some v
  | .lookupAt start size command => (c.lookupAt start size command).1 = some v
  | .withdraw _ | .withdrawBetween _ _ | .clear => False

/-- **The operation with the number `k` was the last to use the cached window,** or the window that
it was cut from. -/
inductive LastUsed (limit : Option Nat) : List Operation → DirectWindow → Nat → Prop
  /-- The operation uses the window. -/
  | used {past : List Operation} {operation : Operation} {v : DirectWindow}
      (cached : v ∈ (run limit (past ++ [operation])).windows)
      (uses : operation.Uses (run limit past) v) :
      LastUsed limit (past ++ [operation]) v past.length
  /-- The operation does not use the window, and leaves it of one that was cached before. -/
  | unused {past : List Operation} {operation : Operation} {u v : DirectWindow} {k : Nat}
      (before : LastUsed limit past u k) (part : v.IsPartOf u)
      (cached : v ∈ (run limit (past ++ [operation])).windows)
      (idle : ¬ operation.Uses (run limit past) v) :
      LastUsed limit (past ++ [operation]) v k

theorem LastUsed.cached {limit : Option Nat} {operations : List Operation} {v : DirectWindow}
    {k : Nat} (h : LastUsed limit operations v k) : v ∈ (run limit operations).windows := by
  cases h <;> assumption

theorem run_concat (limit : Option Nat) (past : List Operation) (operation : Operation) :
    run limit (past ++ [operation]) = (run limit past).perform operation := by
  simp only [run, List.foldl_append, List.foldl_cons, List.foldl_nil]

theorem limit_run (limit : Option Nat) (operations : List Operation) :
    (run limit operations).limit = limit := by
  induction operations using List.reverseRecOn with
  | nil => rfl
  | append_singleton past operation ih => rw [run_concat, limit_perform, ih]

/-! ### Marks -/

/-- A search that finds a window marks its entry and leaves the others. -/
theorem exists_marked_of_find? {range : AddressRange} {command : Command} {use : Nat}
    {entries after : List CacheEntry} {w : DirectWindow}
    (found : find? range command use entries = some (w, after)) :
    ∃ (front : List CacheEntry) (e : CacheEntry) (back : List CacheEntry),
      entries = front ++ e :: back ∧ e.window = w ∧
        after = front ++ { e with lastUse := use } :: back := by
  induction entries generalizing after with
  | nil => cases found
  | cons f rest ih =>
      unfold find? at found
      split at found
      · cases found
      · split at found
        · cases found
          exact ⟨[], f, rest, rfl, rfl, rfl⟩
        · obtain ⟨⟨v, tail⟩, later, eq⟩ := Option.map_eq_some_iff.1 found
          cases eq
          obtain ⟨front, e, back, rfl, window, rfl⟩ := ih later
          exact ⟨f :: front, e, back, rfl, window, rfl⟩

@[simp] theorem uses_lookup (c : WindowCache) (range : AddressRange) (command : Command) :
    (c.lookup range command).2.uses = c.uses + 1 := by
  unfold lookup
  dsimp only
  split <;> rfl

theorem uses_insert {c : WindowCache} {w : DirectWindow} (holds : w.isEmpty = false)
    (room : c.limit ≠ some 0) : (c.insert w).uses = c.uses + 1 := by
  have taken : ¬ (w.isEmpty || c.limit = some 0) = true := by simp [holds, room]
  rw [insert, if_neg taken]
  dsimp only
  split <;> rfl

@[simp] theorem uses_cut (c : WindowCache) (range : AddressRange) :
    (c.cut range).uses = c.uses := by
  unfold cut
  split <;> rfl

/-- A lookup marks the entry that it finds, and no other. -/
theorem entry_lookup_cases {c : WindowCache} (tidy : Tidy c.windows) {range : AddressRange}
    {command : Command} {e : CacheEntry} (cached : e ∈ (c.lookup range command).2.entries) :
    ((c.lookup range command).1 = some e.window ∧ e.lastUse = c.uses + 1) ∨
      ((c.lookup range command).1 ≠ some e.window ∧ e ∈ c.entries) := by
  unfold lookup at cached ⊢
  dsimp only at cached ⊢
  split at cached
  · next w after found =>
      obtain ⟨front, f, back, listed, rfl, rfl⟩ := exists_marked_of_find? found
      have once : (c.entries.map CacheEntry.window).Nodup := tidy.nodup
      rw [listed, List.map_append, List.map_cons, List.nodup_middle, List.nodup_cons,
        ← List.map_append] at once
      have other : e ∈ front ++ back → f.window ≠ e.window := fun rest same =>
        once.1 (same ▸ List.mem_map_of_mem rest)
      rw [listed]
      rcases List.mem_append.1 cached with left | right
      · exact .inr ⟨fun same => other (List.mem_append_left _ left) (Option.some.inj same),
          List.mem_append_left _ left⟩
      · rcases List.mem_cons.1 right with rfl | right
        · exact .inl ⟨rfl, rfl⟩
        · exact .inr ⟨fun same => other (List.mem_append_right _ right) (Option.some.inj same),
            List.mem_append_right _ (List.mem_cons_of_mem f right)⟩
  · exact .inr ⟨Option.some_ne_none _ ∘ Eq.symm, cached⟩

/-- The window that others are merged into is a part of the outcome. -/
theorem isPartOf_absorb (rounds : Nat) (w : DirectWindow) (entries : List CacheEntry) :
    w.IsPartOf (absorb rounds w entries).1 := by
  induction rounds generalizing w entries with
  | zero => exact .refl w
  | succ rounds ih =>
      rcases absorb_cases rounds w entries with ⟨same, -⟩ | ⟨e, rest, -, -, mergeable, next⟩
      · rw [same]
        exact .refl w
      · rw [next]
        rw [DirectWindow.mergeable_comm] at mergeable
        exact (DirectWindow.isPartOf_merge_left mergeable).trans (ih _ _)

/-- An insertion marks the entry that the window has become a part of, and no other. -/
theorem entry_insert_cases {c : WindowCache} {w : DirectWindow} (holds : w.isEmpty = false)
    {e : CacheEntry} (joined : e ∈ c.joined w) :
    (w.IsPartOf e.window ∧ e.lastUse = c.uses + 1) ∨ (¬ w.IsPartOf e.window ∧ e ∈ c.entries) := by
  have part := isPartOf_absorb c.entries.length w c.entries
  rcases List.mem_cons.1 ((perm_place _ _).mem_iff.1 joined) with rfl | left
  · exact .inl ⟨part, rfl⟩
  · refine .inr ⟨fun whole => ?_, (absorb_sublist _ _ _).subset left⟩
    have apart := mergeable_absorb w (Nat.le_refl _) e left
    rw [DirectWindow.mergeable_of_parts whole part (DirectWindow.mergeable_self holds)] at apart
    cases apart

/-- What a cut leaves of an entry has its mark. -/
theorem lastUse_of_mem_cut {e f : CacheEntry} {range : AddressRange} (left : f ∈ e.cut range) :
    f.lastUse = e.lastUse := by
  unfold CacheEntry.cut at left
  split at left
  · obtain ⟨piece, -, restricted⟩ := List.mem_filterMap.1 left
    obtain ⟨w, -, rfl⟩ := Option.map_eq_some_iff.1 restricted
    rfl
  · rw [List.mem_singleton.1 left]

theorem exists_entry_of_mem_cut {c : WindowCache} (tidy : Tidy c.windows) {range : AddressRange}
    {e : CacheEntry} (cached : e ∈ (c.cut range).entries) :
    ∃ f ∈ c.entries, e.window.IsPartOf f.window ∧ e.lastUse = f.lastUse := by
  unfold cut at cached
  split at cached
  · obtain ⟨f, before, left⟩ := List.mem_flatMap.1 ((perm_foldr_place _).mem_iff.1 cached)
    have holds := tidy.holds _ (List.mem_map_of_mem before)
    exact ⟨f, before, (isPartOf_of_mem_cut left holds).1, lastUse_of_mem_cut left⟩
  · exact ⟨e, cached, .refl _, rfl⟩

/-- **After an operation, an entry is marked with a new use if the operation used its window.**
Otherwise it is left of an entry that was there before, and has its mark. -/
theorem entry_cases {c : WindowCache} (tidy : Tidy c.windows) (room : c.limit ≠ some 0)
    (operation : Operation) {e : CacheEntry} (cached : e ∈ (c.perform operation).entries) :
    (operation.Uses c e.window ∧ e.lastUse = c.uses + 1 ∧
        (c.perform operation).uses = c.uses + 1) ∨
      (¬ operation.Uses c e.window ∧
        ∃ f ∈ c.entries, e.window.IsPartOf f.window ∧ e.lastUse = f.lastUse) := by
  have kept : e ∈ c.entries →
      ∃ f ∈ c.entries, e.window.IsPartOf f.window ∧ e.lastUse = f.lastUse :=
    fun before => ⟨e, before, .refl _, rfl⟩
  cases operation with
  | insert w =>
      rcases c.insert_cases w with ⟨same, hollow | closed⟩ | ⟨holds, -, fewer, -⟩
      · rw [perform, same] at cached
        exact .inr ⟨fun uses => Bool.noConfusion (hollow.symm.trans uses.1), kept cached⟩
      · exact absurd closed room
      · rcases entry_insert_cases holds (fewer.subset cached) with ⟨part, mark⟩ | ⟨other, before⟩
        · exact .inl ⟨⟨holds, part⟩, mark, uses_insert holds room⟩
        · exact .inr ⟨fun uses => other uses.2, kept before⟩
  | lookup range command =>
      rcases entry_lookup_cases tidy cached with ⟨found, mark⟩ | ⟨other, before⟩
      · exact .inl ⟨found, mark, uses_lookup _ _ _⟩
      · exact .inr ⟨other, kept before⟩
  | lookupAt start size command =>
      simp only [perform, Operation.Uses, lookupAt] at cached ⊢
      split at cached
      · next range _ =>
          rcases entry_lookup_cases tidy cached with ⟨found, mark⟩ | ⟨other, before⟩
          · exact .inl ⟨found, mark, uses_lookup _ _ _⟩
          · exact .inr ⟨other, kept before⟩
      · exact .inr ⟨Option.some_ne_none _ ∘ Eq.symm, kept cached⟩
  | withdraw range => exact .inr ⟨id, exists_entry_of_mem_cut tidy cached⟩
  | withdrawBetween start last =>
      refine .inr ⟨id, ?_⟩
      simp only [perform, withdrawBetween] at cached
      split at cached
      · exact exists_entry_of_mem_cut tidy cached
      · exact kept cached
  | clear => exact absurd cached List.not_mem_nil

/-! ### Uses and operations -/

/-- An operation is one use, or none. -/
theorem uses_perform (c : WindowCache) (operation : Operation) :
    c.uses ≤ (c.perform operation).uses ∧ (c.perform operation).uses ≤ c.uses + 1 := by
  cases operation with
  | insert w =>
      rcases c.insert_cases w with ⟨same, -⟩ | ⟨holds, -⟩
      · simp [perform, same]
      · by_cases closed : c.limit = some 0
        · simp [perform, insert, closed]
        · simp [perform, uses_insert holds closed]
  | lookup range command => simp [perform]
  | lookupAt start size command =>
      rw [perform, lookupAt]
      split <;> simp
  | withdraw range => simp [perform, withdraw]
  | withdrawBetween start last =>
      rw [perform, withdrawBetween]
      split <;> simp [withdraw]
  | clear => simp [perform, clear]

/-- **There are no more uses than operations.** -/
theorem uses_run_le (limit : Option Nat) (operations : List Operation) :
    (run limit operations).uses ≤ operations.length := by
  induction operations using List.reverseRecOn with
  | nil => exact Nat.le_refl 0
  | append_singleton past operation ih =>
      have step := ((run limit past).uses_perform operation).2
      rw [run_concat, List.length_append, List.length_singleton]
      omega

theorem uses_le_uses_foldl (c : WindowCache) (operations : List Operation) :
    c.uses ≤ (operations.foldl perform c).uses := by
  induction operations generalizing c with
  | nil => exact Nat.le_refl _
  | cons operation rest ih => exact (c.uses_perform operation).1.trans (ih _)

/-- A longer history has no fewer uses. -/
theorem uses_take_le (limit : Option Nat) (operations : List Operation) {k l : Nat}
    (shorter : k ≤ l) :
    (run limit (operations.take k)).uses ≤ (run limit (operations.take l)).uses := by
  obtain ⟨later, split⟩ := List.take_prefix_take_left (l := operations) shorter
  rw [← split]
  simp only [run, List.foldl_append]
  exact uses_le_uses_foldl _ _

/-- **The use with the number `t` was made by the operation with the number `k`.** -/
structure MadeBy (limit : Option Nat) (operations : List Operation) (t k : Nat) : Prop where
  /-- There is such an operation. -/
  index : k < operations.length
  /-- There were fewer uses before it. -/
  before : (run limit (operations.take k)).uses < t
  /-- There are as many after it. -/
  after : (run limit (operations.take (k + 1))).uses = t

theorem MadeBy.concat {limit : Option Nat} {past : List Operation} {t k : Nat}
    (h : MadeBy limit past t k) (operation : Operation) :
    MadeBy limit (past ++ [operation]) t k := by
  obtain ⟨index, before, after⟩ := h
  refine ⟨?_, ?_, ?_⟩
  · rw [List.length_append]
    omega
  · rwa [List.take_append_of_le_length (Nat.le_of_lt index)]
  · rwa [List.take_append_of_le_length index]

theorem madeBy_length {limit : Option Nat} {past : List Operation} {operation : Operation}
    (more : (run limit (past ++ [operation])).uses = (run limit past).uses + 1) :
    MadeBy limit (past ++ [operation]) ((run limit past).uses + 1) past.length := by
  refine ⟨?_, ?_, ?_⟩
  · rw [List.length_append, List.length_singleton]
    omega
  · rw [List.take_left]
    omega
  · rw [List.take_of_length_le (by rw [List.length_append, List.length_singleton]), more]

/-- Uses are numbered as the operations are. -/
theorem MadeBy.le_iff {limit : Option Nat} {operations : List Operation} {t u k l : Nat}
    (h : MadeBy limit operations t k) (h' : MadeBy limit operations u l) : t ≤ u ↔ k ≤ l := by
  have := h.before
  have := h.after
  have := h'.before
  have := h'.after
  constructor
  · intro earlier
    by_contra later
    have := uses_take_le limit operations (show l + 1 ≤ k by omega)
    omega
  · intro earlier
    have := uses_take_le limit operations (show k + 1 ≤ l + 1 by omega)
    omega

/-! ### Marks and histories -/

variable {limit : Option Nat} (room : limit ≠ some 0)
include room

/-- The entries after one more operation. -/
theorem entry_run_cases {past : List Operation} {operation : Operation} {e : CacheEntry}
    (cached : e ∈ (run limit (past ++ [operation])).entries) :
    (operation.Uses (run limit past) e.window ∧
        MadeBy limit (past ++ [operation]) e.lastUse past.length) ∨
      (¬ operation.Uses (run limit past) e.window ∧
        ∃ f ∈ (run limit past).entries, e.window.IsPartOf f.window ∧ e.lastUse = f.lastUse) := by
  have roomy : (run limit past).limit ≠ some 0 := (limit_run limit past).symm ▸ room
  rw [run_concat] at cached
  rcases entry_cases (tidy_run limit past) roomy operation cached with ⟨uses, mark, more⟩ | idle
  · rw [mark]
    exact .inl ⟨uses, madeBy_length (by rw [run_concat, more])⟩
  · exact .inr idle

/-- **Every entry has been used.** -/
theorem exists_lastUsed (operations : List Operation) {e : CacheEntry}
    (cached : e ∈ (run limit operations).entries) :
    ∃ k, LastUsed limit operations e.window k := by
  induction operations using List.reverseRecOn generalizing e with
  | nil => exact absurd cached List.not_mem_nil
  | append_singleton past operation ih =>
      have stored := List.mem_map_of_mem (f := CacheEntry.window) cached
      rcases entry_run_cases room cached with ⟨uses, -⟩ | ⟨idle, f, before, part, -⟩
      · exact ⟨past.length, .used stored uses⟩
      · obtain ⟨k, last⟩ := ih before
        exact ⟨k, .unused last part stored idle⟩

/-- **The mark of an entry is the use that was made by the operation that used it last.** -/
theorem LastUsed.madeBy {operations : List Operation} {v : DirectWindow} {k : Nat}
    (last : LastUsed limit operations v k) {e : CacheEntry}
    (cached : e ∈ (run limit operations).entries) (window : e.window = v) :
    MadeBy limit operations e.lastUse k := by
  induction last generalizing e with
  | used _ uses =>
      subst window
      rcases entry_run_cases room cached with ⟨-, made⟩ | ⟨idle, -⟩
      · exact made
      · exact absurd uses idle
  | @unused past operation u v k before part _ idle ih =>
      subst window
      rcases entry_run_cases room cached with ⟨uses, -⟩ | ⟨-, f, earlier, left, mark⟩
      · exact absurd uses idle
      · -- the entry is left of a window of which it is a part, and there is only one
        have holds := (tidy_run limit (past ++ [operation])).holds _ (List.mem_map_of_mem cached)
        have same : f.window = u := (tidy_run limit past).eq_of_part
          (List.mem_map_of_mem earlier) before.cached holds left part
        rw [mark]
        exact (ih earlier same).concat operation

/-- **The marks of two entries are ordered as the operations that used their windows last.** -/
theorem lastUse_le_iff {operations : List Operation} {e f : CacheEntry} {k l : Nat}
    (first : e ∈ (run limit operations).entries) (second : f ∈ (run limit operations).entries)
    (left : LastUsed limit operations e.window k) (right : LastUsed limit operations f.window l) :
    e.lastUse ≤ f.lastUse ↔ k ≤ l :=
  (left.madeBy room first rfl).le_iff (right.madeBy room second rfl)

/-- **Every cached window has one last use.** -/
theorem existsUnique_lastUsed {operations : List Operation} {v : DirectWindow}
    (cached : v ∈ (run limit operations).windows) : ∃! k, LastUsed limit operations v k := by
  obtain ⟨e, stored, rfl⟩ := List.mem_map.1 cached
  obtain ⟨k, last⟩ := exists_lastUsed room operations stored
  refine ⟨k, last, fun l other => ?_⟩
  have earlier := (lastUse_le_iff room stored stored last other).1 (Nat.le_refl _)
  have later := (lastUse_le_iff room stored stored other last).1 (Nat.le_refl _)
  exact Nat.le_antisymm later earlier

end WindowCache

end Interconnect
