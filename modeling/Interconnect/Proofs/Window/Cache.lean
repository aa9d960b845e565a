import Interconnect.Proofs.Window.Basic
import Interconnect.Window.Cache

/-!
# Window caches as sets of mappings

What the operations on a cache do to the mappings that it covers.  Ordering, merging and marking of
entries cannot be seen in the mappings, so none of it appears in the statements.

## Main Statements

* `covers_cut_iff` — a cut takes away the mappings in the range, and only those
* `covers_of_covers_insert`, `covers_insert_iff` — an insertion adds no mapping but those of the
  window, and all of them where there is no limit
* `mem_windows_of_lookup` — what a lookup finds
-/

namespace Interconnect

namespace WindowCache

/-- A list of entries maps what one of them maps. -/
def EntriesMap (entries : List CacheEntry) (a : UInt64) (q : Permission) (p : HostPointer) : Prop :=
  ∃ e ∈ entries, e.window.Maps a q p

theorem covers_iff {c : WindowCache} {a : UInt64} {q : Permission} {p : HostPointer} :
    c.Covers a q p ↔ EntriesMap c.entries a q p := by
  constructor
  · rintro ⟨w, cached, maps⟩
    obtain ⟨e, mem, rfl⟩ := List.mem_map.1 cached
    exact ⟨e, mem, maps⟩
  · rintro ⟨e, mem, maps⟩
    exact ⟨e.window, List.mem_map.2 ⟨e, mem, rfl⟩, maps⟩

theorem covers_of_mem {c : WindowCache} {w : DirectWindow} (cached : w ∈ c.windows) {a : UInt64}
    (inside : a ∈ w.range) : c.Covers a w.permission (w.pointerFor a) :=
  ⟨w, cached, inside, rfl, rfl⟩

theorem not_covers_of_windows_eq_nil {c : WindowCache} (h : c.windows = []) (a : UInt64)
    (q : Permission) (p : HostPointer) : ¬ c.Covers a q p := by
  simp [Covers, h]

/-- **A cache touches a range exactly when it covers an address in it.** -/
theorem touches_eq_true_iff {c : WindowCache} {range : AddressRange} :
    c.touches range = true ↔ ∃ a ∈ range, ∃ q p, c.Covers a q p := by
  simp only [touches, List.any_eq_true, AddressRange.overlaps_iff, covers_iff, EntriesMap]
  constructor
  · rintro ⟨e, cached, a, covered, inside⟩
    exact ⟨a, inside, _, _, e, cached, DirectWindow.maps_pointerFor covered⟩
  · rintro ⟨a, inside, q, p, e, cached, maps⟩
    exact ⟨e, cached, a, maps.1, inside⟩

/-! ### The order of entries -/

theorem perm_place (e : CacheEntry) (entries : List CacheEntry) :
    (place e entries).Perm (e :: entries) := by
  induction entries with
  | nil => exact List.Perm.refl _
  | cons f rest ih =>
      unfold place
      split
      · exact (ih.cons f).trans (List.Perm.swap e f rest)
      · exact List.Perm.refl _

theorem perm_foldr_place (entries : List CacheEntry) :
    (entries.foldr place []).Perm entries := by
  induction entries with
  | nil => exact List.Perm.refl _
  | cons e rest ih => exact (perm_place e _).trans (ih.cons e)

theorem entriesMap_of_perm {entries others : List CacheEntry} (h : entries.Perm others)
    {a : UInt64} {q : Permission} {p : HostPointer} :
    EntriesMap entries a q p ↔ EntriesMap others a q p := by
  simp only [EntriesMap, h.mem_iff]

@[simp] theorem entriesMap_cons {e : CacheEntry} {entries : List CacheEntry} {a : UInt64}
    {q : Permission} {p : HostPointer} :
    EntriesMap (e :: entries) a q p ↔ e.window.Maps a q p ∨ EntriesMap entries a q p := by
  simp [EntriesMap]

/-! ### Withdrawal -/

theorem exists_mem_cut_iff {e : CacheEntry} {range : AddressRange} {a : UInt64} {q : Permission}
    {p : HostPointer} : (∃ f ∈ e.cut range, f.window.Maps a q p) ↔
      e.window.Maps a q p ∧ a ∉ range := by
  unfold CacheEntry.cut
  split
  · next meet =>
      simp only [List.mem_filterMap, Option.map_eq_some_iff]
      constructor
      · rintro ⟨f, ⟨piece, mem, w, found, rfl⟩, maps⟩
        obtain ⟨whole, part⟩ := (DirectWindow.maps_restrict_iff found).1 maps
        exact ⟨whole, (AddressRange.mem_pieces_subtract.1 ⟨piece, mem, part⟩).2⟩
      · rintro ⟨maps, outside⟩
        obtain ⟨piece, mem, part⟩ := AddressRange.mem_pieces_subtract.2 ⟨maps.1, outside⟩
        obtain ⟨w, found, kept⟩ := DirectWindow.exists_maps_restrict_iff.2 ⟨maps, part⟩
        exact ⟨{ e with window := w }, ⟨piece, mem, w, found, rfl⟩, kept⟩
  · next apart =>
      have apart := AddressRange.overlaps_eq_false_iff.1 (Bool.not_eq_true _ ▸ apart)
      simp only [List.mem_singleton, exists_eq_left]
      exact ⟨fun maps => ⟨maps, apart a maps.1⟩, And.left⟩

/-- **A cut takes away the mappings in the range, and only those.** -/
theorem covers_cut_iff {c : WindowCache} {range : AddressRange} {a : UInt64} {q : Permission}
    {p : HostPointer} : (c.cut range).Covers a q p ↔ c.Covers a q p ∧ a ∉ range := by
  unfold cut
  split
  · rw [covers_iff, covers_iff, entriesMap_of_perm (perm_foldr_place _)]
    simp only [EntriesMap, List.mem_flatMap]
    constructor
    · rintro ⟨f, ⟨e, cached, piece⟩, maps⟩
      obtain ⟨whole, outside⟩ := exists_mem_cut_iff.1 ⟨f, piece, maps⟩
      exact ⟨⟨e, cached, whole⟩, outside⟩
    · rintro ⟨⟨e, cached, maps⟩, outside⟩
      obtain ⟨f, piece, kept⟩ := exists_mem_cut_iff.2 ⟨maps, outside⟩
      exact ⟨f, ⟨e, cached, piece⟩, kept⟩
  · next untouched =>
      refine ⟨fun covers => ⟨covers, fun inside => untouched ?_⟩, And.left⟩
      exact touches_eq_true_iff.2 ⟨a, inside, q, p, covers⟩

/-! ### Insertion -/

/-- A round of merging finds no entry that is mergeable, or takes out the first that is. -/
theorem absorb_cases (rounds : Nat) (w : DirectWindow) (entries : List CacheEntry) :
    (absorb (rounds + 1) w entries = (w, entries) ∧
        ∀ e ∈ entries, e.window.mergeable w = false) ∨
      ∃ (e : CacheEntry) (rest : List CacheEntry), rest.Sublist entries ∧
        entries.Perm (e :: rest) ∧ e.window.mergeable w = true ∧
        absorb (rounds + 1) w entries = absorb rounds (w.merge e.window) rest := by
  rw [absorb]
  split
  · next absent =>
      refine .inl ⟨rfl, fun e cached => ?_⟩
      simpa using List.find?_eq_none.1 absent e cached
  · next e found =>
      have mergeable : e.window.mergeable w = true :=
        List.find?_some (p := fun e : CacheEntry => e.window.mergeable w) found
      obtain ⟨pre, post, rfl, before⟩ := (List.find?_eq_some_iff_append.1 found).2
      have rest : (pre ++ e :: post).eraseP (fun e => e.window.mergeable w) = pre ++ post := by
        rw [List.eraseP_append_right _ (by simpa using before),
          List.eraseP_cons_of_pos (p := fun e : CacheEntry => e.window.mergeable w) mergeable]
      refine .inr ⟨e, pre ++ post, ?_, List.perm_middle, mergeable, by rw [rest]⟩
      exact (List.sublist_cons_self e post).append_left pre

/-- Merging a window with the entries that it is mergeable with neither adds nor loses a mapping. -/
theorem maps_absorb_iff (rounds : Nat) (w : DirectWindow) (entries : List CacheEntry) {a : UInt64}
    {q : Permission} {p : HostPointer} :
    (absorb rounds w entries).1.Maps a q p ∨ EntriesMap (absorb rounds w entries).2 a q p ↔
      w.Maps a q p ∨ EntriesMap entries a q p := by
  induction rounds generalizing w entries with
  | zero => rfl
  | succ rounds ih =>
      rcases absorb_cases rounds w entries with ⟨same, -⟩ | ⟨e, rest, -, front, mergeable, next⟩
      · rw [same]
      · rw [next, ih, DirectWindow.maps_merge_iff (DirectWindow.mergeable_comm _ _ ▸ mergeable),
          entriesMap_of_perm front, entriesMap_cons, or_assoc]

/-- Dropping entries leaves some of those that were there. -/
theorem evict_sublist (rounds limit : Nat) (entries : List CacheEntry) :
    (evict rounds limit entries).Sublist entries := by
  induction rounds generalizing entries with
  | zero => exact List.Sublist.refl _
  | succ rounds ih =>
      unfold evict
      split
      · exact List.Sublist.refl _
      · split
        · exact List.Sublist.refl _
        · exact (ih _).trans List.erase_sublist

/-- The entries that an insertion makes before it drops any. -/
def joined (c : WindowCache) (w : DirectWindow) : List CacheEntry :=
  place ⟨(absorb c.entries.length w c.entries).1, c.uses + 1⟩
    (absorb c.entries.length w c.entries).2

theorem entriesMap_joined_iff {c : WindowCache} {w : DirectWindow} {a : UInt64} {q : Permission}
    {p : HostPointer} : EntriesMap (c.joined w) a q p ↔ c.Covers a q p ∨ w.Maps a q p := by
  rw [joined, entriesMap_of_perm (perm_place _ _), entriesMap_cons, maps_absorb_iff, covers_iff,
    or_comm]

/-- An insertion changes nothing, or leaves some of the joined entries, and all of them where there
is no limit. -/
theorem insert_cases (c : WindowCache) (w : DirectWindow) :
    (c.insert w = c ∧ (w.isEmpty = true ∨ c.limit = some 0)) ∨
      (w.isEmpty = false ∧ (c.insert w).limit = c.limit ∧
        (c.insert w).entries.Sublist (c.joined w) ∧
        (c.limit = none → (c.insert w).entries = c.joined w)) := by
  unfold insert
  split
  · next passed => exact .inl ⟨rfl, by simpa using passed⟩
  · next taken =>
      rw [Bool.or_eq_true, not_or, Bool.not_eq_true] at taken
      refine .inr ⟨taken.1, ?_⟩
      dsimp only
      split
      · next unlimited => exact ⟨rfl, List.Sublist.refl _, fun _ => rfl⟩
      · next limit limited =>
          refine ⟨rfl, evict_sublist _ _ _, fun unlimited => ?_⟩
          rw [limited] at unlimited
          cases unlimited

/-- **An insertion adds no mapping but those of the window.** -/
theorem covers_of_covers_insert {c : WindowCache} {w : DirectWindow} {a : UInt64} {q : Permission}
    {p : HostPointer} (h : (c.insert w).Covers a q p) : c.Covers a q p ∨ w.Maps a q p := by
  rcases c.insert_cases w with ⟨same, -⟩ | ⟨-, -, fewer, -⟩
  · rw [same] at h
    exact .inl h
  · obtain ⟨e, cached, maps⟩ := covers_iff.1 h
    exact entriesMap_joined_iff.1 ⟨e, fewer.subset cached, maps⟩

/-- **Without a limit, an insertion adds all mappings of the window.** -/
theorem covers_insert_iff {c : WindowCache} (unlimited : c.limit = none) {w : DirectWindow}
    {a : UInt64} {q : Permission} {p : HostPointer} :
    (c.insert w).Covers a q p ↔ c.Covers a q p ∨ w.Maps a q p := by
  rcases c.insert_cases w with ⟨same, hollow | limited⟩ | ⟨-, -, -, all⟩
  · have nothing : ¬ w.Maps a q p := fun maps => AddressRange.isEmpty_eq_true_iff.1 hollow a maps.1
    rw [same]
    exact ⟨.inl, fun covers => covers.resolve_right nothing⟩
  · rw [unlimited] at limited
    cases limited
  · rw [covers_iff, all unlimited, entriesMap_joined_iff]

/-! ### Lookup -/

/-- A lookup leaves every mapping as it is. -/
theorem covers_lookup_iff {c : WindowCache} {range : AddressRange} {command : Command} {a : UInt64}
    {q : Permission} {p : HostPointer} :
    (c.lookup range command).2.Covers a q p ↔ c.Covers a q p := by
  simp only [Covers, windows_lookup]

theorem mem_of_find?_eq_some {range : AddressRange} {command : Command} {use : Nat}
    {entries after : List CacheEntry} {w : DirectWindow}
    (h : find? range command use entries = some (w, after)) :
    (∃ e ∈ entries, e.window = w) ∧ w.range.contains range = true ∧
      w.permission.allows command = true := by
  induction entries generalizing after with
  | nil => cases h
  | cons e rest ih =>
      unfold find? at h
      split at h
      · cases h
      · split at h
        · next serves =>
            cases h
            rw [Bool.and_eq_true] at serves
            exact ⟨⟨e, List.mem_cons_self, rfl⟩, serves⟩
        · obtain ⟨⟨v, tail⟩, found, eq⟩ := Option.map_eq_some_iff.1 h
          cases eq
          obtain ⟨⟨f, inRest, window⟩, serves⟩ := ih found
          exact ⟨⟨f, List.mem_cons_of_mem e inRest, window⟩, serves⟩

/-- **A lookup finds a cached window that covers the range and allows the command.** -/
theorem mem_windows_of_lookup {c : WindowCache} {range : AddressRange} {command : Command}
    {w : DirectWindow} (h : (c.lookup range command).1 = some w) :
    w ∈ c.windows ∧ w.range.contains range = true ∧ w.permission.allows command = true := by
  unfold lookup at h
  dsimp only at h
  split at h
  · next found =>
      cases h
      obtain ⟨⟨e, cached, window⟩, serves⟩ := mem_of_find?_eq_some found
      exact ⟨List.mem_map.2 ⟨e, cached, window⟩, serves⟩
  · cases h

end WindowCache

end Interconnect
