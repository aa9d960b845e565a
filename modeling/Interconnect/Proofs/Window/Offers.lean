import Mathlib.Data.Set.Basic
import Interconnect.Proofs.Window.Tidy

/-!
# Window caches as sets of offers

What a cache offers is a set: addresses, each with a permission and the host pointer behind it.
Without a limit a cache is nothing but that set.  Insertions and withdrawals act on it as on any
set, and a lookup finds a window exactly when the set backs the whole request by one stretch of host
storage.  A cache with a limit may offer less, and never more.

## Main Definitions

* `DirectWindow.origin` — where the pointers of a window are counted from
* `WindowCache.Offer`, `WindowCache.offers` — an address with its backing, and all that a cache has
* `Operation.effect`, `offersAfter` — what operations do to a set of offers

## Main Statements

* `offers_run` — a cache without a limit offers what its operations say
* `isSome_lookup_iff` — when a lookup finds a window
* `run_refines_offers` — both, together with what is found

### Why one window covers the request

The offers behind a request may come from several insertions.  The entry that covers the first
address of the request reaches to its end: the address after that of an entry that stops short would
be offered by another entry with the same pointers, and these two would be parts of one.
-/

namespace Interconnect

namespace DirectWindow

/-- **The pointer that a window would have for address zero.**  With the permission it tells which
windows can be parts of one. -/
def origin (w : DirectWindow) : HostPointer := w.pointerFor 0

theorem pointerFor_eq_advance (w : DirectWindow) (a : UInt64) :
    w.pointerFor a = w.origin.advance a := by
  rw [origin, pointerFor, pointerFor, HostPointer.advance_advance]
  congr 1
  grind

/-- One address tells the origin. -/
theorem origin_eq {w : DirectWindow} {origin : HostPointer} {a : UInt64}
    (h : w.pointerFor a = origin.advance a) : w.origin = origin := by
  rwa [pointerFor_eq_advance, HostPointer.advance_inj] at h

end DirectWindow

namespace WindowCache

/-- **An address with a permission and the host pointer that backs it.** -/
abbrev Offer := UInt64 × Permission × HostPointer

/-- Everything that a cache offers. -/
def offers (c : WindowCache) : Set Offer := {t | c.Covers t.1 t.2.1 t.2.2}

/-! ### Operations on sets -/

/-- **What an operation does to a set of offers.**  A window adds one offer for each of its
addresses, a withdrawal takes away those at certain addresses, and lookups do nothing. -/
def Operation.effect : Operation → Set Offer → Set Offer
  | .insert w, S => S ∪ {t | t.1 ∈ w.range ∧ t.2.1 = w.permission ∧
      t.2.2 = w.pointer.advance (t.1 - w.range.start)}
  | .lookup _ _, S => S
  | .lookupAt _ _ _, S => S
  | .withdraw range, S => {t ∈ S | t.1 ∉ range}
  | .withdrawBetween start last, S => {t ∈ S | ¬ (start ≤ t.1 ∧ t.1 ≤ last)}
  | .clear, _ => ∅

/-- **The offers after some operations, of which there are none at the start.** -/
def offersAfter (operations : List Operation) : Set Offer :=
  operations.foldl (fun S operation => operation.effect S) ∅

/-- An operation on more offers leaves more of them. -/
theorem Operation.effect_mono (operation : Operation) {S T : Set Offer} (fewer : S ⊆ T) :
    operation.effect S ⊆ operation.effect T := by
  cases operation with
  | insert w => exact Set.union_subset_union_left _ fewer
  | lookup range command => exact fewer
  | lookupAt start size command => exact fewer
  | withdraw range => exact fun t kept => ⟨fewer kept.1, kept.2⟩
  | withdrawBetween start last => exact fun t kept => ⟨fewer kept.1, kept.2⟩
  | clear => exact Set.Subset.refl _

/-! ### Withdrawals between two bounds -/

/-- The addresses between two bounds are those of a range, or there are none. -/
theorem ofBounds_cases (start last : UInt64) :
    (∃ range, AddressRange.ofBounds start last = .ok range ∧
        ∀ a, a ∈ range ↔ start ≤ a ∧ a ≤ last) ∨
      ((∃ e, AddressRange.ofBounds start last = .error e) ∧ ∀ a, ¬ (start ≤ a ∧ a ≤ last)) := by
  cases made : AddressRange.ofBounds start last with
  | ok range =>
      obtain ⟨rfl, rfl⟩ := AddressRange.ofBounds_eq_ok_iff.1 made
      exact .inl ⟨range, rfl, fun a => AddressRange.mem_iff⟩
  | error e =>
      refine .inr ⟨⟨e, rfl⟩, fun a inside => ?_⟩
      have ordered := UInt64.le_trans inside.1 inside.2
      rw [AddressRange.ofBounds, dif_pos (.inl ordered)] at made
      cases made

theorem covers_withdrawBetween_iff {c : WindowCache} {start last a : UInt64} {q : Permission}
    {p : HostPointer} : (c.withdrawBetween start last).2.Covers a q p ↔
      c.Covers a q p ∧ ¬ (start ≤ a ∧ a ≤ last) := by
  rcases ofBounds_cases start last with ⟨range, made, inside⟩ | ⟨⟨e, failed⟩, nowhere⟩
  · rw [← inside, withdrawBetween, made]
    exact covers_cut_iff
  · rw [withdrawBetween, failed]
    exact ⟨fun covers => ⟨covers, nowhere a⟩, And.left⟩

theorem withdrawBetween_eq_true_iff {c : WindowCache} {start last : UInt64} :
    (c.withdrawBetween start last).1 = true ↔
      ∃ t ∈ c.offers, start ≤ t.1 ∧ t.1 ≤ last := by
  rcases ofBounds_cases start last with ⟨range, made, inside⟩ | ⟨⟨e, failed⟩, nowhere⟩
  · rw [withdrawBetween, made]
    simp only [withdraw, touches_eq_true_iff, inside]
    exact ⟨fun ⟨a, between, q, p, covers⟩ => ⟨(a, q, p), covers, between⟩,
      fun ⟨t, covers, between⟩ => ⟨t.1, between, t.2.1, t.2.2, covers⟩⟩
  · rw [withdrawBetween, failed]
    exact ⟨fun h => (Bool.false_ne_true h).elim, fun ⟨t, _, between⟩ => (nowhere _ between).elim⟩

theorem withdraw_eq_true_iff {c : WindowCache} {range : AddressRange} :
    (c.withdraw range).1 = true ↔ ∃ t ∈ c.offers, t.1 ∈ range := by
  simp only [withdraw, touches_eq_true_iff]
  exact ⟨fun ⟨a, inside, q, p, covers⟩ => ⟨(a, q, p), covers, inside⟩,
    fun ⟨t, covers, inside⟩ => ⟨t.1, inside, t.2.1, t.2.2, covers⟩⟩

/-! ### Operations on caches -/

/-- The offers of a window, as they are added. -/
theorem maps_iff {w : DirectWindow} {a : UInt64} {q : Permission} {p : HostPointer} :
    w.Maps a q p ↔
      a ∈ w.range ∧ q = w.permission ∧ p = w.pointer.advance (a - w.range.start) := by
  rw [DirectWindow.Maps, DirectWindow.pointerFor, eq_comm (a := w.permission),
    eq_comm (b := p)]

@[simp] theorem limit_cut (c : WindowCache) (range : AddressRange) :
    (c.cut range).limit = c.limit := by
  unfold cut
  split <;> rfl

theorem limit_perform (c : WindowCache) (operation : Operation) :
    (c.perform operation).limit = c.limit := by
  have search : ∀ range command, (c.lookup range command).2.limit = c.limit := by
    intro range command
    unfold lookup
    dsimp only
    split <;> rfl
  cases operation with
  | insert w =>
      rcases c.insert_cases w with ⟨same, -⟩ | ⟨-, limit, -⟩
      · rw [perform, same]
      · exact limit
  | lookup range command => exact search range command
  | lookupAt start size command =>
      rw [perform, lookupAt]
      split
      · exact search _ command
      · rfl
  | withdraw range => exact c.limit_cut range
  | withdrawBetween start last =>
      rw [perform, withdrawBetween]
      split
      · exact c.limit_cut _
      · rfl
  | clear => rfl

/-- **An operation adds no offer but those that it says, and without a limit adds them all.** -/
theorem offers_perform (c : WindowCache) (operation : Operation) :
    (c.perform operation).offers ⊆ operation.effect c.offers ∧
      (c.limit = none → operation.effect c.offers ⊆ (c.perform operation).offers) := by
  have equal : (c.perform operation).offers = operation.effect c.offers →
      (c.perform operation).offers ⊆ operation.effect c.offers ∧
        (c.limit = none → operation.effect c.offers ⊆ (c.perform operation).offers) :=
    fun same => ⟨same.subset, fun _ => same.superset⟩
  cases operation with
  | insert w =>
      refine ⟨fun t offered => ?_, fun unlimited t offered => ?_⟩
      · exact (covers_of_covers_insert offered).imp_right maps_iff.1
      · exact (covers_insert_iff unlimited).2 (offered.imp_right maps_iff.2)
  | lookup range command => exact equal (Set.ext fun t => covers_lookup_iff)
  | lookupAt start size command =>
      refine equal (Set.ext fun t => ?_)
      show (c.lookupAt start size command).2.Covers _ _ _ ↔ c.Covers _ _ _
      simp only [Covers, windows_lookupAt]
  | withdraw range => exact equal (Set.ext fun t => covers_cut_iff)
  | withdrawBetween start last => exact equal (Set.ext fun t => covers_withdrawBetween_iff)
  | clear =>
      refine equal (Set.ext fun t => ?_)
      exact ⟨fun covers => not_covers_of_windows_eq_nil (windows_clear c) _ _ _ covers, False.elim⟩

/-- **A cache offers no more than its operations say.** -/
theorem offers_foldl_subset {c : WindowCache} {S : Set Offer} (within : c.offers ⊆ S)
    (operations : List Operation) :
    (operations.foldl perform c).offers ⊆
      operations.foldl (fun S operation => operation.effect S) S := by
  induction operations generalizing c S with
  | nil => exact within
  | cons operation rest ih =>
      exact ih ((c.offers_perform operation).1.trans (operation.effect_mono within))

/-- **Without a limit it offers all of it.** -/
theorem offers_foldl {c : WindowCache} (unlimited : c.limit = none)
    (operations : List Operation) :
    (operations.foldl perform c).offers =
      operations.foldl (fun S operation => operation.effect S) c.offers := by
  induction operations generalizing c with
  | nil => rfl
  | cons operation rest ih =>
      obtain ⟨within, all⟩ := c.offers_perform operation
      rw [List.foldl_cons, List.foldl_cons, ih ((c.limit_perform operation).trans unlimited),
        within.antisymm (all unlimited)]

theorem offers_withLimit (limit : Option Nat) : (withLimit limit).offers = ∅ := by
  refine Set.eq_empty_iff_forall_notMem.2 fun t offered => ?_
  exact not_covers_of_windows_eq_nil (windows_withLimit limit) _ _ _ offered

theorem offers_run_subset (limit : Option Nat) (operations : List Operation) :
    (run limit operations).offers ⊆ offersAfter operations :=
  offers_foldl_subset (offers_withLimit limit).subset operations

theorem offers_run (operations : List Operation) :
    (run none operations).offers = offersAfter operations := by
  rw [run, offers_foldl rfl, offers_withLimit, offersAfter]

/-! ### Lookup -/

/-- The search comes to every window that covers the range, since windows that start above the range
stand behind it. -/
theorem isSome_find? {range : AddressRange} {command : Command} (use : Nat)
    {entries : List CacheEntry}
    (ordered : (entries.map CacheEntry.window).Pairwise DirectWindow.Precedes) {e : CacheEntry}
    (cached : e ∈ entries) (contains : e.window.range.contains range = true)
    (allows : e.window.permission.allows command = true) :
    (find? range command use entries).isSome = true := by
  induction entries with
  | nil => exact absurd cached List.not_mem_nil
  | cons f rest ih =>
      rw [List.map_cons, List.pairwise_cons] at ordered
      obtain ⟨first, ordered⟩ := ordered
      have begins : e.window.start ≤ range.start := by
        simp only [AddressRange.contains, Bool.and_eq_true, AddressRange.includes_eq_true_iff,
          AddressRange.mem_iff] at contains
        exact contains.1.1
      have low : f.window.start ≤ range.start := by
        rcases List.mem_cons.1 cached with rfl | later
        · exact begins
        · exact UInt64.le_trans (first _ (List.mem_map_of_mem later)).start_le begins
      rw [find?, if_neg (UInt64.not_lt.2 low)]
      split
      · rfl
      · next passed =>
          rcases List.mem_cons.1 cached with rfl | later
          · exact absurd (Bool.and_eq_true_iff.2 ⟨contains, allows⟩) passed
          · rw [Option.isSome_map]
            exact ih ordered later

theorem isSome_lookup {c : WindowCache} (tidy : Tidy c.windows) {range : AddressRange}
    {command : Command} {w : DirectWindow} (cached : w ∈ c.windows)
    (contains : w.range.contains range = true) (allows : w.permission.allows command = true) :
    (c.lookup range command).1.isSome = true := by
  obtain ⟨e, stored, rfl⟩ := List.mem_map.1 cached
  obtain ⟨found, search⟩ := Option.isSome_iff_exists.1
    (isSome_find? (c.uses + 1) tidy.ordered stored contains allows)
  simp only [lookup, search, Option.isSome_some]

/-- **What is offered with one permission from one origin is covered by one window.** -/
theorem exists_contains {c : WindowCache} (tidy : Tidy c.windows) {range : AddressRange}
    (holds : range.isEmpty = false) {q : Permission} {origin : HostPointer}
    (offered : ∀ a ∈ range, (a, q, origin.advance a) ∈ c.offers) :
    ∃ w ∈ c.windows, w.range.contains range = true ∧ w.permission = q ∧ w.origin = origin := by
  rw [AddressRange.isEmpty_eq_false_iff] at holds
  obtain ⟨w, cached, begins, permission, pointer⟩ :=
    offered range.start ⟨UInt64.le_refl _, holds⟩
  refine ⟨w, cached, ?_, permission, DirectWindow.origin_eq pointer⟩
  have reaches : range.last ≤ w.range.last := by
    by_contra short
    -- the address after the window's end is offered by a window that continues it
    rw [UInt64.not_le] at short
    have follows : (w.range.last + 1).toNat = w.range.last.toNat + 1 := by
      rw [UInt64.lt_iff_toNat_lt] at short
      have := range.last.toNat_lt
      rw [UInt64.toNat_add, UInt64.toNat_one]
      omega
    have inside : w.range.last + 1 ∈ range := by
      simp only [AddressRange.mem_iff, UInt64.le_iff_toNat_le, UInt64.lt_iff_toNat_lt, follows]
        at begins short ⊢
      omega
    obtain ⟨v, other, here, same, aligned⟩ := offered _ inside
    simp only [AddressRange.mem_iff, UInt64.le_iff_toNat_le, follows] at begins here
    have continues : v.Continues w := by
      refine ⟨same.trans permission.symm, (AddressRange.adjoins_iff ?_ ?_).2 ?_, fun a => ?_⟩
      · rw [AddressRange.isEmpty_eq_false_iff, UInt64.le_iff_toNat_le]
        omega
      · rw [AddressRange.isEmpty_eq_false_iff, UInt64.le_iff_toNat_le]
        omega
      · omega
      · rw [v.pointerFor_eq_advance, w.pointerFor_eq_advance, DirectWindow.origin_eq aligned,
          DirectWindow.origin_eq pointer]
    obtain rfl := tidy.eq_of_continues other cached continues
    omega
  simp only [AddressRange.contains, Bool.and_eq_true, AddressRange.includes_eq_true_iff,
    AddressRange.mem_iff]
  exact ⟨begins, UInt64.le_trans begins.1 holds, reaches⟩

/-- A window that is found offers every address of it. -/
theorem mem_offers_of_lookup {c : WindowCache} {range : AddressRange} {command : Command}
    {w : DirectWindow} (found : (c.lookup range command).1 = some w) {a : UInt64} {p : HostPointer}
    (backed : w.pointerAt a = some p) : (a, w.permission, p) ∈ c.offers := by
  obtain ⟨cached, -⟩ := mem_windows_of_lookup found
  obtain ⟨inside, -, rfl⟩ := DirectWindow.pointerAt_eq_some_iff.1 backed
  exact covers_of_mem cached inside

/-- **A lookup finds a window exactly when the whole range is offered with one permission that
allows the command, from one origin.** -/
theorem isSome_lookup_iff {c : WindowCache} (tidy : Tidy c.windows) {range : AddressRange}
    (holds : range.isEmpty = false) {command : Command} :
    (c.lookup range command).1.isSome = true ↔
      ∃ (q : Permission) (origin : HostPointer), q.allows command = true ∧
        ∀ a ∈ range, (a, q, origin.advance a) ∈ c.offers := by
  constructor
  · intro found
    obtain ⟨w, found⟩ := Option.isSome_iff_exists.1 found
    obtain ⟨cached, contains, allows⟩ := mem_windows_of_lookup found
    refine ⟨w.permission, w.origin, allows, fun a inside => ?_⟩
    rw [← w.pointerFor_eq_advance]
    exact covers_of_mem cached (AddressRange.mem_of_contains contains inside)
  · rintro ⟨q, origin, allows, offered⟩
    obtain ⟨w, cached, contains, rfl, -⟩ := exists_contains tidy holds offered
    exact isSome_lookup tidy cached contains allows

/-- **A cache refines a set of offers.**  Without a limit it offers exactly what its operations say,
a withdrawal tells whether it takes an offer away, and a lookup finds a window exactly when the
whole range is offered from one origin with one permission.  With any limit, what is found covers
the range, allows the command, and backs its addresses as the set does. -/
theorem run_refines_offers (operations : List Operation) (limit : Option Nat) :
    (run none operations).offers = offersAfter operations ∧
      (∀ range, ((run none operations).withdraw range).1 = true ↔
        ∃ t ∈ offersAfter operations,
          t ∉ (Operation.withdraw range).effect (offersAfter operations)) ∧
      (∀ start last, ((run none operations).withdrawBetween start last).1 = true ↔
        ∃ t ∈ offersAfter operations,
          t ∉ (Operation.withdrawBetween start last).effect (offersAfter operations)) ∧
      (∀ range command, range.isEmpty = false →
        (((run none operations).lookup range command).1.isSome = true ↔
          ∃ (q : Permission) (origin : HostPointer), q.allows command = true ∧
            ∀ a ∈ range, (a, q, origin.advance a) ∈ offersAfter operations)) ∧
      ∀ range command w, ((run limit operations).lookup range command).1 = some w →
        w.range.contains range = true ∧ w.permission.allows command = true ∧
          ∀ a p, w.pointerAt a = some p → (a, w.permission, p) ∈ offersAfter operations := by
  have same := offers_run operations
  refine ⟨same, fun range => ?_, fun start last => ?_, fun range command holds => ?_,
    fun range command w found => ?_⟩
  · rw [withdraw_eq_true_iff, same]
    refine exists_congr fun t => and_congr_right fun offered => ?_
    simp [Operation.effect, offered]
  · rw [withdrawBetween_eq_true_iff, same]
    refine exists_congr fun t => and_congr_right fun offered => ?_
    simp [Operation.effect, offered]
  · rw [isSome_lookup_iff (tidy_run none operations) holds, same]
  · obtain ⟨-, contains, allows⟩ := mem_windows_of_lookup found
    exact ⟨contains, allows, fun a p backed =>
      offers_run_subset limit operations (mem_offers_of_lookup found backed)⟩

/-- Three windows that make one, of which a withdrawal then takes an address, are looked for across
their seams, and a cache of a single entry finds what they offer too. -/
theorem exists_lookup_across_windows :
    ∃ operations w,
      ((run none operations).lookup ⟨5, 24, by decide⟩ .read).1.isSome = true ∧
      (∃ (q : Permission) (origin : HostPointer), q.allows .read = true ∧
        ∀ a ∈ (⟨5, 24, by decide⟩ : AddressRange),
          (a, q, origin.advance a) ∈ offersAfter operations) ∧
      ((run (some 1) operations).lookup ⟨5, 24, by decide⟩ .read).1 = some w ∧
      (24, w.permission, ⟨none, 0x1018⟩) ∈ offersAfter operations := by
  refine ⟨[
    .insert ⟨⟨0, 9, by decide⟩, ⟨none, 0x1000⟩, .readOnly⟩,
    .insert ⟨⟨20, 29, by decide⟩, ⟨none, 0x1014⟩, .readOnly⟩,
    .insert ⟨⟨5, 24, by decide⟩, ⟨none, 0x1005⟩, .readOnly⟩,
    .withdraw ⟨26, 26, by decide⟩], ⟨⟨5, 25, by decide⟩, ⟨none, 0x1005⟩, .readOnly⟩, ?_⟩
  generalize listed : ([_, _, _, _] : List Operation) = operations
  have unlimited : ((run none operations).lookup ⟨5, 24, by decide⟩ .read).1.isSome = true := by
    subst listed; decide +kernel
  have single : ((run (some 1) operations).lookup ⟨5, 24, by decide⟩ .read).1 =
      some ⟨⟨5, 25, by decide⟩, ⟨none, 0x1005⟩, .readOnly⟩ := by
    subst listed; decide +kernel
  obtain ⟨-, -, -, complete, -⟩ := run_refines_offers operations none
  obtain ⟨-, -, -, -, sound⟩ := run_refines_offers operations (some 1)
  exact ⟨unlimited, (complete _ _ rfl).1 unlimited, single, (sound _ _ _ single).2.2 24 _ rfl⟩

end WindowCache

end Interconnect
