import Mathlib.Data.Multiset.Defs
import Interconnect.Proofs.Window.Offers

/-!
# The windows of a set of offers

Windows are merged one by one, in the order in which the entries are found, so two caches that were
filled in different orders go through different entries.  Without a limit they end up with the same
ones: the windows of a cache are the longest stretches that its offers have, and the offers are a
set, which knows nothing of the order.

## Main Definitions

* `WindowCache.IsStretch` — a window is a longest stretch of a set of offers
* `WindowCache.contents` — the windows of a cache without their order

## Main Statements

* `mem_windows_iff_isStretch` — a tidy cache holds the longest stretches of its offers
* `contents_eq_of_offers_eq` — what is offered tells what is cached
* `contents_run_independent` — insertions and withdrawals can change places

### Why the order within a cache is left out

Two windows of one permission may start at one address if their pointers do not line up.  The
younger one stands in front of the older one, and so their order tells which was inserted first.
-/

namespace Interconnect

namespace DirectWindow

/-- A window is a part of one that contains its range, serves the same commands, and counts its
pointers from the same origin. -/
theorem isPartOf_of_contains {v w : DirectWindow} (contains : w.range.contains v.range = true)
    (permission : w.permission = v.permission) (origin : w.origin = v.origin) : v.IsPartOf w := by
  refine ⟨fun a inside => AddressRange.mem_of_contains contains inside, permission.symm,
    fun a => ?_⟩
  rw [pointerFor_eq_advance, pointerFor_eq_advance, origin]

theorem last_mem {w : DirectWindow} (holds : w.isEmpty = false) : w.range.last ∈ w.range :=
  ⟨AddressRange.isEmpty_eq_false_iff.1 holds, UInt64.le_refl _⟩

/-- Windows that hold an address are equal if they are parts of each other. -/
theorem IsPartOf.antisymm {v w : DirectWindow} (h : v.IsPartOf w) (h' : w.IsPartOf v)
    (holds : v.isEmpty = false) : v = w := by
  have first := h.within _ (start_mem holds)
  have final := h.within _ (last_mem holds)
  have start : v.range.start = w.range.start :=
    UInt64.le_antisymm (h'.within _ (start_mem (h.holds holds))).1 first.1
  have last : v.range.last = w.range.last :=
    UInt64.le_antisymm final.2 (h'.within _ (last_mem (h.holds holds))).2
  refine DirectWindow.ext (AddressRange.ext start last) ?_ h.permission
  rw [← v.pointerFor_start, h.aligned, start, w.pointerFor_start]

/-- A window that holds an address can be merged with itself. -/
theorem mergeable_self {w : DirectWindow} (holds : w.isEmpty = false) : w.mergeable w = true := by
  have overlaps := AddressRange.overlaps_iff.2 ⟨_, start_mem holds, start_mem holds⟩
  exact mergeable_iff_continues.2 ⟨holds, holds, rfl, .inl overlaps, fun _ => rfl⟩

end DirectWindow

namespace WindowCache

/-- **The window is offered:** every address of it, with its permission and its pointers. -/
def Offered (S : Set Offer) (w : DirectWindow) : Prop :=
  ∀ a ∈ w.range, (a, w.permission, w.pointerFor a) ∈ S

/-- **The window is a longest stretch of the offers.**  It holds an address, all of it is offered,
and it is a part of no other window that is. -/
structure IsStretch (S : Set Offer) (w : DirectWindow) : Prop where
  /-- It holds an address. -/
  holds : w.isEmpty = false
  /-- All of it is offered. -/
  offered : Offered S w
  /-- No offered window reaches beyond it. -/
  longest : ∀ v, Offered S v → w.IsPartOf v → v = w

/-! ### The windows of a tidy cache -/

theorem offered_of_mem {c : WindowCache} {w : DirectWindow} (cached : w ∈ c.windows) :
    Offered c.offers w :=
  fun _ inside => covers_of_mem cached inside

/-- What is offered by a cache is a part of a window of it. -/
theorem exists_isPartOf {c : WindowCache} (tidy : Tidy c.windows) {w : DirectWindow}
    (holds : w.isEmpty = false) (offered : Offered c.offers w) :
    ∃ v ∈ c.windows, w.IsPartOf v := by
  have backed : ∀ a ∈ w.range, (a, w.permission, w.origin.advance a) ∈ c.offers := by
    intro a inside
    rw [← w.pointerFor_eq_advance]
    exact offered a inside
  obtain ⟨v, cached, contains, permission, origin⟩ := exists_contains tidy holds backed
  exact ⟨v, cached, DirectWindow.isPartOf_of_contains contains permission origin⟩

/-- Two windows of a tidy cache have no part in common, unless they are one. -/
theorem Tidy.eq_of_part {windows : List DirectWindow} (tidy : Tidy windows)
    {u v w : DirectWindow} (first : v ∈ windows) (second : w ∈ windows) (holds : u.isEmpty = false)
    (left : u.IsPartOf v) (right : u.IsPartOf w) : v = w := by
  have together := DirectWindow.mergeable_of_parts left right (DirectWindow.mergeable_self holds)
  exact tidy.eq_of_continues first second (DirectWindow.mergeable_iff_continues.1 together).2.2

/-- **A tidy cache holds the longest stretches of its offers,** and nothing else. -/
theorem mem_windows_iff_isStretch {c : WindowCache} (tidy : Tidy c.windows) {w : DirectWindow} :
    w ∈ c.windows ↔ IsStretch c.offers w := by
  constructor
  · intro cached
    refine ⟨tidy.holds w cached, offered_of_mem cached, fun v offered part => ?_⟩
    have holds := part.holds (tidy.holds w cached)
    obtain ⟨u, other, whole⟩ := exists_isPartOf tidy holds offered
    obtain rfl := tidy.eq_of_part cached other (tidy.holds w cached) (.refl w) (part.trans whole)
    exact whole.antisymm part holds
  · rintro ⟨holds, offered, longest⟩
    obtain ⟨v, cached, part⟩ := exists_isPartOf tidy holds offered
    rwa [← longest v (offered_of_mem cached) part]

/-- A tidy cache holds no window twice, since a window can be merged with itself. -/
theorem Tidy.nodup {windows : List DirectWindow} (tidy : Tidy windows) : windows.Nodup := by
  refine tidy.apart.imp_of_mem fun {v w} first _ apart same => ?_
  subst same
  rw [DirectWindow.mergeable_self (tidy.holds v first)] at apart
  cases apart

/-- **The windows of a cache without their order,** each as often as it is there. -/
def contents (c : WindowCache) : Multiset DirectWindow := c.windows

/-- **What is offered tells what is cached.** -/
theorem contents_eq_of_offers_eq {c d : WindowCache} (tidy : Tidy c.windows)
    (tidy' : Tidy d.windows) (same : c.offers = d.offers) : c.contents = d.contents := by
  refine Multiset.coe_eq_coe.2 ((List.perm_ext_iff_of_nodup tidy.nodup tidy'.nodup).2 fun w => ?_)
  rw [mem_windows_iff_isStretch tidy, mem_windows_iff_isStretch tidy', same]

/-! ### Operations that can change places -/

/-- Caches without a limit hold the same windows after operations that add and take the same
offers. -/
theorem contents_run_eq {operations others : List Operation}
    (same : offersAfter operations = offersAfter others) :
    (run none operations).contents = (run none others).contents := by
  refine contents_eq_of_offers_eq (tidy_run none operations) (tidy_run none others) ?_
  rw [offers_run, offers_run, same]

theorem offersAfter_append (operations later : List Operation) :
    offersAfter (operations ++ later) =
      later.foldl (fun S operation => operation.effect S) (offersAfter operations) :=
  List.foldl_append

/-- **Insertions alone offer what some window of them maps.** -/
theorem mem_foldl_insert_iff (windows : List DirectWindow) {S : Set Offer} {t : Offer} :
    t ∈ (windows.map .insert).foldl (fun S operation => Operation.effect operation S) S ↔
      t ∈ S ∨ ∃ w ∈ windows, w.Maps t.1 t.2.1 t.2.2 := by
  induction windows generalizing S with
  | nil => simp
  | cons w rest ih =>
      have first : t ∈ (Operation.insert w).effect S ↔ t ∈ S ∨ w.Maps t.1 t.2.1 t.2.2 :=
        or_congr_right maps_iff.symm
      rw [List.map_cons, List.foldl_cons, ih, first]
      simp only [List.mem_cons, exists_eq_or_imp, or_assoc]

/-- A window that is offered already adds nothing. -/
theorem effect_insert_eq_self {S : Set Offer} {w : DirectWindow} (offered : Offered S w) :
    (Operation.insert w).effect S = S := by
  refine Set.union_eq_self_of_subset_right fun t added => ?_
  obtain ⟨inside, permission, pointer⟩ := maps_iff.2 added
  have known := offered t.1 inside
  rwa [permission, pointer] at known

theorem effect_withdraw_comm (r s : AddressRange) (S : Set Offer) :
    (Operation.withdraw r).effect ((Operation.withdraw s).effect S) =
      (Operation.withdraw s).effect ((Operation.withdraw r).effect S) :=
  Set.ext fun _ => and_right_comm

/-- **What a cache without a limit holds does not depend on the order.**  Windows that are inserted
into an empty cache make the same windows in any order; inserting one that is covered already,
address by address, changes nothing; and of two withdrawals either may come first. -/
theorem contents_run_independent :
    (∀ windows others : List DirectWindow, windows.Perm others →
        (run none (windows.map .insert)).contents = (run none (others.map .insert)).contents) ∧
      (∀ (operations : List Operation) (w : DirectWindow),
        (∀ a ∈ w.range, (run none operations).Covers a w.permission (w.pointerFor a)) →
        ((run none operations).insert w).contents = (run none operations).contents) ∧
      ∀ (operations : List Operation) (r s : AddressRange),
        (((run none operations).withdraw r).2.withdraw s).2.contents =
          (((run none operations).withdraw s).2.withdraw r).2.contents := by
  refine ⟨fun windows others same => contents_run_eq ?_, fun operations w covered => ?_,
    fun operations r s => ?_⟩
  · refine Set.ext fun t => ?_
    rw [offersAfter, offersAfter, mem_foldl_insert_iff, mem_foldl_insert_iff]
    simp only [same.mem_iff]
  · have offered : Offered (offersAfter operations) w := by
      rw [← offers_run]
      exact covered
    have same : offersAfter (operations ++ [.insert w]) = offersAfter operations := by
      rw [offersAfter_append]
      exact effect_insert_eq_self offered
    simpa [run, perform] using contents_run_eq same
  · have swapped : offersAfter (operations ++ [.withdraw r, .withdraw s]) =
        offersAfter (operations ++ [.withdraw s, .withdraw r]) := by
      rw [offersAfter_append, offersAfter_append]
      exact effect_withdraw_comm s r _
    simpa [run, perform] using contents_run_eq swapped

/-- Three windows that make one, a fourth with other pointers and a fifth with another permission
come in two orders, which can be told from the order of the cached windows; a part of the three is
inserted once more, and two overlapping ranges are withdrawn. -/
theorem exists_contents_run_independent :
    ∃ (windows others : List DirectWindow) (w : DirectWindow) (r s : AddressRange),
      windows.Perm others ∧
      (run none (windows.map .insert)).windows ≠ (run none (others.map .insert)).windows ∧
      (run none (windows.map .insert)).contents = (run none (others.map .insert)).contents ∧
      (∀ a ∈ w.range,
        (run none (windows.map .insert)).Covers a w.permission (w.pointerFor a)) ∧
      ((run none (windows.map .insert)).insert w).contents =
        (run none (windows.map .insert)).contents ∧
      (((run none (windows.map .insert)).withdraw r).2.withdraw s).2.contents =
        (((run none (windows.map .insert)).withdraw s).2.withdraw r).2.contents := by
  let windows : List DirectWindow := [
    ⟨⟨0, 9, by decide⟩, ⟨none, 0x1000⟩, .readOnly⟩,
    ⟨⟨20, 29, by decide⟩, ⟨none, 0x1014⟩, .readOnly⟩,
    ⟨⟨5, 24, by decide⟩, ⟨none, 0x1005⟩, .readOnly⟩,
    ⟨⟨0, 29, by decide⟩, ⟨none, 0x8000⟩, .readOnly⟩,
    ⟨⟨0, 9, by decide⟩, ⟨none, 0x1000⟩, .readWrite⟩]
  let w : DirectWindow := ⟨⟨3, 27, by decide⟩, ⟨none, 0x1003⟩, .readOnly⟩
  let whole : DirectWindow := ⟨⟨0, 29, by decide⟩, ⟨none, 0x1000⟩, .readOnly⟩
  obtain ⟨permuted, covered, withdrawn⟩ := contents_run_independent
  have perm : windows.Perm windows.reverse := windows.reverse_perm.symm
  have cached : whole ∈ (run none (windows.map .insert)).windows := by decide +kernel
  have part : w.IsPartOf whole :=
    DirectWindow.isPartOf_of_contains (by decide) rfl (by decide)
  have known : ∀ a ∈ w.range,
      (run none (windows.map .insert)).Covers a w.permission (w.pointerFor a) := by
    intro a inside
    rw [part.permission, part.aligned]
    exact covers_of_mem cached (part.within a inside)
  exact ⟨windows, windows.reverse, w, ⟨8, 21, by decide⟩, ⟨15, 25, by decide⟩, perm,
    by decide +kernel, permuted _ _ perm, known, covered _ w known, withdrawn _ _ _⟩

end WindowCache

end Interconnect
