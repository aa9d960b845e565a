import Interconnect.Proofs.Gate.Access
import Interconnect.Proofs.Window.Offers

/-!
# Windows onto no storage

A window whose pointer is null stands for no storage.  An initiator drops a pointer that is null at
the address that is asked for, but the pointers of such a window are numbers that count up from its
start, so only the first of them is null.  From the next address on the window is used like any
other.

## Main Definitions

* `WindowCache.OnlyNull` — operations that insert no window but these

## Main Statements

* `WindowCache.exists_insert_of_mem_offersAfter` — every offer comes from a window
* `WindowCache.OnlyNull.exists_insert` — and so does every pointer, as the distance from its start
* `Initiator.pointerFor_of_null` — when windows onto no storage are used, and for what
* `Initiator.not_forall_pointerFor_eq_none` — sometimes they are
-/

namespace Interconnect

universe u

/-- A range holds the start of every range that it contains. -/
theorem AddressRange.start_mem_of_contains {r s : AddressRange} (h : r.contains s = true) :
    s.start ∈ r := by
  simp only [contains, Bool.and_eq_true, includes_eq_true_iff] at h
  exact h.1

/-- A bare pointer that is counted from a start. -/
theorem HostPointer.advance_zero_sub (start a : UInt64) :
    (⟨none, 0 - start⟩ : HostPointer).advance a = ⟨none, a - start⟩ := by
  simp only [advance, HostPointer.mk.injEq, true_and]
  grind

namespace WindowCache

/-- What an operation adds is what a window maps. -/
theorem Operation.mem_effect {operation : Operation} {S : Set Offer} {t : Offer}
    (h : t ∈ operation.effect S) :
    t ∈ S ∨ ∃ w, operation = .insert w ∧ w.Maps t.1 t.2.1 t.2.2 := by
  cases operation with
  | insert w => exact h.imp_right fun new => ⟨w, rfl, maps_iff.2 new⟩
  | lookup range command => exact .inl h
  | lookupAt start size command => exact .inl h
  | withdraw range => exact .inl h.1
  | withdrawBetween start last => exact .inl h.1
  | clear => exact h.elim

/-- **Every offer comes from a window that has been inserted.** -/
theorem exists_insert_of_mem_foldl {operations : List Operation} {S : Set Offer} {t : Offer}
    (h : t ∈ operations.foldl (fun S operation => operation.effect S) S) :
    t ∈ S ∨ ∃ w, .insert w ∈ operations ∧ w.Maps t.1 t.2.1 t.2.2 := by
  induction operations generalizing S with
  | nil => exact .inl h
  | cons operation rest ih =>
      rcases ih h with there | ⟨w, inserted, maps⟩
      · rcases Operation.mem_effect there with old | ⟨w, rfl, maps⟩
        · exact .inl old
        · exact .inr ⟨w, List.mem_cons_self, maps⟩
      · exact .inr ⟨w, List.mem_cons_of_mem _ inserted, maps⟩

theorem exists_insert_of_mem_offersAfter {operations : List Operation} {t : Offer}
    (h : t ∈ offersAfter operations) : ∃ w, .insert w ∈ operations ∧ w.Maps t.1 t.2.1 t.2.2 :=
  (exists_insert_of_mem_foldl h).resolve_left (Set.notMem_empty t)

/-- **Operations that insert no window but those onto no storage.** -/
def OnlyNull (operations : List Operation) : Prop :=
  ∀ w, .insert w ∈ operations → w.pointer = .null

namespace OnlyNull

variable {operations : List Operation} (nulls : OnlyNull operations)

include nulls

/-- **What is offered at an address** is the distance from the start of some window over it. -/
theorem exists_insert {a : UInt64} {q : Permission} {p : HostPointer}
    (h : (a, q, p) ∈ offersAfter operations) :
    ∃ w, .insert w ∈ operations ∧ a ∈ w.range ∧ w.permission = q ∧
      p = ⟨none, a - w.range.start⟩ := by
  obtain ⟨w, inserted, inside, permission, pointer⟩ := exists_insert_of_mem_offersAfter h
  refine ⟨w, inserted, inside, permission, ?_⟩
  refine pointer.symm.trans ?_
  rw [DirectWindow.pointerFor, nulls w inserted]
  simp [HostPointer.null, HostPointer.advance]

/-- The pointer is null only where that window starts. -/
theorem exists_start_lt {a : UInt64} {q : Permission} {p : HostPointer}
    (h : (a, q, p) ∈ offersAfter operations) (real : p.isNull = false) :
    ∃ w, .insert w ∈ operations ∧ w.range.start < a ∧ a ≤ w.range.last ∧ w.permission = q ∧
      p = ⟨none, a - w.range.start⟩ := by
  obtain ⟨w, inserted, inside, permission, rfl⟩ := nulls.exists_insert h
  have apart : w.range.start ≠ a := by
    rintro rfl
    simp [HostPointer.isNull, HostPointer.null] at real
  exact ⟨w, inserted, UInt64.lt_of_le_of_ne inside.1 apart, inside.2, permission, rfl⟩

/-- No pointer is null at an address where no window starts. -/
theorem isNull_eq_false {a : UInt64} {q : Permission} {p : HostPointer}
    (h : (a, q, p) ∈ offersAfter operations)
    (elsewhere : ∀ w, .insert w ∈ operations → w.range.start ≠ a) : p.isNull = false := by
  obtain ⟨w, inserted, -, -, rfl⟩ := nulls.exists_insert h
  have := elsewhere w inserted
  simp only [HostPointer.isNull, HostPointer.null, beq_eq_false_iff_ne, ne_eq,
    HostPointer.mk.injEq, true_and]
  grind

/-- The origin of pointers onto no storage is the start that they are counted from. -/
theorem exists_origin {a : UInt64} {q : Permission} {origin : HostPointer}
    (h : (a, q, origin.advance a) ∈ offersAfter operations) :
    ∃ start, ∀ b, origin.advance b = ⟨none, b - start⟩ := by
  obtain ⟨w, -, -, -, same⟩ := nulls.exists_insert h
  rw [← HostPointer.advance_zero_sub, HostPointer.advance_inj] at same
  exact ⟨w.range.start, fun b => by rw [same, HostPointer.advance_zero_sub]⟩

end OnlyNull

end WindowCache

namespace Initiator

variable {σ : Type u} {i : Initiator} {net : Network} {limit : Option Nat}
  {operations : List WindowCache.Operation}

/-- A pointer that is found is offered by the initiator's cache, and is not null. -/
theorem mem_offers_of_pointerFor {range : AddressRange} {command : Command} {p : HostPointer}
    (h : (i.pointerFor range command net).1 = some p) :
    ∃ q : Permission, q.allows command = true ∧ p.isNull = false ∧
      (range.start, q, p) ∈ (net.cache i.cache).offers := by
  obtain ⟨w, cached, inside, -, allows, rfl, real⟩ := exists_of_pointerFor h
  exact ⟨w.permission, allows, real, WindowCache.covers_of_mem cached inside⟩

/-- The pointer of an access is one for the range that starts at its address. -/
theorem exists_pointerFor_of_shortcut {command : Command} {address : UInt64} {length : Nat}
    {mode : AccessMode} {p : HostPointer}
    (h : (i.shortcut command address length mode net).1 = some p) :
    ∃ range wanted, range.start = address ∧ (i.pointerFor range wanted net).1 = some p := by
  unfold shortcut at h
  split at h
  · cases h
  · next plain =>
      simp only [Bool.or_eq_true, decide_eq_true_eq, not_or] at plain
      split at h
      · cases h
      · next range made =>
          obtain ⟨-, start, -⟩ := (AddressRange.ofSize_eq_ok_iff plain.2).1 made
          exact ⟨range, _, start, h⟩

/-- A pointer is found if a window is, and is not null where the range starts. -/
theorem isSome_pointerFor_iff {range : AddressRange} {command : Command} :
    (i.pointerFor range command net).1.isSome = true ↔ i.allowDirect = true ∧
      ∃ w, ((net.cache i.cache).lookup range command).1 = some w ∧
        (w.pointerFor range.start).isNull = false := by
  unfold pointerFor
  split
  · next allowed =>
      simp only [allowed, true_and]
      cases found : ((net.cache i.cache).lookup range command).1 with
      | none => simp
      | some w =>
          obtain ⟨-, contains, -⟩ := WindowCache.mem_windows_of_lookup found
          have inside := AddressRange.start_mem_of_contains contains
          simp [DirectWindow.pointerAt, inside, Option.filter]
  · next refused => simp [refused]

section OnlyNull

variable (history : net.cache i.cache = WindowCache.run limit operations)
  (nulls : WindowCache.OnlyNull operations)

include history nulls

/-- **A pointer that is found** is the distance from the start of some window below the range. -/
theorem exists_insert_of_pointerFor {range : AddressRange} {command : Command} {p : HostPointer}
    (found : (i.pointerFor range command net).1 = some p) :
    ∃ w, .insert w ∈ operations ∧ w.range.start < range.start ∧ range.start ≤ w.range.last ∧
      w.permission.allows command = true ∧ p = ⟨none, range.start - w.range.start⟩ := by
  obtain ⟨q, allows, real, offered⟩ := mem_offers_of_pointerFor found
  have within : (range.start, q, p) ∈ WindowCache.offersAfter operations :=
    WindowCache.offers_run_subset limit operations (history ▸ offered)
  obtain ⟨w, inserted, below, reaches, rfl, pointer⟩ := nulls.exists_start_lt within real
  exact ⟨w, inserted, below, reaches, allows, pointer⟩

/-- **An access goes direct** only above the start of such a window. -/
theorem exists_insert_of_direct {T : Target σ} {s t : Station σ} {command : Command}
    {address : UInt64} {data bytes : Bytes} {mode : AccessMode} {done : Completion}
    (there : s.network = net)
    (accessed : i.access T command address data mode s = .ok (bytes, done, t))
    (direct : done.direct = true) :
    ∃ w, .insert w ∈ operations ∧ w.range.start < address ∧ address ≤ w.range.last := by
  subst there
  rcases access_cases accessed with ⟨p, found, -, -⟩ | ⟨after, -, passed⟩
  · obtain ⟨range, wanted, rfl, pointed⟩ := exists_pointerFor_of_shortcut found
    obtain ⟨w, inserted, below, reaches, -⟩ := exists_insert_of_pointerFor history nulls pointed
    exact ⟨w, inserted, below, reaches⟩
  · rw [direct_of_throughGate passed] at direct
    cases direct

/-- **Without a limit,** and if no window begins where the range does, a pointer is found exactly
when the whole range is offered at distances from one start. -/
theorem isSome_pointerFor_of_null_iff {range : AddressRange} {command : Command}
    (holds : range.isEmpty = false) (unlimited : limit = none)
    (elsewhere : ∀ w, .insert w ∈ operations → w.range.start ≠ range.start) :
    (i.pointerFor range command net).1.isSome = true ↔ i.allowDirect = true ∧
      ∃ (q : Permission) (start : UInt64), q.allows command = true ∧
        ∀ a ∈ range, (a, q, ⟨none, a - start⟩) ∈ WindowCache.offersAfter operations := by
  subst unlimited
  have offers : (net.cache i.cache).offers = WindowCache.offersAfter operations :=
    history ▸ WindowCache.offers_run operations
  have tidy : WindowCache.Tidy (net.cache i.cache).windows :=
    history ▸ WindowCache.tidy_run none operations
  rw [isSome_pointerFor_iff]
  refine and_congr_right fun _ => ?_
  constructor
  · rintro ⟨w, found, -⟩
    obtain ⟨q, origin, allows, offered⟩ :=
      (WindowCache.isSome_lookup_iff tidy holds).1 (Option.isSome_of_eq_some found)
    rw [offers] at offered
    have first : range.start ∈ range :=
      ⟨UInt64.le_refl _, AddressRange.isEmpty_eq_false_iff.1 holds⟩
    obtain ⟨start, counted⟩ := nulls.exists_origin (offered _ first)
    exact ⟨q, start, allows, fun a inside => counted a ▸ offered a inside⟩
  · rintro ⟨q, start, allows, offered⟩
    obtain ⟨w, found⟩ := Option.isSome_iff_exists.1 <|
      (WindowCache.isSome_lookup_iff tidy holds).2 ⟨q, ⟨none, 0 - start⟩, allows,
        fun a inside => by rw [offers, HostPointer.advance_zero_sub]; exact offered a inside⟩
    obtain ⟨cached, contains, -⟩ := WindowCache.mem_windows_of_lookup found
    have there : (range.start, w.permission, w.pointerFor range.start) ∈
        WindowCache.offersAfter operations :=
      offers ▸ WindowCache.covers_of_mem cached (AddressRange.start_mem_of_contains contains)
    exact ⟨w, found, nulls.isNull_eq_false there elsewhere⟩

end OnlyNull

/-- **When windows onto no storage are used.**  Of a cache that has received no others, whatever its
limit and whatever else has been done to it, every pointer is the distance of the range from the
start of some window that begins below it; so is the address of every access that goes direct.
Without a limit, and if no window begins where the range does, there is a pointer exactly when the
whole range is offered at such distances. -/
theorem pointerFor_of_null (history : net.cache i.cache = WindowCache.run limit operations)
    (nulls : WindowCache.OnlyNull operations) :
    (∀ range command p, (i.pointerFor range command net).1 = some p →
      ∃ w, .insert w ∈ operations ∧ w.range.start < range.start ∧ range.start ≤ w.range.last ∧
        w.permission.allows command = true ∧ p = ⟨none, range.start - w.range.start⟩) ∧
    (∀ (T : Target σ) (s : Station σ) command address data mode bytes done t, s.network = net →
      i.access T command address data mode s = .ok (bytes, done, t) → done.direct = true →
      ∃ w, .insert w ∈ operations ∧ w.range.start < address ∧ address ≤ w.range.last) ∧
    ∀ range command, range.isEmpty = false → limit = none →
      (∀ w, .insert w ∈ operations → w.range.start ≠ range.start) →
      ((i.pointerFor range command net).1.isSome = true ↔ i.allowDirect = true ∧
        ∃ (q : Permission) (start : UInt64), q.allows command = true ∧
          ∀ a ∈ range, (a, q, ⟨none, a - start⟩) ∈ WindowCache.offersAfter operations) := by
  refine ⟨fun range command p found => exists_insert_of_pointerFor history nulls found, ?_, ?_⟩
  · intro T s command address data mode bytes done t there accessed direct
    exact exists_insert_of_direct history nulls there accessed direct
  · intro range command holds unlimited elsewhere
    exact isSome_pointerFor_of_null_iff history nulls holds unlimited elsewhere

/-- Four addresses without storage. -/
def emptyPage : DirectWindow := ⟨⟨0, 3, by decide⟩, .null, .readWrite⟩

/-- A network whose only cache has received them. -/
def emptyPages : Network :=
  Network.empty.setCache 0 (WindowCache.run none [.insert emptyPage])

theorem onlyNull_emptyPage : WindowCache.OnlyNull [.insert emptyPage] := by
  intro w inserted
  cases List.mem_singleton.1 inserted
  rfl

/-- The second of them has a pointer, one past null. -/
theorem pointerFor_emptyPages : ((⟨1, true, 0⟩ : Initiator).pointerFor ⟨1, 1, by decide⟩ .read
    emptyPages).1 = some ⟨none, 1⟩ := by decide

/-- It is found because the window begins below it, and is offered at that distance. -/
theorem exists_pointerFor_of_emptyPage :
    (∃ w, .insert w ∈ [WindowCache.Operation.insert emptyPage] ∧ w.range.start < 1 ∧
        1 ≤ w.range.last ∧ w.permission.allows .read = true ∧
        (⟨none, 1⟩ : HostPointer) = ⟨none, 1 - w.range.start⟩) ∧
      ∃ (q : Permission) (start : UInt64), q.allows .read = true ∧
        ∀ a ∈ (⟨1, 1, by decide⟩ : AddressRange),
          (a, q, ⟨none, a - start⟩) ∈ WindowCache.offersAfter [.insert emptyPage] := by
  have history : emptyPages.cache (⟨1, true, 0⟩ : Initiator).cache =
      WindowCache.run none [.insert emptyPage] := rfl
  obtain ⟨sound, -, complete⟩ := pointerFor_of_null (σ := Unit) history onlyNull_emptyPage
  have elsewhere : ∀ w, .insert w ∈ [WindowCache.Operation.insert emptyPage] →
      w.range.start ≠ 1 := by
    intro w inserted
    cases List.mem_singleton.1 inserted
    decide
  refine ⟨sound _ _ _ pointerFor_emptyPages, ?_⟩
  refine ((complete ⟨1, 1, by decide⟩ .read rfl rfl elsewhere).1 ?_).2
  rw [pointerFor_emptyPages]
  rfl

/-- **A window onto no storage can be used,** though nothing else has been granted. -/
theorem not_forall_pointerFor_eq_none :
    ¬ ∀ (i : Initiator) (net : Network) (limit : Option Nat)
      (operations : List WindowCache.Operation),
      net.cache i.cache = WindowCache.run limit operations → WindowCache.OnlyNull operations →
      ∀ range command, range.isEmpty = false → (i.pointerFor range command net).1 = none := by
  intro never
  have absent := never ⟨1, true, 0⟩ emptyPages none [.insert emptyPage] rfl onlyNull_emptyPage
    ⟨1, 1, by decide⟩ .read rfl
  rw [pointerFor_emptyPages] at absent
  cases absent

end Initiator

end Interconnect
