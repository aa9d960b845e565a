import Mathlib.Data.List.Nodup
import Interconnect.Proofs.Bus
import Interconnect.Word

/-!
# The map of a bus

The mappings of a bus lie one above the other, whatever has been mapped and unmapped.  So the map is
a partial function of the address, and what a refused mapping is told can be read off it.  All of
this follows from the laws of interval maps, so two buses that keep their mappings in different ones
give the same answers.

## Main Definitions

* `BusOver.Ascending` — every mapping ends below the start of those after it
* `BusOver.Refuses` — why a target cannot be shown at a range
* `BusOver.attempt`, `BusOver.run` — mapping and unmapping, also in vain
* `BusOver.Charted` — what the map of a bus is, and what calls make of it

## Main Statements

* `BusOver.Ordered.accept_eq_error_iff` — when a mapping is refused
* `BusOver.Ordered.charted`, `BusOver.ordered_run` — the map after any calls
* `BusOver.Ordered.attempt_congr`, `BusOver.mappings_run_eq` — the interval map makes no difference
-/

namespace Interconnect

namespace Mapping

/-- The target's last address has not wrapped exactly when it is that of a 64-bit sum. -/
theorem fits_iff {range : AddressRange} (holds : range.start ≤ range.last) (offset : UInt64) :
    offset ≤ offset + (range.last - range.start) ↔
      offset.toNat + (range.size - 1) < UInt64.size := by
  have distance := UInt64.toNat_sub_of_le range.last range.start holds
  rw [UInt64.le_iff_toNat_le] at holds
  rw [Word.le_add_iff, distance, AddressRange.size]
  omega

/-- **When a mapping cannot be made:** its range is empty, or else the target's addresses behind it
do not fit. -/
theorem make_eq_error_iff {range : AddressRange} {offset : UInt64} {target : TargetId}
    {fault : Fault} :
    make range offset target = .error fault ↔
      range.isEmpty = true ∧ fault = .range (.invalid range.start range.last) ∨
      range.isEmpty = false ∧ UInt64.size ≤ offset.toNat + (range.size - 1) ∧
        fault = .range (.overflow 0 (range.last - range.start) offset.toNat) := by
  unfold make
  split
  · next holds =>
      have nonempty : range.isEmpty = false := AddressRange.isEmpty_eq_false_iff.2 holds
      split
      · next fits =>
          have small := (fits_iff holds offset).1 fits
          simp only [reduceCtorEq, nonempty, Bool.false_eq_true, false_and, true_and, false_or,
            false_iff]
          omega
      · next wraps =>
          rw [fits_iff holds, Nat.not_lt] at wraps
          simp only [nonempty, wraps, Except.error.injEq, Bool.false_eq_true, false_and, true_and,
            false_or]
          exact eq_comm
  · next reversed =>
      have hollow : range.isEmpty = true := by
        rw [← Bool.not_eq_false, AddressRange.isEmpty_eq_false_iff]
        exact reversed
      simp only [hollow, Except.error.injEq, true_and, Bool.true_eq_false, false_and, or_false]
      exact eq_comm

end Mapping

namespace BusOver

variable {I : IntervalMap Mapping} [I.Sound] {b : BusOver I}

/-! ### Ascending mappings -/

/-- **Every mapping ends below the start of those after it.** -/
def Ascending (b : BusOver I) : Prop :=
  b.mappings.Pairwise fun m n => m.range.last < n.range.start

/-- **The mappings are listed in ascending order.** -/
theorem Ordered.ascending (h : b.Ordered) : b.Ascending := by
  have apart := List.pairwise_map.1 h.apart
  refine List.pairwise_map.2 (((IntervalMap.Sound.ascending b.ports).and apart).imp_of_mem ?_)
  rintro e f entry entry' ⟨below, apart⟩
  rw [h.keyed e entry, h.keyed f entry'] at below
  exact AddressRange.last_lt_of_below (AddressRange.isEmpty_eq_false_iff.2 e.2.ordered)
    (AddressRange.isEmpty_eq_false_iff.2 f.2.ordered) apart below

namespace Ordered

/-- No mapping is there twice. -/
theorem nodup (h : b.Ordered) : b.mappings.Nodup := by
  refine List.Pairwise.imp (fun {m n} below same => ?_) h.ascending
  have holds := m.ordered
  subst same
  exact absurd (UInt64.lt_of_lt_of_le below holds) (UInt64.lt_irrefl _)

/-- Two mappings that share an address are the same. -/
theorem eq_of_mem (h : b.Ordered) {m n : Mapping} (shown : m ∈ b.mappings)
    (shown' : n ∈ b.mappings) {a : UInt64} (inside : a ∈ m.range) (inside' : a ∈ n.range) :
    m = n := by
  have found := h.find?_eq_some_iff.2 ⟨shown, inside⟩
  rw [h.find?_eq_some_iff.2 ⟨shown', inside'⟩] at found
  exact (Option.some.inj found).symm

/-- **The first mapping with a property is the lowest.** -/
theorem find?_eq_some_iff_lowest (h : b.Ordered) {p : Mapping → Bool} {m : Mapping} :
    b.mappings.find? p = some m ↔ m ∈ b.mappings ∧ p m = true ∧
      ∀ n ∈ b.mappings, p n = true → m.range.start ≤ n.range.start := by
  have lowest : ∀ m, b.mappings.find? p = some m →
      ∀ n ∈ b.mappings, p n = true → m.range.start ≤ n.range.start := by
    intro m found n shown has
    obtain ⟨-, before, later, split, missed⟩ := List.find?_eq_some_iff_append.1 found
    rw [split] at shown
    rcases List.mem_append.1 shown with early | late
    · have := missed n early
      simp [has] at this
    · rcases List.mem_cons.1 late with rfl | late
      · exact UInt64.le_refl _
      · have ascending : (m :: later).Pairwise fun m n => m.range.last < n.range.start :=
          List.Pairwise.sublist (by rw [split]; exact List.sublist_append_right _ _)
            h.ascending
        have below := (List.pairwise_cons.1 ascending).1 n late
        exact UInt64.le_trans m.ordered (UInt64.le_of_lt below)
  constructor
  · exact fun found =>
      ⟨List.mem_of_find?_eq_some found, List.find?_some found, lowest m found⟩
  · rintro ⟨shown, has, low⟩
    cases found : b.mappings.find? p with
    | none => exact absurd has (List.find?_eq_none.1 found m shown)
    | some n =>
        -- both start at the same address
        have shown' := List.mem_of_find?_eq_some found
        have same : m.range.start = n.range.start :=
          UInt64.le_antisymm (low n shown' (List.find?_some found)) (lowest n found m shown has)
        rw [h.eq_of_mem shown shown' ⟨UInt64.le_refl _, m.ordered⟩
          (same ▸ ⟨UInt64.le_refl _, n.ordered⟩)]

end Ordered

/-! ### What is refused -/

/-- **Why a bus does not show a target at a range.** -/
inductive Refuses (b : BusOver I) (range : AddressRange) (offset : UInt64) : Fault → Prop
  /-- The range is empty. -/
  | empty (hollow : range.isEmpty = true) :
      Refuses b range offset (.range (.invalid range.start range.last))
  /-- The target's addresses behind the range would run past the end of the address space. -/
  | overflow (holds : range.isEmpty = false)
      (beyond : UInt64.size ≤ offset.toNat + (range.size - 1)) :
      Refuses b range offset (.range (.overflow 0 (range.last - range.start) offset.toNat))
  /-- The range overlaps mappings, of which the lowest is named. -/
  | conflict (holds : range.isEmpty = false)
      (fits : offset.toNat + (range.size - 1) < UInt64.size) {m : Mapping}
      (shown : m ∈ b.mappings) (meet : m.range.overlaps range = true)
      (lowest : ∀ n ∈ b.mappings, n.range.overlaps range = true →
        m.range.start ≤ n.range.start) :
      Refuses b range offset (.mapConflict range m.range)

/-- **When a mapping is refused, and with which fault.** -/
theorem Ordered.accept_eq_error_iff (h : b.Ordered) {range : AddressRange} {offset : UInt64}
    {target : TargetId} {fault : Fault} :
    b.accept range offset target = .error fault ↔ b.Refuses range offset fault := by
  rw [h.accept_eq]
  constructor
  · intro refused
    split at refused
    · next made =>
        cases refused
        rcases Mapping.make_eq_error_iff.1 made with ⟨hollow, rfl⟩ | ⟨holds, beyond, rfl⟩
        · exact .empty hollow
        · exact .overflow holds beyond
    · next m made =>
        split at refused
        · next existing found =>
            cases refused
            obtain ⟨rfl, rfl, -⟩ := Mapping.of_make_eq_ok made
            obtain ⟨shown, meet, lowest⟩ := h.find?_eq_some_iff_lowest.1 found
            exact .conflict (AddressRange.isEmpty_eq_false_iff.2 m.ordered)
              ((Mapping.fits_iff m.ordered _).1 m.fits) shown meet lowest
        · cases refused
  · intro refused
    cases refused with
    | empty hollow =>
        rw [Mapping.make_eq_error_iff.2 (.inl ⟨hollow, rfl⟩)]
    | overflow holds beyond =>
        rw [Mapping.make_eq_error_iff.2 (.inr ⟨holds, beyond, rfl⟩)]
    | @conflict holds fits m shown meet lowest =>
        have found := h.find?_eq_some_iff_lowest.2 ⟨shown, meet, lowest⟩
        cases made : Mapping.make range offset target with
        | error e =>
            rcases Mapping.make_eq_error_iff.1 made with ⟨hollow, -⟩ | ⟨-, beyond, -⟩
            · rw [holds] at hollow
              cases hollow
            · omega
        | ok new => simp only [found]

omit [I.Sound] in
/-- Only what is not admitted fails. -/
theorem map_eq_error_iff {range : AddressRange} {offset : UInt64} {target : TargetId}
    {fault : Fault} :
    (b.map range offset target).1 = .error fault ↔ b.accept range offset target = .error fault := by
  unfold map
  cases b.accept range offset target <;> simp

/-- **A mapping ends if there is one of exactly this range.** -/
theorem Ordered.unmap_eq_ok_iff (h : b.Ordered) {range : AddressRange} {m : Mapping} :
    (b.unmap range).1 = .ok m ↔ m ∈ b.mappings ∧ m.range = range := by
  unfold unmap
  split
  · next hollow =>
      simp only [reduceCtorEq, false_iff, not_and]
      rintro - rfl
      rw [AddressRange.isEmpty_eq_false_iff.2 m.ordered] at hollow
      cases hollow
  · next holds =>
      rw [← h.remove_eq_some_iff (Bool.not_eq_true _ ▸ holds)]
      cases removed : I.remove b.ports range.span with
      | mk found ports => cases found <;> simp

omit [I.Sound] in
/-- Otherwise it is told that nothing is mapped there. -/
theorem unmap_eq_error {range : AddressRange} (holds : range.isEmpty = false) {fault : Fault}
    (failed : (b.unmap range).1 = .error fault) : fault = .notMapped range := by
  rw [unmap, holds, if_neg Bool.false_ne_true] at failed
  cases removed : I.remove b.ports range.span with
  | mk found ports =>
      rw [removed] at failed
      cases found with
      | none => exact (Except.error.inj failed).symm
      | some m => cases failed

/-! ### Calls -/

/-- A call that changes what a bus shows. -/
inductive Call where
  /-- A target is shown at a range. -/
  | map (range : AddressRange) (offset : UInt64) (target : TargetId)
  /-- The showing at a range ends. -/
  | unmap (range : AddressRange)

/-- **A call to a bus,** with the mapping that is new or gone, and the bus that is left. -/
def attempt (b : BusOver I) : Call → Except Fault Mapping × BusOver I
  | .map range offset target => b.map range offset target
  | .unmap range => b.unmap range

/-- The bus after some calls. -/
def run (I : IntervalMap Mapping) (handle : HandleId) (calls : List Call) : BusOver I :=
  calls.foldl (fun b call => (b.attempt call).2) (ofHandle handle)

/-- **A call that fails leaves every mapping where it was.** -/
theorem Ordered.entries_of_error (h : b.Ordered) {call : Call} {fault : Fault}
    (failed : (b.attempt call).1 = .error fault) :
    I.entries (b.attempt call).2.ports = I.entries b.ports ∧
      (b.attempt call).2.handle = b.handle := by
  cases call with
  | map range offset target =>
      have refused := map_eq_error_iff.1 failed
      rw [attempt, map, refused]
      exact ⟨rfl, rfl⟩
  | unmap range =>
      have none : ∀ m, (b.unmap range).1 ≠ .ok m := fun m done => by
        rw [attempt, done] at failed
        cases failed
      simp only [attempt, unmap]
      split
      · exact ⟨rfl, rfl⟩
      · next holds =>
          rw [Bool.not_eq_true] at holds
          have left := IntervalMap.Sound.entries_remove b.ports range.span
            (AddressRange.holds_span_iff.2 holds)
          have all : (I.entries b.ports).filter (fun e => e.1 ≠ range.span) =
              I.entries b.ports := by
            refine List.filter_eq_self.2 fun e entry => decide_eq_true fun same => ?_
            rw [h.keyed e entry, AddressRange.span_inj] at same
            exact none e.2 (h.unmap_eq_ok_iff.2 ⟨List.mem_map_of_mem entry, same⟩)
          rw [all] at left
          cases removed : I.remove b.ports range.span with
          | mk found ports =>
              rw [removed] at left
              cases found with
              | none => exact ⟨left, rfl⟩
              | some m => exact ⟨left, rfl⟩

/-- A bus whose mappings are kept in a sorted list is just what it was. -/
theorem attempt_of_error {b : Bus} {call : Call} {fault : Fault}
    (failed : (b.attempt call).1 = .error fault) : (b.attempt call).2 = b := by
  cases call with
  | map range offset target =>
      rw [attempt, map, map_eq_error_iff.1 failed]
  | unmap range =>
      simp only [attempt, unmap] at failed ⊢
      split
      · rfl
      · next holds =>
          rw [if_neg holds] at failed
          simp only [IntervalMap.sorted] at failed ⊢
          cases found : b.ports.1.find? fun e => e.1 = range.span with
          | some e =>
              rw [found] at failed
              cases failed
          | none =>
              have all : b.ports.1.filter (fun e => e.1 ≠ range.span) = b.ports.1 := by
                refine List.filter_eq_self.2 fun e entry => ?_
                simpa using List.find?_eq_none.1 found e entry
              exact congrArg (BusOver.mk · b.handle) (Subtype.ext all)

/-- **What a call leaves of an ordered bus is ordered.** -/
theorem Ordered.attempt (h : b.Ordered) (call : Call) : (b.attempt call).2.Ordered := by
  cases done : b.attempt call with
  | mk outcome after =>
      cases outcome with
      | error fault =>
          have failed : (b.attempt call).1 = .error fault := by rw [done]
          obtain ⟨same, -⟩ := h.entries_of_error failed
          rw [done] at same
          have listed : after.mappings = b.mappings := congrArg (List.map Prod.snd) same
          exact ⟨fun e entry => h.keyed e (same ▸ entry), by rw [listed]; exact h.apart⟩
      | ok m =>
          cases call with
          | map range offset target => exact (h.of_map_eq_ok done).2.1
          | unmap range => exact (h.of_unmap_eq_ok done).2.1

theorem ordered_ofHandle (handle : HandleId) : (ofHandle handle : BusOver I).Ordered :=
  ordered_of_mappings_eq_nil (mappings_ofHandle handle)

/-- **A bus is ordered after any calls,** also in vain. -/
theorem ordered_run (handle : HandleId) (calls : List Call) : (run I handle calls).Ordered := by
  have kept : ∀ b : BusOver I, b.Ordered →
      (calls.foldl (fun b call => (b.attempt call).2) b).Ordered := by
    induction calls with
    | nil => exact fun b ordered => ordered
    | cons call rest ih => exact fun b ordered => ih _ (ordered.attempt call)
  exact kept _ (ordered_ofHandle handle)

/-! ### What the map of a bus is -/

/-- **The map of a bus is a partial function,** which calls change at one range or not at all. -/
structure Charted (b : BusOver I) : Prop where
  /-- Every mapped range holds an address. -/
  holds : ∀ m ∈ b.mappings, m.range.isEmpty = false
  /-- No two mapped ranges have an address in common. -/
  apart : b.mappings.Pairwise Mapping.Apart
  /-- They are listed in ascending order. -/
  ascending : b.Ascending
  /-- The range around an address is the one that includes it. -/
  lookup : ∀ a range, b.lookup a = some range ↔ ∃ m ∈ b.mappings, m.range = range ∧ a ∈ range
  /-- A mapping fails exactly if it is refused. -/
  refused : ∀ range offset target fault,
    (b.map range offset target).1 = .error fault ↔ b.Refuses range offset fault
  /-- One that succeeds is made as it was asked for and comes to the others. -/
  mapped : ∀ range offset target m, (b.map range offset target).1 = .ok m →
    (m.range = range ∧ m.offset = offset ∧ m.target = target) ∧
      ∀ n, n ∈ (b.map range offset target).2.mappings ↔ n = m ∨ n ∈ b.mappings
  /-- A mapping can be ended exactly if it is there. -/
  ended : ∀ range m, (b.unmap range).1 = .ok m ↔ m ∈ b.mappings ∧ m.range = range
  /-- It alone has gone then. -/
  unmapped : ∀ range m, (b.unmap range).1 = .ok m →
    ∀ n, n ∈ (b.unmap range).2.mappings ↔ n ∈ b.mappings ∧ n.range ≠ range
  /-- Otherwise nothing is mapped there. -/
  missing : ∀ range fault, range.isEmpty = false → (b.unmap range).1 = .error fault →
    fault = .notMapped range
  /-- A call that fails changes no mapping. -/
  kept : ∀ call fault, (b.attempt call).1 = .error fault →
    (b.attempt call).2.mappings = b.mappings

/-- **The map of an ordered bus is a partial function.** -/
theorem Ordered.charted (h : b.Ordered) : b.Charted where
  holds := fun m _ => AddressRange.isEmpty_eq_false_iff.2 m.ordered
  apart := h.apart
  ascending := h.ascending
  lookup := by
    intro a range
    simp only [BusOver.lookup, Option.map_eq_some_iff, h.find?_eq_some_iff]
    constructor
    · rintro ⟨m, ⟨shown, inside⟩, rfl⟩
      exact ⟨m, shown, rfl, inside⟩
    · rintro ⟨m, shown, rfl, inside⟩
      exact ⟨m, ⟨shown, inside⟩, rfl⟩
  refused := fun _ _ _ _ => map_eq_error_iff.trans h.accept_eq_error_iff
  mapped := by
    intro range offset target m done
    obtain ⟨asked, -, -, listed⟩ := h.of_map_eq_ok (Prod.ext done rfl)
    exact ⟨asked, listed⟩
  ended := fun _ _ => h.unmap_eq_ok_iff
  unmapped := fun _ _ done => (h.of_unmap_eq_ok (Prod.ext done rfl)).2.2.2
  missing := fun _ _ holds failed => unmap_eq_error holds failed
  kept := fun _ _ failed => congrArg (List.map Prod.snd) (h.entries_of_error failed).1

/-! ### Other interval maps -/

section

variable {J : IntervalMap Mapping} [J.Sound] {c : BusOver J}

/-- Ordered buses that show the same list it in the same way. -/
theorem Ordered.mappings_eq (h : b.Ordered) (h' : c.Ordered)
    (same : ∀ m, m ∈ b.mappings ↔ m ∈ c.mappings) : b.mappings = c.mappings := by
  refine @List.Perm.eq_of_pairwise _ (fun m n => m.range.start ≤ n.range.start) _ _ ?_ ?_ ?_
    ((List.perm_ext_iff_of_nodup h.nodup h'.nodup).2 same)
  · intro m n shown shown' below above
    have start := UInt64.le_antisymm below above
    exact h.eq_of_mem shown ((same n).2 shown') ⟨UInt64.le_refl _, m.ordered⟩
      (start ▸ ⟨UInt64.le_refl _, n.ordered⟩)
  · exact h.ascending.imp fun {m n} below => UInt64.le_trans m.ordered (UInt64.le_of_lt below)
  · exact h'.ascending.imp fun {m n} below => UInt64.le_trans m.ordered (UInt64.le_of_lt below)

/-- **Buses that show the same answer a call alike and show the same after it,** whatever interval
maps they keep their mappings in. -/
theorem Ordered.attempt_congr (h : b.Ordered) (h' : c.Ordered) (same : b.mappings = c.mappings)
    (call : Call) : (b.attempt call).1 = (c.attempt call).1 ∧
      (b.attempt call).2.mappings = (c.attempt call).2.mappings := by
  have answer : (b.attempt call).1 = (c.attempt call).1 := by
    cases call with
    | map range offset target =>
        have admitted : b.accept range offset target = c.accept range offset target := by
          rw [h.accept_eq, h'.accept_eq, same]
        simp only [BusOver.attempt, map, admitted]
        cases c.accept range offset target <;> rfl
    | unmap range =>
        have both : ∀ m, (b.unmap range).1 = .ok m ↔ (c.unmap range).1 = .ok m := fun m => by
          rw [h.unmap_eq_ok_iff, h'.unmap_eq_ok_iff, same]
        simp only [BusOver.attempt]
        cases hollow : range.isEmpty with
        | true => simp [unmap, hollow]
        | false =>
            cases done : (b.unmap range).1 with
            | ok m => exact ((both m).1 done).symm
            | error fault =>
                cases done' : (c.unmap range).1 with
                | ok m =>
                    rw [(both m).2 done'] at done
                    cases done
                | error fault' => rw [unmap_eq_error hollow done, unmap_eq_error hollow done']
  refine ⟨answer, (h.attempt call).mappings_eq (h'.attempt call) fun n => ?_⟩
  cases done : (b.attempt call).1 with
  | error fault =>
      rw [h.charted.kept call fault done, h'.charted.kept call fault (answer ▸ done), same]
  | ok m =>
      cases call with
      | map range offset target =>
          have before := (h.charted.mapped range offset target m done).2 n
          have after := (h'.charted.mapped range offset target m (answer ▸ done)).2 n
          rw [same] at before
          exact before.trans after.symm
      | unmap range =>
          have before := h.charted.unmapped range m done n
          have after := h'.charted.unmapped range m (answer ▸ done) n
          rw [same] at before
          exact before.trans after.symm

/-- **After any calls a bus shows the same,** whatever interval map it keeps its mappings in. -/
theorem mappings_run_eq (I J : IntervalMap Mapping) [I.Sound] [J.Sound] (handle : HandleId)
    (calls : List Call) : (run I handle calls).mappings = (run J handle calls).mappings := by
  have kept : ∀ (b : BusOver I) (c : BusOver J), b.Ordered → c.Ordered →
      b.mappings = c.mappings →
      (calls.foldl (fun b call => (b.attempt call).2) b).mappings =
        (calls.foldl (fun c call => (c.attempt call).2) c).mappings := by
    induction calls with
    | nil => exact fun _ _ _ _ same => same
    | cons call rest ih =>
        exact fun b c h h' same => ih _ _ (h.attempt call) (h'.attempt call)
          (h.attempt_congr h' same call).2
  exact kept _ _ (ordered_ofHandle handle) (ordered_ofHandle handle)
    (by rw [mappings_ofHandle, mappings_ofHandle])

end

end BusOver

end Interconnect
