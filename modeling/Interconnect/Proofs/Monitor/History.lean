import Interconnect.Proofs.Monitor
import Mathlib.Data.List.Basic

/-!
# The history of a monitor

The reservations of a monitor are what its history says: those that were made and that nothing has
ended since.

## Main Definitions

* `Operation`, `perform`, `run` — everything that can be done to a monitor
* `Step`, `history` — what was done, and whether it was admitted
* `standing` — the reservations of a history that no later step has ended
* `Survives` — one such reservation

## Main Statements

* `reservations_run` — what stands after some operations
* `run_eq_history` — a new monitor holds what its history says, and admits accordingly

### Forwards and backwards

A monitor carries its reservations forwards and drops some at every step.  `standing` goes the other
way: it looks at the step that makes a reservation and asks all later ones whether they end it.  The
only thing both rely on is which writes were admitted, and this is what a history records.
-/

namespace Interconnect

namespace Monitor

/-- Everything that can be done to a monitor. -/
inductive Operation where
  /-- An access is made, if it may go ahead. -/
  | access (access : Access)
  /-- A reservation is added. -/
  | reserve (owner : Owner) (range : AddressRange)
  /-- The reservations that overlap a range are dropped. -/
  | breakRange (range : AddressRange)
  /-- The reservations of an owner are dropped. -/
  | breakOwner (owner : Owner)
  /-- All reservations are dropped. -/
  | clear
deriving DecidableEq

/-- Whether an operation goes ahead; all but accesses always do. -/
def admits (m : Monitor) : Operation → Bool
  | .access access => (m.apply access).isSome
  | _ => true

/-- **The reservations after an operation.** -/
def perform (m : Monitor) : Operation → Monitor
  | .access access => (m.apply access).getD m
  | .reserve owner range => m.reserve owner range
  | .breakRange range => m.breakRange range
  | .breakOwner owner => m.breakOwner owner
  | .clear => empty

/-- The reservations after some operations. -/
def run (m : Monitor) (operations : List Operation) : Monitor := operations.foldl perform m

/-! ### Histories -/

/-- An operation and whether it was admitted. -/
structure Step where
  /-- The operation. -/
  operation : Operation
  /-- Whether it was admitted. -/
  admitted : Bool
deriving DecidableEq

namespace Step

/-- The reservation that a step makes, if it makes one. -/
def made (s : Step) : Option Reservation :=
  match s.operation with
  | .access access =>
    if access.exclusive && access.command = .read then some ⟨access.owner, access.range⟩ else none
  | .reserve owner range => some ⟨owner, range⟩
  | _ => none

/-- Whether a step ends a reservation that stands. -/
def ends (s : Step) (r : Reservation) : Bool :=
  match s.operation with
  | .access access =>
    s.admitted && access.command = .write && r.range.overlaps access.range
  | .reserve _ _ => false
  | .breakRange range => r.range.overlaps range
  | .breakOwner owner => r.owner == owner
  | .clear => true

end Step

/-- What is done to a monitor step by step, and whether it is admitted. -/
def history (m : Monitor) : List Operation → List Step
  | [] => []
  | operation :: rest => ⟨operation, m.admits operation⟩ :: history (m.perform operation) rest

/-- **The reservations of a history that no later step has ended,** in the order in which they were
made. -/
def standing : List Step → List Reservation
  | [] => []
  | s :: later =>
    (s.made.filter fun r => later.all fun t => !t.ends r).toList ++ standing later

/-- **Some step has made the reservation, and no later one has ended it.** -/
def Survives (steps : List Step) (r : Reservation) : Prop :=
  ∃ before s later, steps = before ++ s :: later ∧ s.made = some r ∧
    ∀ t ∈ later, t.ends r = false

theorem survives_cons_iff {s : Step} {later : List Step} {r : Reservation} :
    Survives (s :: later) r ↔
      (s.made = some r ∧ ∀ t ∈ later, t.ends r = false) ∨ Survives later r := by
  constructor
  · rintro ⟨before, t, rest, split, made, kept⟩
    cases before with
    | nil =>
        cases split
        exact .inl ⟨made, kept⟩
    | cons first before =>
        cases split
        exact .inr ⟨before, t, rest, rfl, made, kept⟩
  · rintro (⟨made, kept⟩ | ⟨before, t, rest, rfl, made, kept⟩)
    · exact ⟨[], s, later, rfl, made, kept⟩
    · exact ⟨s :: before, t, rest, rfl, made, kept⟩

theorem mem_standing_iff {steps : List Step} {r : Reservation} :
    r ∈ standing steps ↔ Survives steps r := by
  induction steps with
  | nil => simp [standing, Survives]
  | cons s later ih =>
      rw [survives_cons_iff, ← ih, standing, List.mem_append, Option.mem_toList,
        Option.filter_eq_some_iff]
      simp only [List.all_eq_true, Bool.not_eq_true']

/-! ### What is admitted -/

/-- Only an exclusive write can be refused, and only for want of a reservation. -/
theorem permits_eq_false_iff {m : Monitor} {access : Access} :
    m.permits access = false ↔
      (access.exclusive = true ∧ access.command = .write) ∧
        m.holds access.owner access.range = false := by
  simp [permits]

theorem admits_access (m : Monitor) (access : Access) :
    m.admits (.access access) = m.permits access := by
  cases permitted : m.permits access with
  | true =>
      rw [admits, Option.isSome_iff_ne_none, Ne, apply_eq_none_iff, permitted]
      exact Bool.noConfusion
  | false => rw [admits, apply_eq_none_iff.2 permitted, Option.isSome_none]

/-- **What is refused changes nothing.** -/
theorem perform_eq_self {m : Monitor} {operation : Operation}
    (refused : m.admits operation = false) : m.perform operation = m := by
  cases operation with
  | access access =>
      rw [admits_access, ← apply_eq_none_iff] at refused
      rw [perform, refused, Option.getD_none]
  | reserve owner range => cases refused
  | breakRange range => cases refused
  | breakOwner owner => cases refused
  | clear => cases refused

/-! ### Steps and runs -/

/-- A write that goes ahead drops what it overlaps, an exclusive read adds a reservation, and no
other access that goes ahead changes anything. -/
theorem reservations_perform_access {m : Monitor} {access : Access}
    (permitted : m.permits access = true) :
    (m.perform (.access access)).reservations =
      match access.command with
      | .read =>
        m.reservations ++ if access.exclusive then [⟨access.owner, access.range⟩] else []
      | .write => m.reservations.filter fun r => !r.range.overlaps access.range
      | .ignore => m.reservations := by
  obtain ⟨range, command, owner, exclusive⟩ := access
  rw [perform, apply, if_pos permitted]
  cases command with
  | read => cases exclusive <;> simp
  | write => rfl
  | ignore => rfl

/-- **A step keeps what it does not end, and adds what it makes.** -/
theorem reservations_perform (m : Monitor) (operation : Operation) :
    (m.perform operation).reservations =
      (m.reservations.filter fun r => !(Step.mk operation (m.admits operation)).ends r) ++
        (Step.mk operation (m.admits operation)).made.toList := by
  cases operation with
  | access access =>
      rw [admits_access]
      cases permitted : m.permits access with
      | true =>
          rw [reservations_perform_access permitted]
          obtain ⟨range, command, owner, exclusive⟩ := access
          cases command with
          | read => cases exclusive <;> simp [Step.ends, Step.made]
          | write => simp [Step.ends, Step.made]
          | ignore => simp [Step.ends, Step.made]
      | false =>
          rw [perform_eq_self ((m.admits_access access).trans permitted)]
          obtain ⟨⟨-, write⟩, -⟩ := permits_eq_false_iff.1 permitted
          simp [Step.ends, Step.made, write]
  | reserve owner range => simp [perform, Step.ends, Step.made]
  | breakRange range => simp [perform, breakRange, Step.ends, Step.made]
  | breakOwner owner => simp [perform, breakOwner, Step.ends, Step.made, bne]
  | clear => simp [perform, empty, Step.ends, Step.made]

/-- **What stands after some operations:** what stood before and none of them has ended, followed by
what they have made and left. -/
theorem reservations_run (m : Monitor) (operations : List Operation) :
    (m.run operations).reservations =
      (m.reservations.filter fun r => (m.history operations).all fun t => !t.ends r) ++
        standing (m.history operations) := by
  induction operations generalizing m with
  | nil => simp [run, history, standing]
  | cons operation rest ih =>
      have step := ih (m.perform operation)
      rw [run] at step
      rw [run, List.foldl_cons, step, reservations_perform, history, standing,
        List.filter_append, List.filter_filter, List.append_assoc]
      congr 1
      · simp only [List.all_cons, Bool.and_comm]
      · rw [Option.toList_filter]

/-- **A new monitor holds what its history says.**  The reservations that stand are, in the order in
which they were made, those that no later step has ended.  So an exclusive write goes ahead exactly
when a reservation of its owner that survives overlaps it, a refused one changes nothing, and every
other access goes ahead. -/
theorem run_eq_history (operations : List Operation) :
    (empty.run operations).reservations = standing (empty.history operations) ∧
      (∀ access : Access, access.exclusive = true → access.command = .write →
        ((empty.run operations).admits (.access access) = true ↔
          ∃ r, Survives (empty.history operations) r ∧ r.owner = access.owner ∧
            r.range.overlaps access.range = true)) ∧
      (∀ access : Access, (empty.run operations).admits (.access access) = false →
        (empty.run operations).perform (.access access) = empty.run operations) ∧
      ∀ access : Access, ¬(access.exclusive = true ∧ access.command = .write) →
        (empty.run operations).admits (.access access) = true := by
  have same : (empty.run operations).reservations = standing (empty.history operations) := by
    rw [reservations_run, empty, List.filter_nil, List.nil_append]
  refine ⟨same, fun access exclusive write => ?_, fun access => perform_eq_self,
    fun access other => ?_⟩
  · have needed : (empty.run operations).admits (.access access) =
        (empty.run operations).holds access.owner access.range := by
      rw [admits_access, permits]
      simp [exclusive, write]
    rw [needed, holds_eq_true_iff, same]
    simp only [mem_standing_iff]
  · rw [admits_access, ← Bool.not_eq_false, permits_eq_false_iff]
    exact fun refused => other refused.1

/-- Of two reservations that overlap, an exclusive write ends the one that it overlaps; when it is
tried again it is refused, and the other reservation survives both. -/
theorem exists_survives_second_write :
    ∃ operations r, Survives (empty.history operations) r ∧
      (empty.run operations).admits (.access ⟨⟨8, 9, by decide⟩, .write, 2, true⟩) = false ∧
      (empty.run operations).admits (.access ⟨⟨5, 9, by decide⟩, .write, 1, true⟩) = true := by
  let operations : List Operation := [
    .access ⟨⟨0, 7, by decide⟩, .read, 1, true⟩,
    .reserve 2 ⟨4, 11, by decide⟩,
    .access ⟨⟨8, 9, by decide⟩, .write, 2, true⟩,
    .access ⟨⟨8, 9, by decide⟩, .write, 2, true⟩]
  obtain ⟨same, admitted, -, -⟩ := run_eq_history operations
  have survives : Survives (empty.history operations) ⟨1, ⟨0, 7, by decide⟩⟩ := by
    rw [← mem_standing_iff, ← same]
    exact .head _
  exact ⟨operations, _, survives, rfl,
    (admitted ⟨⟨5, 9, by decide⟩, .write, 1, true⟩ rfl rfl).2 ⟨_, survives, rfl, by decide⟩⟩

end Monitor

end Interconnect
