import Interconnect.Proofs.Pci.History

/-!
# The interrupt lines of a PCI host

A host remembers which function drives which line, and not through which pin.  As the pins of one
function drive four different lines, nothing is lost by that: a line is high exactly if some pin
that is routed to it was driven high last, and its device has not been detached since.

## Main Definitions

* `Step.Raises`, `Step.Drives`, `Step.Detaches` — what a step does to a pin

## Main Statements

* `Pin.swizzle_inj`, `Pin.exists_swizzle_eq` — every line is driven by one pin of each slot
* `Host.mem_asserted_next_iff`, `Host.mem_asserted_follow_iff` — the pins that are high after a step
  and a run
* `Host.line_follow_iff` — the lines that are high
-/

namespace Interconnect.Pci

/-! ### Routing -/

namespace Pin

theorem index_lt (p : Pin) : p.index < 4 := by cases p <;> decide

theorem index_ofIndex (n : Nat) : (ofIndex n).index = n % 4 := by
  have places : n % 4 = 0 ∨ n % 4 = 1 ∨ n % 4 = 2 ∨ n % 4 = 3 := by omega
  rcases places with place | place | place | place <;> simp [ofIndex, place, index]

theorem index_inj {p q : Pin} : p.index = q.index ↔ p = q := by
  constructor
  · intro same
    rw [← ofIndex_index p, same, ofIndex_index]
  · exact congrArg index

theorem index_swizzle (p : Pin) (slot : Nat) : (p.swizzle slot).index = (p.index + slot) % 4 :=
  index_ofIndex _

/-- **Two pins of a slot drive two lines.** -/
theorem swizzle_inj {p q : Pin} {slot : Nat} : p.swizzle slot = q.swizzle slot ↔ p = q := by
  have left := p.index_lt
  have right := q.index_lt
  rw [← index_inj, index_swizzle, index_swizzle, ← index_inj]
  omega

/-- **Every line is driven by a pin of the slot.** -/
theorem exists_swizzle_eq (line : Pin) (slot : Nat) : ∃ p : Pin, p.swizzle slot = line := by
  have small := line.index_lt
  refine ⟨ofIndex (line.index + (4 - slot % 4)), ?_⟩
  rw [← index_inj, index_swizzle, index_ofIndex]
  omega

end Pin

/-! ### What a step does to a pin -/

namespace Step

variable (s : Step) (devfn : UInt8) (pin : Pin)

/-- The pin of the function is driven high. -/
def Raises : Prop := s.event = .interrupt devfn pin true

/-- The pin of the function is driven, high or low. -/
def Drives : Prop := ∃ level, s.event = .interrupt devfn pin level

/-- The device of the function is detached. -/
def Detaches : Prop := s.event = .operation (.detach devfn) ∧ s.succeeded = true

end Step

namespace Host

/-! ### Steps and runs -/

/-- Driving one pin leaves all others as they are. -/
theorem mem_asserted_interrupt_iff {h : Host} {devfn other : UInt8} {pin driven : Pin}
    {level : Bool} :
    (pin.swizzle (devfn.toNat / 8), devfn) ∈ (h.interrupt other driven level).2.asserted ↔
      (other = devfn ∧ driven = pin ∧ level = true) ∨
        (pin.swizzle (devfn.toNat / 8), devfn) ∈ h.asserted ∧ ¬(other = devfn ∧ driven = pin) := by
  have same : (pin.swizzle (devfn.toNat / 8), devfn) = (driven.swizzle (other.toNat / 8), other) ↔
      other = devfn ∧ driven = pin := by
    rw [Prod.mk.injEq]
    constructor
    · rintro ⟨line, rfl⟩
      exact ⟨rfl, (Pin.swizzle_inj.1 line).symm⟩
    · rintro ⟨rfl, rfl⟩
      exact ⟨rfl, rfl⟩
  cases level with
  | true => simp [interrupt, List.mem_append, List.mem_filter, same, or_comm]
  | false => simp [interrupt, List.mem_filter, same]

/-- Operations leave all pins as they are, but for those of a device that is detached. -/
theorem mem_asserted_update_iff (h : Host) (operation : Operation) (driven : Pin × UInt8) :
    driven ∈ (h.update operation).asserted ↔ driven ∈ h.asserted ∧
      ¬(operation = .detach driven.2 ∧ (h.attempt operation).1.isOk = true) := by
  cases attempted : h.attempt operation with
  | mk outcome left =>
      obtain ⟨ended, after⟩ := left
      cases outcome with
      | error fault =>
          rw [update_of_error attempted]
          simp [Except.isOk, Except.toBool]
      | ok done =>
          rw [update, attempted]
          cases operation with
          | attach devfn device =>
              obtain ⟨-, -, rfl⟩ := attach_eq_ok_iff.1 attempted
              simp
          | detach devfn =>
              obtain ⟨-, -, -, pins⟩ := of_detach_eq_ok attempted
              rw [pins, List.mem_filter]
              simp [Except.isOk, Except.toBool, eq_comm (a := devfn)]
          | mapBar devfn bar =>
              obtain ⟨range, -, -, -, rfl⟩ := mapBar_eq_ok_iff.1 attempted
              cases bar.io <;> simp [add, unmapBar, unmapWhere]
          | unmapBar devfn number =>
              cases attempted
              simp

/-- **A pin is high after a step that drives it high,** and stays so unless it is driven again or
its device is detached. -/
theorem mem_asserted_next_iff (h : Host) (event : Event) (devfn : UInt8) (pin : Pin) :
    (pin.swizzle (devfn.toNat / 8), devfn) ∈ (h.next event).asserted ↔
      (Step.mk event (h.attemptEvent event).1.isOk).Raises devfn pin ∨
        (pin.swizzle (devfn.toNat / 8), devfn) ∈ h.asserted ∧
          ¬ (Step.mk event (h.attemptEvent event).1.isOk).Drives devfn pin ∧
          ¬ (Step.mk event (h.attemptEvent event).1.isOk).Detaches devfn := by
  cases event with
  | operation operation =>
      refine (mem_asserted_update_iff h operation _).trans ?_
      simp [Step.Raises, Step.Drives, Step.Detaches, attemptEvent]
  | interrupt other driven level =>
      refine mem_asserted_interrupt_iff.trans ?_
      simp [Step.Raises, Step.Drives, Step.Detaches]

/-- **The pins that are high after some events:** those that were driven high last and whose devices
have not been detached since. -/
theorem mem_asserted_follow_iff (h : Host) (events : List Event) (devfn : UInt8) (pin : Pin) :
    (pin.swizzle (devfn.toNat / 8), devfn) ∈ (h.follow events).asserted ↔
      Since (fun s => s.Raises devfn pin)
          (fun t => ¬ t.Drives devfn pin ∧ ¬ t.Detaches devfn) (h.history events) ∨
        (pin.swizzle (devfn.toNat / 8), devfn) ∈ h.asserted ∧
          ∀ t ∈ h.history events, ¬ t.Drives devfn pin ∧ ¬ t.Detaches devfn := by
  induction events generalizing h with
  | nil => simp [follow, history, not_since_nil]
  | cons event rest ih =>
      have step := ih (h.next event)
      rw [follow] at step
      rw [follow, List.foldl_cons, step, mem_asserted_next_iff, history, since_cons_iff,
        List.forall_mem_cons]
      tauto

/-- **A line is high exactly if, for some function and some pin that is routed to the line, the pin
was driven high when it was driven last, and the device has not been detached since.** -/
theorem line_follow_iff (config : HostConfig) (handles : List HandleId) (events : List Event)
    (line : Pin) :
    ((vacant config handles).follow events).line line = true ↔
      ∃ devfn pin, Pin.swizzle pin (devfn.toNat / 8) = line ∧
        Since (fun s => s.Raises devfn pin)
          (fun t => ¬ t.Drives devfn pin ∧ ¬ t.Detaches devfn)
          ((vacant config handles).history events) := by
  have driven : ∀ devfn pin,
      (Pin.swizzle pin (devfn.toNat / 8), devfn) ∈
          ((vacant config handles).follow events).asserted ↔
        Since (fun s => s.Raises devfn pin)
          (fun t => ¬ t.Drives devfn pin ∧ ¬ t.Detaches devfn)
          ((vacant config handles).history events) := by
    intro devfn pin
    rw [mem_asserted_follow_iff]
    exact or_iff_left fun before => List.not_mem_nil before.1
  rw [Host.line, List.any_eq_true]
  simp only [decide_eq_true_eq]
  constructor
  · rintro ⟨⟨line, devfn⟩, asserted, rfl⟩
    obtain ⟨pin, rfl⟩ := Pin.exists_swizzle_eq line (devfn.toNat / 8)
    exact ⟨devfn, pin, rfl, (driven devfn pin).1 asserted⟩
  · rintro ⟨devfn, pin, rfl, since⟩
    exact ⟨_, (driven devfn pin).2 since, rfl⟩

end Host

end Interconnect.Pci
