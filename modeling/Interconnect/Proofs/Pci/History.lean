import Interconnect.Proofs.Pci.Registers

/-!
# The history of a PCI host

A host is used by attaching and detaching devices, by mapping and unmapping their registers, and by
driving their interrupt pins.  Which registers it lists is told by what was done and what of it
succeeded: each register stands where it was mapped last, unless it was unmapped or its device was
detached since.

## Main Definitions

* `Since` — something has happened, and nothing has undone it since
* `Host.Event`, `Host.next`, `Host.follow` — everything that is done to a host, also in vain
* `Step`, `Host.history` — what was done, and whether it succeeded
* `Entry`, `Host.entries` — what a host lists of a register that is mapped
* `standing` — the entries of a history that no later step has ended
* `Host.Refuses` — why an operation fails

## Main Statements

* `Host.attempt_eq_error_iff` — when an operation fails, and with which fault
* `Host.attemptEvent_of_error` — an event that fails leaves the host as it was
* `Host.listed_next`, `Host.listed_follow` — what a step and a run do to the list
* `Host.entries_follow` — what a new host lists after some events
-/

namespace Interconnect

universe u

/-! ### Past events -/

/-- **Some step is such that `p`, and all later ones such that `q`.** -/
def Since {α : Type u} (p q : α → Prop) (steps : List α) : Prop :=
  ∃ before s later, steps = before ++ s :: later ∧ p s ∧ ∀ t ∈ later, q t

theorem not_since_nil {α : Type u} (p q : α → Prop) : ¬ Since p q [] := by
  rintro ⟨before, s, later, split, -⟩
  simp at split

theorem since_cons_iff {α : Type u} {p q : α → Prop} {s : α} {later : List α} :
    Since p q (s :: later) ↔ (p s ∧ ∀ t ∈ later, q t) ∨ Since p q later := by
  constructor
  · rintro ⟨before, t, rest, split, happened, kept⟩
    cases before with
    | nil =>
        cases split
        exact .inl ⟨happened, kept⟩
    | cons first before =>
        cases split
        exact .inr ⟨before, t, rest, rfl, happened, kept⟩
  · rintro (⟨happened, kept⟩ | ⟨before, t, rest, rfl, happened, kept⟩)
    · exact ⟨[], s, later, rfl, happened, kept⟩
    · exact ⟨s :: before, t, rest, rfl, happened, kept⟩

namespace Pci

namespace Host

/-! ### Events -/

/-- Everything that is done to a host. -/
inductive Event where
  /-- Its devices or their registers change. -/
  | operation (operation : Operation)
  /-- A device drives one of its pins. -/
  | interrupt (devfn : UInt8) (pin : Pin) (level : Bool)

/-- **An event:** how it ends, the memory ranges that are no longer decoded, and the host that is
left. -/
def attemptEvent (h : Host) : Event → Except Fault Unit × List AddressRange × Host
  | .operation operation => h.attempt operation
  | .interrupt devfn pin level => (.ok (), [], (h.interrupt devfn pin level).2)

/-- The host after an event, also in vain. -/
def next (h : Host) (event : Event) : Host := (h.attemptEvent event).2.2

/-- A host without devices, which withdraws windows through some handles. -/
def vacant (config : HostConfig) (handles : List HandleId) : Host :=
  { ofConfig config with handles := handles }

/-- The host after some events. -/
def follow (h : Host) (events : List Event) : Host := events.foldl next h

end Host

/-- An event and whether it succeeded. -/
structure Step where
  /-- The event. -/
  event : Host.Event
  /-- Whether it succeeded. -/
  succeeded : Bool

/-- What is done to a host step by step, and whether it succeeds. -/
def Host.history (h : Host) : List Host.Event → List Step
  | [] => []
  | event :: rest => ⟨event, (h.attemptEvent event).1.isOk⟩ :: history (h.next event) rest

/-! ### What fails -/

namespace Host

/-- **Why an operation on a host fails.**  A register is looked at before its device: first its
number, then its size, and then whether its addresses exist. -/
inductive Refuses (h : Host) : Operation → Fault → Prop
  /-- There is a device at the function already. -/
  | taken {devfn : UInt8} {device : Attachment} (attached : h.hasDevice devfn = true) :
      Refuses h (.attach devfn device) (.deviceExists devfn)
  /-- There is no device to detach. -/
  | free {devfn : UInt8} (absent : h.hasDevice devfn = false) :
      Refuses h (.detach devfn) (.noDevice devfn)
  /-- No device can have the register. -/
  | number {devfn : UInt8} {bar : Bar} (beyond : barCount ≤ bar.number.toNat) :
      Refuses h (.mapBar devfn bar) (.invalidBar bar.number)
  /-- The register decodes no address. -/
  | hollow {devfn : UInt8} {bar : Bar} (number : bar.number.toNat < barCount)
      (nothing : bar.size = 0) : Refuses h (.mapBar devfn bar) (.emptyBar bar.number)
  /-- The addresses of the register run past the end of the address space. -/
  | overflow {devfn : UInt8} {bar : Bar} (number : bar.number.toNat < barCount)
      (holds : bar.size ≠ 0) (beyond : UInt64.size < bar.address.toNat + bar.size.toNat) :
      Refuses h (.mapBar devfn bar)
        (.range (.overflow bar.address bar.address (bar.size.toNat - 1)))
  /-- The register could be mapped, but there is no device at the function. -/
  | absent {devfn : UInt8} {bar : Bar} (number : bar.number.toNat < barCount)
      (holds : bar.size ≠ 0) (fits : bar.address.toNat + bar.size.toNat ≤ UInt64.size)
      (absent : h.hasDevice devfn = false) : Refuses h (.mapBar devfn bar) (.noDevice devfn)

end Host

/-- A register decodes no range because of its number, or else its size, or else its addresses. -/
theorem Bar.range_eq_error_iff {b : Bar} {fault : Fault} :
    b.range = .error fault ↔
      barCount ≤ b.number.toNat ∧ fault = .invalidBar b.number ∨
      b.number.toNat < barCount ∧ b.size = 0 ∧ fault = .emptyBar b.number ∨
      b.number.toNat < barCount ∧ b.size ≠ 0 ∧ UInt64.size < b.address.toNat + b.size.toNat ∧
        fault = .range (.overflow b.address b.address (b.size.toNat - 1)) := by
  unfold Bar.range validate
  split
  · next beyond =>
      simp only [bind, Except.bind, Except.error.injEq, ge_iff_le.1 beyond, Nat.not_lt.2 beyond,
        true_and, false_and, or_false]
      exact eq_comm
  · next number =>
      rw [ge_iff_le, Nat.not_le] at number
      split
      · next nothing =>
          simp only [bind, Except.bind, Except.error.injEq, Nat.not_le.2 number, number, nothing,
            ne_eq, not_true_eq_false, true_and, false_and, false_or, or_false]
          exact eq_comm
      · next holds =>
          have positive : b.size.toNat ≠ 0 := fun zero => holds (UInt64.toNat_inj.1 zero)
          have above : UInt64.size ≤ b.address.toNat + (b.size.toNat - 1) ↔
              UInt64.size < b.address.toNat + b.size.toNat := by omega
          simp only [bind, Except.bind, Nat.not_le.2 number, number, holds, ne_eq,
            not_false_eq_true, true_and, false_and, false_or, ← above]
          cases made : AddressRange.ofSize b.address b.size.toNat with
          | ok range =>
              have fits := ((AddressRange.ofSize_eq_ok_iff positive).1 made).1
              simp only [Except.mapError, reduceCtorEq, Nat.not_le.2 fits, false_and]
          | error e =>
              obtain ⟨beyond, rfl⟩ := (AddressRange.ofSize_eq_error_iff positive).1 made
              simp only [Except.mapError, Except.error.injEq, beyond, true_and]
              exact eq_comm

/-- A register decodes a range exactly if none of the three is wrong. -/
theorem Bar.exists_range_iff {b : Bar} :
    (∃ range, b.range = .ok range) ↔
      b.number.toNat < barCount ∧ b.size ≠ 0 ∧
        b.address.toNat + b.size.toNat ≤ UInt64.size := by
  cases decoded : b.range with
  | ok range =>
      obtain ⟨⟨number, holds⟩, made⟩ := range_eq_ok_iff.1 decoded
      have positive : b.size.toNat ≠ 0 := fun zero => holds (UInt64.toNat_inj.1 zero)
      have fits := ((AddressRange.ofSize_eq_ok_iff positive).1 made).1
      exact iff_of_true ⟨range, rfl⟩ ⟨number, holds, by omega⟩
  | error fault =>
      refine iff_of_false (fun ⟨_, made⟩ => by cases made) ?_
      rintro ⟨number, holds, fits⟩
      rcases range_eq_error_iff.1 decoded with ⟨beyond, -⟩ | ⟨-, nothing, -⟩ | ⟨-, -, beyond, -⟩
      · omega
      · exact holds nothing
      · omega

namespace Host

theorem attach_eq_error_iff {h : Host} {devfn : UInt8} {device : Attachment} {fault : Fault} :
    (h.attach devfn device).1 = .error fault ↔
      h.hasDevice devfn = true ∧ fault = .deviceExists devfn := by
  unfold attach
  split
  · next taken => simp [taken, eq_comm]
  · next free => simp [free]

/-- Mapping a register fails for want of a range, or else of a device. -/
theorem mapBar_eq_error_iff {h : Host} {devfn : UInt8} {bar : Bar} {fault : Fault} :
    (h.mapBar devfn bar).1 = .error fault ↔
      bar.range = .error fault ∨
        (∃ range, bar.range = .ok range) ∧ h.hasDevice devfn = false ∧ fault = .noDevice devfn := by
  unfold mapBar
  cases bar.range with
  | error e => simp
  | ok range =>
      cases h.hasDevice devfn with
      | false => simp [eq_comm]
      | true => simp

/-- **When an operation fails, and with which fault.** -/
theorem attempt_eq_error_iff {h : Host} {operation : Operation} {fault : Fault} :
    (h.attempt operation).1 = .error fault ↔ h.Refuses operation fault := by
  cases operation with
  | attach devfn device =>
      rw [attempt, attach_eq_error_iff]
      constructor
      · rintro ⟨attached, rfl⟩
        exact .taken attached
      · intro refused
        cases refused with
        | taken attached => exact ⟨attached, rfl⟩
  | detach devfn =>
      rw [attempt, detach_eq_error_iff]
      constructor
      · rintro ⟨absent, rfl⟩
        exact .free absent
      · intro refused
        cases refused with
        | free absent => exact ⟨absent, rfl⟩
  | mapBar devfn bar =>
      rw [attempt, mapBar_eq_error_iff, Bar.range_eq_error_iff, Bar.exists_range_iff]
      constructor
      · rintro ((⟨beyond, rfl⟩ | ⟨number, nothing, rfl⟩ | ⟨number, holds, beyond, rfl⟩) |
          ⟨⟨number, holds, fits⟩, absent, rfl⟩)
        · exact .number beyond
        · exact .hollow number nothing
        · exact .overflow number holds beyond
        · exact .absent number holds fits absent
      · intro refused
        cases refused with
        | number beyond => exact .inl (.inl ⟨beyond, rfl⟩)
        | hollow number nothing => exact .inl (.inr (.inl ⟨number, nothing, rfl⟩))
        | overflow number holds beyond => exact .inl (.inr (.inr ⟨number, holds, beyond, rfl⟩))
        | absent number holds fits absent => exact .inr ⟨⟨number, holds, fits⟩, absent, rfl⟩
  | unmapBar devfn number =>
      simp only [attempt, reduceCtorEq, false_iff]
      intro refused
      cases refused

end Host

/-! ### What is listed -/

/-- What a host lists of a register that is mapped. -/
structure Entry where
  /-- The function of the device. -/
  devfn : UInt8
  /-- The number of the register. -/
  bar : UInt8
  /-- The space whose addresses it decodes. -/
  space : Space
  /-- The lowest of them. -/
  start : Nat
  /-- The highest of them. -/
  last : Nat
deriving DecidableEq

/-- The register of an entry. -/
def Entry.register (e : Entry) : UInt8 × UInt8 := (e.devfn, e.bar)

/-- The entry of a mapping. -/
def BarMapping.entry (m : BarMapping) (space : Space) : Entry :=
  ⟨m.devfn, m.bar, space, m.range.start.toNat, m.range.last.toNat⟩

/-- The entry that a register of a function asks for. -/
def Bar.entry (b : Bar) (devfn : UInt8) : Entry :=
  ⟨devfn, b.number, b.space, b.address.toNat, b.address.toNat + b.size.toNat - 1⟩

/-- A register that decodes a range is listed as it asks for. -/
theorem entry_of_range {b : Bar} {range : AddressRange} (h : b.range = .ok range)
    (devfn : UInt8) :
    (BarMapping.mk devfn b.number range b.size).entry b.space = b.entry devfn := by
  obtain ⟨⟨-, holds⟩, made⟩ := Bar.range_eq_ok_iff.1 h
  have positive : b.size.toNat ≠ 0 := fun zero => holds (UInt64.toNat_inj.1 zero)
  obtain ⟨-, start, last⟩ := (AddressRange.ofSize_eq_ok_iff positive).1 made
  rw [BarMapping.entry, Bar.entry, start, last, Nat.add_sub_assoc (Nat.pos_of_ne_zero positive)]

namespace Host

/-- The entries of a host, in the order in which accesses are decoded. -/
def entries (h : Host) : List Entry := h.barMappings.map fun e => e.1.entry e.2

/-- The entries of one space. -/
def listed (h : Host) (space : Space) : List Entry := h.entries.filter fun e => e.space = space

theorem entries_eq (h : Host) :
    h.entries = (h.mmio.map fun m => m.entry .mmio) ++ h.io.map fun m => m.entry .io := by
  rw [entries, barMappings, List.map_append, List.map_map, List.map_map]
  rfl

/-- The entries of a space come from the mappings for it. -/
theorem listed_eq (h : Host) (space : Space) :
    h.listed space = (if space = .mmio then h.mmio.map fun m => m.entry .mmio else []) ++
      if space = .io then h.io.map fun m => m.entry .io else [] := by
  have part : ∀ (mappings : List BarMapping) (own : Space),
      (mappings.map fun m => m.entry own).filter (fun e => e.space = space) =
        if space = own then mappings.map fun m => m.entry own else [] := by
    intro mappings own
    split
    · next same => simp [BarMapping.entry, same]
    · next other => simp [BarMapping.entry, Ne.symm other]
  rw [listed, entries_eq, List.filter_append, part, part]

/-- Memory comes first. -/
theorem entries_eq_listed (h : Host) : h.entries = h.listed .mmio ++ h.listed .io := by
  rw [listed_eq, listed_eq, entries_eq]
  simp

theorem registers_entries (h : Host) :
    h.entries.map Entry.register = h.mappings.map BarMapping.register := by
  rw [entries_eq, mappings, List.map_append, List.map_append, List.map_map, List.map_map]
  rfl

/-- What is unmapped is listed no more. -/
theorem listed_unmapWhere (h : Host) (ends : BarMapping → Bool) (gone : Entry → Bool)
    (same : ∀ m space, gone (m.entry space) = ends m) (space : Space) :
    (h.unmapWhere ends).2.listed space = (h.listed space).filter fun e => !gone e := by
  have fewer : (h.unmapWhere ends).2.entries = h.entries.filter fun e => !gone e := by
    rw [entries_eq, entries_eq, unmapWhere, List.filter_append, List.filter_map, List.filter_map]
    simp only [Function.comp_def, same]
  rw [listed, fewer, listed, List.filter_filter, List.filter_filter]
  simp only [Bool.and_comm]

theorem listed_unmapBar (h : Host) (devfn number : UInt8) (space : Space) :
    (h.unmapBar devfn number).2.listed space =
      (h.listed space).filter fun e => !decide (e.register = (devfn, number)) := by
  refine h.listed_unmapWhere _ (fun e => e.register = (devfn, number)) (fun m _ => ?_) space
  rw [Bool.eq_iff_iff, decide_eq_true_iff, BarMapping.isOf_iff]
  rfl

/-- What is mapped is listed last in its space. -/
theorem listed_add (h : Host) (bar : Bar) (mapping : BarMapping) (space : Space) :
    (h.add bar.io mapping).listed space = h.listed space ++
      ((some (mapping.entry bar.space)).filter fun e => e.space = space).toList := by
  have own : (mapping.entry bar.space).space = bar.space := rfl
  rw [listed_eq, listed_eq, Option.filter_some, own, Bar.space]
  cases bar.io with
  | false => cases space <;> simp [add]
  | true => cases space <;> simp [add]

end Host

/-! ### What stands -/

namespace Step

/-- The entry that a step makes, if it makes one. -/
def made (s : Step) : Option Entry :=
  match s.event with
  | .operation (.mapBar devfn bar) => if s.succeeded then some (bar.entry devfn) else none
  | _ => none

/-- Whether a step ends what stood for a register: it is mapped anew or unmapped, or its device is
detached. -/
def ends (s : Step) (register : UInt8 × UInt8) : Bool :=
  match s.event with
  | .operation (.detach devfn) => s.succeeded && register.1 = devfn
  | .operation (.mapBar devfn bar) => s.succeeded && register = (devfn, bar.number)
  | .operation (.unmapBar devfn number) => register = (devfn, number)
  | .operation (.attach _ _) => false
  | .interrupt _ _ _ => false

end Step

/-- **The entries of a history that no later step has ended,** in the order in which they were
made. -/
def standing : List Step → List Entry
  | [] => []
  | s :: later =>
    (s.made.filter fun e => later.all fun t => !t.ends e.register).toList ++ standing later

theorem mem_standing_iff {steps : List Step} {e : Entry} :
    e ∈ standing steps ↔
      Since (fun s => s.made = some e) (fun t => t.ends e.register = false) steps := by
  induction steps with
  | nil => simp [standing, not_since_nil]
  | cons s later ih =>
      rw [since_cons_iff, ← ih, standing, List.mem_append, Option.mem_toList,
        Option.filter_eq_some_iff]
      simp only [List.all_eq_true, Bool.not_eq_true']

namespace Host

/-- **An event that fails ends nothing and leaves the host as it was.** -/
theorem attemptEvent_of_error {h : Host} {event : Event} {fault : Fault}
    (failed : (h.attemptEvent event).1 = .error fault) : (h.attemptEvent event).2 = ([], h) := by
  cases event with
  | operation operation => exact attempt_of_error failed
  | interrupt devfn pin level => cases failed

theorem next_of_error {h : Host} {event : Event} {fault : Fault}
    {left : List AddressRange × Host} (attempted : h.attemptEvent event = (.error fault, left)) :
    h.next event = h := by
  rw [next, attemptEvent_of_error (congrArg Prod.fst attempted)]

/-- A host keeps its handles. -/
theorem handles_next (h : Host) (event : Event) : (h.next event).handles = h.handles := by
  cases event with
  | operation operation => exact handles_update h operation
  | interrupt devfn pin level => rfl

theorem registered_vacant (config : HostConfig) (handles : List HandleId) :
    (vacant config handles).Registered :=
  (Registered.ofConfig config).of_sublist (List.Sublist.refl _) fun _ _ attached => attached

theorem Registered.next {h : Host} (registered : h.Registered) (event : Event) :
    (h.next event).Registered := by
  cases event with
  | operation operation => exact registered.update operation
  | interrupt devfn pin level =>
      exact registered.of_sublist (List.Sublist.refl _) fun _ _ attached => attached

/-- Events leave a registered host registered. -/
theorem Registered.follow {h : Host} (registered : h.Registered) (events : List Event) :
    (h.follow events).Registered := by
  induction events generalizing h with
  | nil => exact registered
  | cons event rest ih => exact ih (registered.next event)

/-- What an event that succeeds does to the list. -/
theorem listed_of_attemptEvent_eq_ok {h after : Host} (registered : h.Registered) {event : Event}
    {ended : List AddressRange} (succeeds : h.attemptEvent event = (.ok (), ended, after))
    (space : Space) :
    after.listed space =
      ((h.listed space).filter fun e => !(Step.mk event true).ends e.register) ++
        ((Step.mk event true).made.filter fun e => e.space = space).toList := by
  cases event with
  | operation operation =>
      cases operation with
      | attach devfn device =>
          obtain ⟨-, -, rfl⟩ := attach_eq_ok_iff.1 succeeds
          simp [Step.ends, Step.made, listed, entries, barMappings]
      | detach devfn =>
          obtain ⟨-, rfl⟩ := detach_eq registered.numbered succeeds
          have gone := h.listed_unmapWhere (fun m => m.devfn = devfn)
            (fun e => e.register.1 = devfn) (fun _ _ => rfl) space
          simp only [Step.ends, Step.made, Bool.true_and, Option.filter_none, Option.toList_none,
            List.append_nil]
          exact gone
      | mapBar devfn bar =>
          obtain ⟨range, decoded, -, -, rfl⟩ := mapBar_eq_ok_iff.1 succeeds
          rw [listed_add, entry_of_range decoded, listed_unmapBar]
          rfl
      | unmapBar devfn number =>
          have left : (h.unmapBar devfn number).2 = after := congrArg (fun r => r.2.2) succeeds
          rw [← left, listed_unmapBar]
          exact (List.append_nil _).symm
  | interrupt devfn pin level =>
      cases succeeds
      simp [Step.ends, Step.made, listed, entries, barMappings, interrupt]

/-- **A step keeps what it does not end, and adds what it makes.** -/
theorem listed_next {h : Host} (registered : h.Registered) (event : Event) (space : Space) :
    (h.next event).listed space =
      ((h.listed space).filter fun e =>
          !(Step.mk event (h.attemptEvent event).1.isOk).ends e.register) ++
        ((Step.mk event (h.attemptEvent event).1.isOk).made.filter fun e =>
          e.space = space).toList := by
  cases attempted : h.attemptEvent event with
  | mk outcome left =>
      cases outcome with
      | ok done =>
          rw [next, attempted]
          exact listed_of_attemptEvent_eq_ok registered attempted space
      | error fault =>
          rw [next_of_error attempted]
          -- what fails neither ends nor makes anything, and unmapping does not fail
          cases event with
          | operation operation =>
              cases operation with
              | unmapBar devfn number => cases attempted
              | _ => simp [Step.ends, Step.made, Except.isOk, Except.toBool]
          | interrupt devfn pin level => cases attempted

/-- **What is listed after some events:** what was listed before and none of them has ended,
followed by what they have made and left. -/
theorem listed_follow {h : Host} (registered : h.Registered) (events : List Event)
    (space : Space) :
    (h.follow events).listed space =
      ((h.listed space).filter fun e => (h.history events).all fun t => !t.ends e.register) ++
        (standing (h.history events)).filter fun e => e.space = space := by
  induction events generalizing h with
  | nil => simp [follow, history, standing]
  | cons event rest ih =>
      have step := ih (registered.next event)
      rw [follow] at step
      rw [follow, List.foldl_cons, step, listed_next registered, history, standing,
        List.filter_append, List.filter_append, List.filter_filter, List.append_assoc]
      congr 1
      · simp only [List.all_cons, Bool.and_comm]
      · congr 1
        rw [Option.toList_filter, Option.toList_filter, List.filter_filter, List.filter_filter]
        simp only [Bool.and_comm]

/-- **A new host lists what stands,** that for memory first. -/
theorem entries_follow (config : HostConfig) (handles : List HandleId) (events : List Event) :
    ((vacant config handles).follow events).entries =
      ((standing ((vacant config handles).history events)).filter fun e => e.space = .mmio) ++
        (standing ((vacant config handles).history events)).filter fun e => e.space = .io := by
  have nothing : ∀ space, (vacant config handles).listed space = [] := fun _ => rfl
  have registered := registered_vacant config handles
  rw [entries_eq_listed, listed_follow registered, listed_follow registered, nothing, nothing,
    List.filter_nil, List.nil_append, List.nil_append]

/-- Whatever is made is for memory or for I/O addresses. -/
theorem space_of_made {s : Step} {e : Entry} (made : s.made = some e) :
    e.space = .mmio ∨ e.space = .io := by
  unfold Step.made at made
  split at made
  · next devfn bar _ =>
      split at made
      · cases made
        show bar.space = .mmio ∨ bar.space = .io
        unfold Bar.space
        cases bar.io with
        | false => exact .inl rfl
        | true => exact .inr rfl
      · cases made
  · cases made

/-- **An entry is listed if some step has made it and no later one has ended it.** -/
theorem mem_entries_follow_iff {config : HostConfig} {handles : List HandleId}
    {events : List Event} {e : Entry} :
    e ∈ ((vacant config handles).follow events).entries ↔
      Since (fun s => s.made = some e) (fun t => t.ends e.register = false)
        ((vacant config handles).history events) := by
  rw [entries_follow, ← mem_standing_iff, List.mem_append, List.mem_filter, List.mem_filter]
  simp only [decide_eq_true_eq]
  constructor
  · rintro (⟨stands, -⟩ | ⟨stands, -⟩)
    · exact stands
    · exact stands
  · intro stands
    obtain ⟨-, s, -, -, made, -⟩ := mem_standing_iff.1 stands
    rcases space_of_made made with memory | ports
    · exact .inl ⟨stands, memory⟩
    · exact .inr ⟨stands, ports⟩

/-! ### Devices -/

/-- **Whatever a registered host lists is a register that an attached device can have.** -/
theorem Registered.of_mem_entries {h : Host} (registered : h.Registered) {e : Entry}
    (listed : e ∈ h.entries) : h.hasDevice e.devfn = true ∧ e.bar.toNat < barCount := by
  obtain ⟨⟨m, space⟩, mapped, rfl⟩ := List.mem_map.1 listed
  have mapped : m ∈ h.mappings := by
    rw [barMappings] at mapped
    rw [mappings]
    rcases List.mem_append.1 mapped with memory | ports
    · obtain ⟨n, shown, same⟩ := List.mem_map.1 memory
      cases same
      exact List.mem_append_left _ shown
    · obtain ⟨n, shown, same⟩ := List.mem_map.1 ports
      cases same
      exact List.mem_append_right _ shown
  exact ⟨registered.attached m mapped, (registered.exact m mapped).number⟩

end Host

end Pci

end Interconnect
