import Interconnect.Proofs.Pci.Calls

/-!
# Decoding memory and I/O accesses

An access to memory or to I/O addresses goes to the first of the registers that stand and decode its
address, whether or not all of it lies within that register, and whatever registers stand behind it.
The end of the access is computed by a sum that stops at the greatest word, so that a register of
that very size is never exceeded, however far an access reaches beyond it.

## Main Definitions

* `Entry.includes`, `Entry.offset`, `Entry.size` — the addresses of an entry, as numbers
* `decoded` — the entry that decodes an address, by the history of the host
* `Payload.behind` — a payload as the device behind an entry sees it

## Main Statements

* `Host.route_of_find?_none`, `Host.route_of_find?_some` — where a payload goes
* `Host.perform_follow` — how it is answered, and what is called for it
* `Host.mem_calls_follow_iff` — how far the payloads that reach a device extend
* `Host.not_forall_call_within` — a device that sees an access beyond its register
-/

namespace Interconnect.Pci

universe u

/-! ### The addresses of an entry -/

namespace Entry

/-- Whether an address is among those of an entry. -/
def includes (e : Entry) (a : UInt64) : Bool := e.start ≤ a.toNat && a.toNat ≤ e.last

/-- How far an address lies above the lowest one of an entry. -/
def offset (e : Entry) (a : UInt64) : Nat := a.toNat - e.start

/-- The number of addresses of an entry. -/
def size (e : Entry) : Nat := e.last + 1 - e.start

end Entry

/-- **The entry that decodes an address of a space:** the first of those that stand. -/
def decoded (steps : List Step) (space : Space) (a : UInt64) : Option Entry :=
  ((standing steps).filter fun e => e.space = space).find? fun e => e.includes a

/-- **The payload as the device behind an entry sees it:** in the space of the register, and with
the distance from its lowest address.  Everything else is as it was. -/
def Payload.behind (p : Payload) (e : Entry) : Payload :=
  { p with address := UInt64.ofNat (e.offset p.address), space := .bar e.bar }

namespace BarMapping

/-- The entry of a mapping includes what the mapping decodes. -/
theorem includes_entry (m : BarMapping) (space : Space) (a : UInt64) :
    (m.entry space).includes a = m.range.includes a := by
  rw [Bool.eq_iff_iff, AddressRange.includes_eq_true_iff, AddressRange.mem_iff, Entry.includes,
    Bool.and_eq_true, decide_eq_true_eq, decide_eq_true_eq, UInt64.le_iff_toNat_le,
    UInt64.le_iff_toNat_le]
  rfl

theorem Exact.size_entry {m : BarMapping} (exact : m.Exact) (space : Space) :
    (m.entry space).size = m.size.toNat := by
  obtain ⟨-, -, last⟩ := (AddressRange.ofSize_eq_ok_iff exact.toNat_size_ne_zero).1 exact.extent
  have positive := exact.toNat_size_ne_zero
  simp only [Entry.size, entry, last]
  omega

/-- The distance from the start of a mapping does not wrap. -/
theorem offset_entry {m : BarMapping} {a : UInt64} (inside : a ∈ m.range) (space : Space) :
    (m.entry space).offset a = (a - m.range.start).toNat :=
  (UInt64.toNat_sub_of_le a m.range.start inside.1).symm

end BarMapping

/-! ### Where a payload goes -/

namespace Host

/-- The registers that decode addresses of a space, in the order in which they were mapped. -/
def mappingsFor (h : Host) : Space → List BarMapping
  | .mmio => h.mmio
  | .io => h.io
  | _ => []

theorem listed_eq_map (h : Host) (space : Space) :
    h.listed space = (h.mappingsFor space).map fun m => m.entry space := by
  rw [listed_eq]
  cases space <;> simp [mappingsFor]

theorem mem_mappings_of_mappingsFor {h : Host} {space : Space} {m : BarMapping}
    (mapped : m ∈ h.mappingsFor space) : m ∈ h.mappings := by
  cases space with
  | mmio => exact List.mem_append_left _ mapped
  | io => exact List.mem_append_right _ mapped
  | config => cases mapped
  | bar number => cases mapped

/-- The first listed entry that includes an address is that of the first mapping that decodes it. -/
theorem find?_listed (h : Host) (space : Space) (a : UInt64) :
    (h.listed space).find? (fun e => e.includes a) =
      ((h.mappingsFor space).find? fun m => m.range.includes a).map fun m => m.entry space := by
  rw [listed_eq_map, List.find?_map]
  simp only [Function.comp_def, BarMapping.includes_entry]

section

variable {h : Host} {p : Payload} (space : p.space = .mmio ∨ p.space = .io)
include space

theorem route_eq_routeBar : h.route p = h.routeBar (h.mappingsFor p.space) p := by
  rcases space with memory | ports
  · simp only [route, memory, mappingsFor]
  · simp only [route, ports, mappingsFor]

/-- **An address that no register decodes is refused.** -/
theorem route_of_find?_none
    (absent : (h.listed p.space).find? (fun e => e.includes p.address) = none) :
    h.route p = .answered (p.answer .addressError) := by
  rw [find?_listed, Option.map_eq_none_iff] at absent
  rw [route_eq_routeBar space, routeBar, absent]

/-- **The first register that decodes the address gets the payload,** unless the sum of its distance
and its size, which stops at the greatest word, exceeds the size of the register. -/
theorem route_of_find?_some (registered : h.Registered) {e : Entry}
    (first : (h.listed p.space).find? (fun e => e.includes p.address) = some e) :
    e.offset p.address < e.size ∧ e.size < UInt64.size ∧ ∃ d, h.deviceAt e.devfn = some d ∧
      h.route p =
        if e.size < min (e.offset p.address + p.size.toNat) (UInt64.size - 1) then
          .answered (p.answer .commandError)
        else .toDevice d (p.behind e) := by
  rw [find?_listed, Option.map_eq_some_iff] at first
  obtain ⟨m, first, rfl⟩ := first
  have mapped := mem_mappings_of_mappingsFor (List.mem_of_find?_eq_some first)
  have exact := registered.exact m mapped
  have includes : m.range.includes p.address = true := by simpa using List.find?_some first
  have inside := AddressRange.includes_eq_true_iff.1 includes
  have offset := BarMapping.offset_entry inside p.space
  obtain ⟨d, device⟩ := Option.isSome_iff_exists.1 (registered.attached m mapped)
  refine ⟨?_, ?_, d, device, ?_⟩
  · rw [offset, exact.size_entry]
    exact UInt64.lt_iff_toNat_lt.1 (exact.mem_range_iff.1 inside).2
  · rw [exact.size_entry]
    exact m.size.toNat_lt
  · have bound : m.size < Word.addUpTo (p.address - m.range.start) p.size.toUInt64 ↔
        m.size.toNat <
          min ((p.address - m.range.start).toNat + p.size.toNat) (UInt64.size - 1) := by
      rw [UInt64.lt_iff_toNat_lt, Word.toNat_addUpTo, UInt32.toNat_toUInt64]
    rw [route_eq_routeBar space, routeBar, first, offset, exact.size_entry]
    simp only [bound, device]
    split
    · rfl
    · rw [Payload.behind, offset, UInt64.ofNat_toNat]
      rfl

end

/-! ### After a history -/

/-- What a new host finds for an address is what its history says. -/
theorem find?_listed_follow (config : HostConfig) (handles : List HandleId) (events : List Event)
    (space : Space) (a : UInt64) :
    (((vacant config handles).follow events).listed space).find? (fun e => e.includes a) =
      decoded ((vacant config handles).history events) space a := by
  have nothing : (vacant config handles).listed space = [] := rfl
  rw [listed_follow (registered_vacant config handles), nothing, List.filter_nil,
    List.nil_append, decoded]

/-- The device at a function of a new host has been attached there, and not been detached since. -/
theorem deviceAt_follow_vacant_iff {config : HostConfig} {handles : List HandleId}
    {events : List Event} {devfn : UInt8} {device : Attachment} :
    ((vacant config handles).follow events).deviceAt devfn = some device ↔
      Since (fun s => s.Attaches devfn device) (fun t => ¬ t.Detaches devfn)
        ((vacant config handles).history events) := by
  rw [deviceAt_follow_iff]
  exact or_iff_left fun before => Option.some_ne_none _ before.1.symm

theorem event_mem_of_mem_history {h : Host} {events : List Event} {s : Step}
    (mem : s ∈ h.history events) : s.event ∈ events := by
  induction events generalizing h with
  | nil => cases mem
  | cons event rest ih =>
      rcases List.mem_cons.1 mem with rfl | later
      · exact List.mem_cons_self
      · exact List.mem_cons_of_mem _ (ih later)

/-- What decodes an address was made by a register that was mapped. -/
theorem exists_mapBar_of_decoded {h : Host} {events : List Event} {space : Space} {a : UInt64}
    {e : Entry} (found : decoded (h.history events) space a = some e) :
    ∃ devfn bar, .operation (.mapBar devfn bar) ∈ events ∧ e = bar.entry devfn := by
  have stands := (List.mem_filter.1 (List.mem_of_find?_eq_some found)).1
  obtain ⟨before, s, later, split, made, -⟩ := mem_standing_iff.1 stands
  have mem : s.event ∈ events := event_mem_of_mem_history (h := h) (by rw [split]; simp)
  unfold Step.made at made
  split at made
  · next devfn bar event =>
      split at made
      · exact ⟨devfn, bar, event ▸ mem, (Option.some.inj made).symm⟩
      · cases made
  · cases made

/-- Entries are smaller than the greatest word if all registers are. -/
theorem size_lt_of_decoded {h : Host} {events : List Event}
    (small : ∀ devfn bar, .operation (.mapBar devfn bar) ∈ events → bar.size < Word.greatest)
    {space : Space} {a : UInt64} {e : Entry}
    (found : decoded (h.history events) space a = some e) : e.size < UInt64.size - 1 := by
  obtain ⟨devfn, bar, mapped, rfl⟩ := exists_mapBar_of_decoded found
  have bounded := UInt64.lt_iff_toNat_lt.1 (small devfn bar mapped)
  rw [Word.toNat_greatest] at bounded
  simp only [Entry.size, Bar.entry, UInt64.size] at bounded ⊢
  omega

end Host

@[simp] theorem Payload.toNat_address_behind (p : Payload) (e : Entry) :
    (p.behind e).address.toNat = e.offset p.address :=
  UInt64.toNat_ofNat_of_lt' (Nat.lt_of_le_of_lt (Nat.sub_le _ _) p.address.toNat_lt)

namespace Host

variable {σ : Type u}

/-- What a device answers to an access to memory or to I/O addresses stands. -/
theorem settle_of_ne_config {space : Space} (other : space = .mmio ∨ space = .io) (p : Payload) :
    settle space p = p := by
  rcases other with rfl | rfl <;> rfl

section

variable (config : HostConfig) (handles : List HandleId) (events : List Event)
  (devices : Attachment → Device σ) (p : Payload) (space : p.space = .mmio ∨ p.space = .io)
  (world : World σ)
include space

/-- **An access goes to the first register that stands and decodes its address.**  If there is none,
or the access reaches beyond that register, the host refuses it and calls no device.  Otherwise it
calls the device that was attached to the function of the register, once. -/
theorem perform_follow
    (small : ∀ devfn bar, .operation (.mapBar devfn bar) ∈ events → bar.size < Word.greatest) :
    let steps := (vacant config handles).history events
    let h := (vacant config handles).follow events
    (decoded steps p.space p.address = none →
      h.perform devices p world = (p.answer .addressError, world) ∧
        h.calls devices p world = []) ∧
    ∀ e, decoded steps p.space p.address = some e →
      (e.size < e.offset p.address + p.size.toNat →
        h.perform devices p world = (p.answer .commandError, world) ∧
          h.calls devices p world = []) ∧
      (e.offset p.address + p.size.toNat ≤ e.size →
        ∃ d, Since (fun s => s.Attaches e.devfn d) (fun t => ¬ t.Detaches e.devfn) steps ∧
          h.perform devices p world = (devices d).access (p.behind e) world ∧
          h.calls devices p world = [.access d (p.behind e)]) := by
  intro steps h
  have registered : h.Registered := (registered_vacant config handles).follow events
  have listed := find?_listed_follow config handles events p.space p.address
  refine ⟨fun absent =>
    of_route_answered devices world (route_of_find?_none space (listed.trans absent)),
    fun e found => ?_⟩
  obtain ⟨-, -, d, device, route⟩ := route_of_find?_some space registered (listed.trans found)
  have bounded := size_lt_of_decoded small found
  refine ⟨fun beyond => ?_, fun within => ⟨d, deviceAt_follow_vacant_iff.1 device, ?_⟩⟩
  · rw [if_pos (by omega)] at route
    exact of_route_answered devices world route
  · rw [if_neg (by omega)] at route
    obtain ⟨performed, called⟩ := of_route_toDevice devices world route
    rw [settle_of_ne_config space] at performed
    exact ⟨performed, called⟩

end

/-- Two devices.  A small register of the first one, mapped first, lies over the beginning of a
large register of the second. -/
def overlaid : List Event := [
  .operation (.attach 8 ⟨0, true⟩),
  .operation (.attach 16 ⟨1, true⟩),
  .operation (.mapBar 8 ⟨0, false, false, false, 0x1000, 0x10⟩),
  .operation (.mapBar 16 ⟨1, false, false, false, 0x1000, 0x1000⟩)]

/-- The same with the small register mapped once more, so that it comes last. -/
def renewed : List Event :=
  overlaid ++ [.operation (.mapBar 8 ⟨0, false, false, false, 0x1000, 0x10⟩)]

/-- Devices that carry out every payload. -/
def obliging (_ : Attachment) : Device Unit :=
  { Device.silent Unit with access := fun p world => ({ p with status := .success }, world) }

/-- An access across the end of the small register is refused while that register comes first,
although the large one would hold all of it, and carried out behind the large one once the small one
has been mapped anew. -/
theorem exists_perform_across_end :
    let p : Payload := ⟨.read, .incomplete, .mmio, 0x100e, 0, 4, false⟩
    let before := (vacant .standard []).follow overlaid
    let after := (vacant .standard []).follow renewed
    (before.perform obliging p ⟨.empty, ()⟩ = (p.answer .commandError, ⟨.empty, ()⟩) ∧
      before.calls obliging p ⟨.empty, ()⟩ = []) ∧
    ∃ d, after.perform obliging p ⟨.empty, ()⟩ =
        (obliging d).access ⟨.read, .incomplete, .bar 1, 0xe, 0, 4, false⟩ ⟨.empty, ()⟩ ∧
      after.calls obliging p ⟨.empty, ()⟩ =
        [.access d ⟨.read, .incomplete, .bar 1, 0xe, 0, 4, false⟩] := by
  intro p before after
  have small : ∀ devfn bar, .operation (.mapBar devfn bar) ∈ renewed →
      bar.size < Word.greatest := by
    intro devfn bar mapped
    simp only [renewed, overlaid, List.cons_append, List.nil_append, List.mem_cons,
      Event.operation.injEq, reduceCtorEq, Operation.mapBar.injEq, List.not_mem_nil, or_false,
      false_or] at mapped
    rcases mapped with ⟨rfl, rfl⟩ | ⟨rfl, rfl⟩ | ⟨rfl, rfl⟩ <;> decide
  have refused := (perform_follow .standard [] overlaid obliging p (.inl rfl) ⟨.empty, ()⟩
    fun devfn bar mapped => small devfn bar (List.mem_append_left _ mapped)).2
      ⟨8, 0, .mmio, 0x1000, 0x100f⟩ rfl
  obtain ⟨d, -, answered⟩ :=
    ((perform_follow .standard [] renewed obliging p (.inl rfl) ⟨.empty, ()⟩ small).2
      ⟨16, 1, .mmio, 0x1000, 0x1fff⟩ rfl).2 (by decide)
  rw [show p.behind ⟨16, 1, .mmio, 0x1000, 0x1fff⟩ =
    ⟨.read, .incomplete, .bar 1, 0xe, 0, 4, false⟩ by decide] at answered
  exact ⟨refused.1 (by decide), d, answered⟩

section

variable (config : HostConfig) (handles : List HandleId) (events : List Event)
  (devices : Attachment → Device σ) (p : Payload) (space : p.space = .mmio ∨ p.space = .io)
  (world : World σ)
include space

/-- **How far the payloads that reach a device extend:** an access to memory or to I/O addresses
reaches the device of the register that decodes its address exactly if it ends within that register,
or the register is as large as the greatest word. -/
theorem mem_calls_follow_iff (call : Device.Call) :
    let steps := (vacant config handles).history events
    let h := (vacant config handles).follow events
    call ∈ h.calls devices p world ↔
      ∃ e d, decoded steps p.space p.address = some e ∧
        Since (fun s => s.Attaches e.devfn d) (fun t => ¬ t.Detaches e.devfn) steps ∧
        call = .access d (p.behind e) ∧ (p.behind e).address.toNat < e.size ∧
        ((p.behind e).address.toNat + (p.behind e).size.toNat ≤ e.size ∨
          e.size = UInt64.size - 1) := by
  intro steps h
  have registered : h.Registered := (registered_vacant config handles).follow events
  have listed := find?_listed_follow config handles events p.space p.address
  cases found : decoded steps p.space p.address with
  | none =>
      have called : h.calls devices p world = [] :=
        (of_route_answered devices world (route_of_find?_none space (listed.trans found))).2
      simp [called]
  | some e =>
      obtain ⟨inside, bounded, d, device, route⟩ :=
        route_of_find?_some space registered (listed.trans found)
      have only : ∀ other, Since (fun s => s.Attaches e.devfn other)
          (fun t => ¬ t.Detaches e.devfn) steps ↔ other = d := by
        intro other
        rw [← deviceAt_follow_vacant_iff]
        exact device.symm ▸ Option.some_inj.trans eq_comm
      have size : (p.behind e).size = p.size := rfl
      by_cases beyond : e.size < min (e.offset p.address + p.size.toNat) (UInt64.size - 1)
      · rw [if_pos beyond] at route
        rw [(of_route_answered devices world route).2]
        constructor
        · nofun
        · rintro ⟨_, _, ⟨⟩, -, -, -, within⟩
          rw [Payload.toNat_address_behind, size] at within
          omega
      · rw [if_neg beyond] at route
        rw [(of_route_toDevice devices world route).2, List.mem_singleton]
        constructor
        · rintro rfl
          refine ⟨e, d, rfl, (only d).2 rfl, rfl, ?_⟩
          rw [Payload.toNat_address_behind, size]
          omega
        · rintro ⟨_, other, ⟨⟩, since, rfl, -⟩
          rw [(only other).1 since]

end

/-- A device with a register as large as the greatest word. -/
def greatest : List Event := [
  .operation (.attach 8 ⟨0, true⟩),
  .operation (.mapBar 8 ⟨0, false, false, false, 0, 0xffffffffffffffff⟩)]

/-- A payload whose last two bytes lie beyond the register. -/
def exceeding : Payload := ⟨.read, .incomplete, .mmio, 0xfffffffffffffffe, 0, 4, false⟩

/-- The device sees an access of four bytes to the last of the addresses of its register. -/
theorem exists_call_beyond :
    exceeding.address.toNat + exceeding.size.toNat = UInt64.size + 2 ∧
      .access ⟨0, true⟩ { exceeding with space := .bar 0 } ∈
        ((vacant .standard []).follow greatest).calls obliging exceeding ⟨.empty, ()⟩ := by
  refine ⟨by decide, ?_⟩
  refine (mem_calls_follow_iff .standard [] greatest obliging exceeding (.inl rfl) ⟨.empty, ()⟩ _).2
    ⟨⟨8, 0, .mmio, 0, 0xfffffffffffffffe⟩, ⟨0, true⟩, rfl, ?_, rfl, by decide, .inr rfl⟩
  exact deviceAt_follow_vacant_iff.1 rfl

/-- **Not every payload that reaches a device ends within its register.**  Behind a register as
large as the greatest word, the sum that tells the end of an access stops before it can exceed the
register. -/
theorem not_forall_call_within :
    ¬ ∀ (config : HostConfig) (handles : List HandleId) (events : List Event)
      (devices : Attachment → Device Unit) (p : Payload) (world : World Unit),
      p.space = .mmio ∨ p.space = .io →
      ∀ d q, .access d q ∈ ((vacant config handles).follow events).calls devices p world →
        ∃ e, decoded ((vacant config handles).history events) p.space p.address = some e ∧
          q.address.toNat + q.size.toNat ≤ e.size := by
  intro everywhere
  have called : ((vacant .standard []).follow greatest).calls obliging exceeding ⟨.empty, ()⟩ =
      [.access ⟨0, true⟩ { exceeding with space := .bar 0 }] := rfl
  obtain ⟨e, found, within⟩ := everywhere .standard [] greatest obliging exceeding ⟨.empty, ()⟩
    (.inl rfl) ⟨0, true⟩ { exceeding with space := .bar 0 } (called ▸ List.mem_singleton_self _)
  obtain rfl : e = ⟨8, 0, .mmio, 0, 0xfffffffffffffffe⟩ := Option.some.inj (found.symm.trans rfl)
  exact absurd within (by decide)

end Host

end Interconnect.Pci
