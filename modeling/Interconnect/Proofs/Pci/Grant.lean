import Interconnect.Pci.Routing
import Interconnect.Proofs.Pci.Registers
import Interconnect.Proofs.Window.Basic

/-!
# Windows and accesses through the same register

A host finds a register twice over: for an access it takes the first one that decodes the address,
and for a window the first one that decodes the whole range, of which it then shows everything.  The
two agree at every address that no register mapped earlier decodes too, and nowhere else.

## Main Definitions

* `Host.Grants` — the register and the device that a window comes from

## Main Statements

* `Host.exists_grants` — every window comes from a register
* `Host.route_byte` — where an access to a single address goes
* `Host.route_of_grants`, `Host.exists_route_before` — where it goes at an address of a window
* `Host.route_of_window` — at which addresses of a window an access finds what the window shows
* `Host.exists_window_over_earlier_register` — a window at whose addresses an access goes elsewhere
-/

namespace Interconnect.Pci

universe u

variable {σ : Type u}

namespace Host

/-- **A window for `range` comes from register `m` of device `d`:** the register is the first one
that decodes the whole range, the device offers a window behind it, and the host shows what of that
lies within the register. -/
structure Grants (devices : Attachment → Device σ) (h : Host) (range : AddressRange)
    (world : World σ) (w : DirectWindow) (after : World σ) (m : BarMapping) (d : Attachment) :
    Prop where
  /-- The register is the first one that decodes the whole range. -/
  first : (h.mmio.find? fun m => m.range.contains range) = some m
  /-- It is a register of the device. -/
  device : h.deviceAt m.devfn = some d
  /-- The device's window maps an offset as the host's maps the address. -/
  offers : ∃ place offered, range.shiftDown m.range.start = .ok place ∧
    (devices d).window m.bar place world = (some offered, after) ∧
      ∀ a q p, w.Maps a q p ↔ a ∈ m.range ∧ offered.Maps (a - m.range.start) q p

/-- What a host shows of a device's window maps an address as that window maps its offset. -/
private theorem maps_shown_iff {m : BarMapping} (exact : m.Exact) {visible : AddressRange}
    (made : AddressRange.ofSize 0 m.size.toNat = .ok visible) {offered part w : DirectWindow}
    (restricted : offered.restrict visible = some part)
    (moved : part.shiftUp m.range.start = .ok w) (a : UInt64) (q : Permission) (p : HostPointer) :
    w.Maps a q p ↔ a ∈ m.range ∧ offered.Maps (a - m.range.start) q p := by
  rw [DirectWindow.maps_shiftUp_iff moved, DirectWindow.maps_restrict_iff restricted,
    exact.mem_visible_iff made, exact.mem_range_iff]
  exact ⟨fun ⟨above, maps, within⟩ => ⟨⟨above, within⟩, maps⟩,
    fun ⟨⟨above, within⟩, maps⟩ => ⟨above, maps, within⟩⟩

/-- **Every window of a registered host comes from one of its registers.** -/
theorem exists_grants {h : Host} (registered : h.Registered) {devices : Attachment → Device σ}
    {range : AddressRange} {attributes : Attributes} {world after : World σ} {w : DirectWindow}
    (granted : h.window devices range attributes world = (some w, after)) :
    ∃ m d, h.Grants devices range world w after m d := by
  unfold window at granted
  split at granted
  · cases granted
  · split at granted
    · cases granted
    · next m first =>
        split at granted
        · next place d moved device =>
            cases answer : (devices d).window m.bar place world with
            | mk offered next =>
                rw [answer] at granted
                obtain ⟨result, rfl⟩ := Prod.mk.inj granted
                obtain ⟨offered, rfl, cut⟩ := Option.bind_eq_some_iff.1 result
                obtain ⟨visible, made, cut⟩ := Option.bind_eq_some_iff.1 cut
                obtain ⟨part, restricted, shown⟩ := Option.bind_eq_some_iff.1 cut
                rw [toOption_eq_some_iff] at moved made shown
                have mem : m ∈ h.mappings :=
                  List.mem_append_left _ (List.mem_of_find?_eq_some first)
                exact ⟨m, d, first, device, place, offered, moved, answer,
                  maps_shown_iff (registered.exact m mem) made restricted shown⟩
        · cases granted

/-- **An access to a single address goes to the device of the first register that decodes it.** -/
theorem route_byte {h : Host} (registered : h.Registered) {p : Payload} (space : p.space = .mmio)
    (size : p.size = 1) {m : BarMapping}
    (first : (h.mmio.find? fun m => m.range.includes p.address) = some m) {d : Attachment}
    (device : h.deviceAt m.devfn = some d) :
    h.route p =
      .toDevice d { p with address := p.address - m.range.start, space := .bar m.bar } := by
  have exact := registered.exact m (List.mem_append_left _ (List.mem_of_find?_eq_some first))
  have decoded : m.range.includes p.address = true := by simpa using List.find?_some first
  have within := (exact.mem_range_iff.1 (AddressRange.includes_eq_true_iff.1 decoded)).2
  have fits : ¬ m.size < Word.addUpTo (p.address - m.range.start) p.size.toUInt64 := by
    have one : p.size.toUInt64.toNat = 1 := by rw [size]; rfl
    have bounded := m.size.toNat_lt
    rw [UInt64.lt_iff_toNat_lt] at within
    rw [UInt64.lt_iff_toNat_lt, Word.toNat_addUpTo, one]
    omega
  unfold route routeBar
  rw [space]
  simp only [first, if_neg fits, device]

section

variable {h : Host} {devices : Attachment → Device σ} {range : AddressRange}
  {world after : World σ} {w : DirectWindow} {m : BarMapping} {d : Attachment} {p : Payload}
  {before later : List BarMapping}

/-- A window shows only addresses that its register decodes. -/
theorem Grants.mem_range (grants : h.Grants devices range world w after m d) {a : UInt64}
    (inside : a ∈ w.range) : a ∈ m.range := by
  obtain ⟨_, _, -, -, maps⟩ := grants.offers
  exact ((maps a _ _).1 (DirectWindow.maps_pointerFor inside)).1

/-- **Where no register mapped earlier decodes the address, an access goes through the register that
the window comes from.** -/
theorem route_of_grants (registered : h.Registered)
    (grants : h.Grants devices range world w after m d) (split : h.mmio = before ++ m :: later)
    (space : p.space = .mmio) (size : p.size = 1) (inside : p.address ∈ w.range)
    (free : ∀ n ∈ before, p.address ∉ n.range) :
    h.route p =
      .toDevice d { p with address := p.address - m.range.start, space := .bar m.bar } := by
  refine route_byte registered space size ?_ grants.device
  rw [List.find?_eq_some_iff_append]
  refine ⟨AddressRange.includes_eq_true_iff.2 (grants.mem_range inside), before, later, split,
    fun n earlier => ?_⟩
  rw [Bool.not_eq_true', ← Bool.not_eq_true, AddressRange.includes_eq_true_iff]
  exact free n earlier

/-- **Where one does, an access goes through another register.** -/
theorem exists_route_before (registered : h.Registered) (split : h.mmio = before ++ m :: later)
    (space : p.space = .mmio) (size : p.size = 1) (taken : ∃ n ∈ before, p.address ∈ n.range) :
    ∃ n ∈ before, n.register ≠ m.register ∧ p.address ∈ n.range ∧
      ∃ e, h.deviceAt n.devfn = some e ∧ h.route p =
        .toDevice e { p with address := p.address - n.range.start, space := .bar n.bar } := by
  cases first : before.find? fun n => n.range.includes p.address with
  | none =>
      obtain ⟨n, earlier, decoded⟩ := taken
      exact absurd (AddressRange.includes_eq_true_iff.2 decoded)
        (List.find?_eq_none.1 first n earlier)
  | some n =>
      have earlier := List.mem_of_find?_eq_some first
      have decoded : n.range.includes p.address = true := by simpa using List.find?_some first
      have found : (h.mmio.find? fun n => n.range.includes p.address) = some n := by
        rw [split, List.find?_append, first, Option.some_or]
      have mem : n ∈ h.mappings := List.mem_append_left _ (List.mem_of_find?_eq_some found)
      obtain ⟨e, device⟩ := Option.isSome_iff_exists.1 (registered.attached n mem)
      refine ⟨n, earlier, fun same => ?_, AddressRange.includes_eq_true_iff.1 decoded, e, device,
        route_byte registered space size found device⟩
      -- a register that was mapped twice would be listed twice
      have distinct := registered.distinct
      rw [mappings, split, List.append_assoc, List.map_append, List.cons_append,
        List.map_cons] at distinct
      exact (List.nodup_append.1 distinct).2.2 _ (List.mem_map_of_mem earlier) _
        List.mem_cons_self same

/-- Where the registers of a host do not lie over one another, an access to any address of a window
goes through the register that the window comes from. -/
theorem route_of_grants_of_apart (registered : h.Registered)
    (apart : h.mmio.Pairwise fun m n => m.range.overlaps n.range = false)
    (grants : h.Grants devices range world w after m d) (space : p.space = .mmio)
    (size : p.size = 1) (inside : p.address ∈ w.range) :
    h.route p =
      .toDevice d { p with address := p.address - m.range.start, space := .bar m.bar } := by
  obtain ⟨-, before, later, split, -⟩ := List.find?_eq_some_iff_append.1 grants.first
  refine route_of_grants registered grants split space size inside fun n earlier decoded => ?_
  rw [split, List.pairwise_append] at apart
  exact AddressRange.overlaps_eq_false_iff.1 (apart.2.2 n earlier m List.mem_cons_self) _ decoded
    (grants.mem_range inside)

end

/-- **At which addresses of a window an access finds what the window shows.**  Every window comes
from a register, and maps an address as the device's window maps its offset.  An access to a single
address goes to the same device, register and offset wherever no register mapped earlier decodes the
address, and through another register everywhere else. -/
theorem route_of_window (config : HostConfig) (operations : List Operation)
    (devices : Attachment → Device σ) {range : AddressRange} {attributes : Attributes}
    {world after : World σ} {w : DirectWindow}
    (granted :
      (run config operations).window devices range attributes world = (some w, after)) :
    ∃ m d before later, (run config operations).Grants devices range world w after m d ∧
      (run config operations).mmio = before ++ m :: later ∧
      ∀ p : Payload, p.space = .mmio → p.size = 1 → p.address ∈ w.range →
        ((∀ n ∈ before, p.address ∉ n.range) →
          (run config operations).route p =
            .toDevice d { p with address := p.address - m.range.start, space := .bar m.bar }) ∧
        ((∃ n ∈ before, p.address ∈ n.range) →
          ∃ n ∈ before, n.register ≠ m.register ∧ p.address ∈ n.range ∧
            ∃ e, (run config operations).deviceAt n.devfn = some e ∧
              (run config operations).route p =
                .toDevice e
                  { p with address := p.address - n.range.start, space := .bar n.bar }) := by
  have registered := registered_run config operations
  obtain ⟨m, d, grants⟩ := exists_grants registered granted
  obtain ⟨-, before, later, split, -⟩ := List.find?_eq_some_iff_append.1 grants.first
  exact ⟨m, d, before, later, grants, split, fun p space size inside =>
    ⟨route_of_grants registered grants split space size inside,
      exists_route_before registered split space size⟩⟩

/-- Two devices.  A small register of the first one, mapped first, lies over the beginning of a
large register of the second. -/
def overlapping : List Operation := [
  .attach 8 ⟨0, true⟩,
  .attach 16 ⟨1, true⟩,
  .mapBar 8 ⟨0, false, false, false, 0x1000, 0x100⟩,
  .mapBar 16 ⟨1, false, false, false, 0x1000, 0x1000⟩]

/-- Devices that show a block of their own behind every register. -/
def showingBlocks (device : Attachment) : Device Unit where
  access := fun p world => ({ p with status := .success }, world)
  window := fun _ _ world =>
    (some ⟨⟨0, 0xfff, by decide⟩, .toBlock device.device, .readWrite⟩, world)

/-- A window that the second device supplies begins where only the first one is reached, and ends
where the second one is. -/
theorem exists_window_over_earlier_register :
    ∃ w after d e, ∃ m n : BarMapping,
      (run .standard overlapping).window showingBlocks ⟨0x1800, 0x1803, by decide⟩
        ⟨1, 0, false, false⟩ ⟨.empty, ()⟩ = (some w, after) ∧
      (run .standard overlapping).Grants showingBlocks ⟨0x1800, 0x1803, by decide⟩ ⟨.empty, ()⟩
        w after m d ∧
      n.register ≠ m.register ∧
      (run .standard overlapping).route ⟨.read, .incomplete, .mmio, 0x1000, 0, 1, false⟩ =
        .toDevice e ⟨.read, .incomplete, .bar n.bar, 0x1000 - n.range.start, 0, 1, false⟩ ∧
      (run .standard overlapping).route ⟨.read, .incomplete, .mmio, 0x1fff, 0, 1, false⟩ =
        .toDevice d ⟨.read, .incomplete, .bar m.bar, 0x1fff - m.range.start, 0, 1, false⟩ := by
  have granted : (run .standard overlapping).window showingBlocks ⟨0x1800, 0x1803, by decide⟩
      ⟨1, 0, false, false⟩ ⟨.empty, ()⟩ =
        (some ⟨⟨0x1000, 0x1fff, by decide⟩, .toBlock 1, .readWrite⟩, ⟨.empty, ()⟩) := rfl
  obtain ⟨m, d, before, later, grants, split, routes⟩ :=
    route_of_window .standard overlapping showingBlocks granted
  have second : m = ⟨16, 1, ⟨0x1000, 0x1fff, by decide⟩, 0x1000⟩ :=
    Option.some.inj (grants.first.symm.trans rfl)
  subst second
  have listed : [⟨8, 0, ⟨0x1000, 0x10ff, by decide⟩, 0x100⟩,
      ⟨16, 1, ⟨0x1000, 0x1fff, by decide⟩, 0x1000⟩] = before ++ _ :: later := split
  rcases before with _ | ⟨n, _ | ⟨next, rest⟩⟩
  · exact absurd (List.cons.inj listed).1 (by decide)
  · obtain ⟨rfl, -⟩ := List.cons.inj listed
    obtain ⟨n, earlier, other, -, e, -, elsewhere⟩ :=
      (routes ⟨.read, .incomplete, .mmio, 0x1000, 0, 1, false⟩ rfl rfl (by decide)).2
        ⟨_, .head _, by decide⟩
    refine ⟨_, _, d, e, _, n, granted, grants, other, elsewhere, ?_⟩
    refine (routes ⟨.read, .incomplete, .mmio, 0x1fff, 0, 1, false⟩ rfl rfl (by decide)).1 ?_
    intro n earlier
    obtain rfl := List.mem_singleton.1 earlier
    decide
  · simp at listed

/-- **Not everything that a window shows is where an access would find it.**  With the registers of
two devices over one another, a window that one of them supplies reaches to addresses at which an
access goes to the other. -/
theorem not_forall_route_of_grants :
    ¬ ∀ (config : HostConfig) (operations : List Operation) (devices : Attachment → Device Unit)
      (range : AddressRange) (attributes : Attributes) (world after : World Unit)
      (w : DirectWindow) (p : Payload),
      (run config operations).window devices range attributes world = (some w, after) →
      p.space = .mmio → p.size = 1 → p.address ∈ w.range →
      ∃ m d, (run config operations).Grants devices range world w after m d ∧
        (run config operations).route p =
          .toDevice d { p with address := p.address - m.range.start, space := .bar m.bar } := by
  intro everywhere
  obtain ⟨m, d, grants, route⟩ := everywhere .standard overlapping showingBlocks
    ⟨0x1800, 0x1803, by decide⟩ ⟨1, 0, false, false⟩ ⟨.empty, ()⟩ ⟨.empty, ()⟩
    ⟨⟨0x1000, 0x1fff, by decide⟩, .toBlock 1, .readWrite⟩
    ⟨.read, .incomplete, .mmio, 0x1000, 0, 1, false⟩ rfl rfl rfl (by decide)
  have second : m = ⟨16, 1, ⟨0x1000, 0x1fff, by decide⟩, 0x1000⟩ :=
    Option.some.inj (grants.first.symm.trans rfl)
  subst second
  have other : d = ⟨1, true⟩ := Option.some.inj (grants.device.symm.trans rfl)
  subst other
  exact absurd (Route.toDevice.inj route).1 (by decide)

end Host

end Interconnect.Pci
