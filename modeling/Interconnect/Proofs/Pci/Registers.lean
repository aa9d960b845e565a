import Interconnect.Pci.Host
import Interconnect.Proofs.Range
import Mathlib.Data.List.Nodup

/-!
# The registers of a PCI host

What attaching and detaching devices and mapping and unmapping registers does to a host, and what
holds of the registers of every host that has been built so.

## Main Definitions

* `BarMapping.Exact` — a mapping decodes as many addresses as its register was programmed with
* `Host.Operation`, `Host.update`, `Host.run` — building a host
* `Host.Registered` — the mappings are exact, belong to attached devices, and none is there twice

## Main Statements

* `BarMapping.Exact.mem_range_iff` — the addresses that an exact mapping decodes
* `Bar.range_eq_ok_iff` — when a register decodes a range, and which
* `Host.mapBar_eq_ok_iff`, `Host.detach_eq` — what the operations do
* `Host.attempt_of_error` — an operation that fails leaves the host as it was
* `Host.registered_run` — every host that has been built so is registered

### Two lists

A host keeps the registers for memory and for I/O addresses apart, but a register decodes only one
of the two: mapping it anew ends its mapping in either list.  So what is said here of the mappings
of a host is said of both lists as one.
-/

namespace Interconnect.Pci

namespace BarMapping

/-- The register that is mapped. -/
def register (m : BarMapping) : UInt8 × UInt8 := (m.devfn, m.bar)

theorem isOf_iff {m : BarMapping} {devfn bar : UInt8} :
    m.isOf devfn bar = true ↔ m.register = (devfn, bar) := by
  simp [isOf, register]

/-- **A mapping decodes as many addresses as its register was programmed with.** -/
structure Exact (m : BarMapping) : Prop where
  /-- A device can have the register. -/
  number : m.bar.toNat < barCount
  /-- It decodes some address. -/
  holds : m.size ≠ 0
  /-- It decodes as many addresses as its size says. -/
  extent : AddressRange.ofSize m.range.start m.size.toNat = .ok m.range

namespace Exact

variable {m : BarMapping}

theorem toNat_size_ne_zero (exact : m.Exact) : m.size.toNat ≠ 0 :=
  fun zero => exact.holds (UInt64.toNat_inj.1 zero)

/-- **An address is decoded when it lies less than the size above the start.** -/
theorem mem_range_iff (exact : m.Exact) {a : UInt64} :
    a ∈ m.range ↔ m.range.start ≤ a ∧ a - m.range.start < m.size := by
  have positive := exact.toNat_size_ne_zero
  obtain ⟨fits, -, last⟩ := (AddressRange.ofSize_eq_ok_iff positive).1 exact.extent
  rw [AddressRange.mem_iff]
  refine and_congr_right fun above => ?_
  have distance := UInt64.toNat_sub_of_le a m.range.start above
  rw [UInt64.le_iff_toNat_le] at above
  rw [UInt64.le_iff_toNat_le, UInt64.lt_iff_toNat_lt, last, distance]
  omega

/-- The part of a device's addresses that the host shows. -/
theorem mem_visible_iff (exact : m.Exact) {visible : AddressRange}
    (made : AddressRange.ofSize 0 m.size.toNat = .ok visible) {offset : UInt64} :
    offset ∈ visible ↔ offset < m.size := by
  have positive := exact.toNat_size_ne_zero
  obtain ⟨-, start, last⟩ := (AddressRange.ofSize_eq_ok_iff positive).1 made
  rw [AddressRange.mem_iff, start, UInt64.le_iff_toNat_le, UInt64.le_iff_toNat_le, last,
    UInt64.lt_iff_toNat_lt, UInt64.toNat_zero]
  omega

end Exact

end BarMapping

namespace Bar

theorem validate_eq_ok_iff {b : Bar} :
    b.validate = .ok () ↔ b.number.toNat < barCount ∧ b.size ≠ 0 := by
  unfold validate
  split
  · next beyond => simp [Nat.not_lt.2 beyond]
  · next number =>
      split
      · next empty => simp [empty]
      · next holds => simp [Nat.lt_of_not_le number, holds]

/-- **A register decodes a range if a device can have it and the range exists.** -/
theorem range_eq_ok_iff {b : Bar} {range : AddressRange} :
    b.range = .ok range ↔ (b.number.toNat < barCount ∧ b.size ≠ 0) ∧
      AddressRange.ofSize b.address b.size.toNat = .ok range := by
  rw [← validate_eq_ok_iff, Bar.range]
  cases b.validate with
  | error e => simp [bind, Except.bind]
  | ok _ =>
      cases AddressRange.ofSize b.address b.size.toNat <;>
        simp [bind, Except.bind, Except.mapError]

/-- A register that decodes a range makes an exact mapping of it. -/
theorem exact_of_range {b : Bar} {range : AddressRange} (h : b.range = .ok range)
    (devfn : UInt8) : (BarMapping.mk devfn b.number range b.size).Exact := by
  obtain ⟨⟨number, holds⟩, made⟩ := range_eq_ok_iff.1 h
  have positive : b.size.toNat ≠ 0 := fun zero => holds (UInt64.toNat_inj.1 zero)
  obtain ⟨-, start, -⟩ := (AddressRange.ofSize_eq_ok_iff positive).1 made
  exact ⟨number, holds, by rw [start]; exact made⟩

end Bar

namespace Host

/-! ### The operations -/

/-- The mappings of a host, those of memory first. -/
def mappings (h : Host) : List BarMapping := h.mmio ++ h.io

theorem mappings_unmapWhere (h : Host) (ends : BarMapping → Bool) :
    (h.unmapWhere ends).2.mappings = h.mappings.filter fun m => !ends m :=
  (List.filter_append _ _).symm

theorem attach_eq_ok_iff {h after : Host} {devfn : UInt8} {device : Attachment}
    {ended : List AddressRange} :
    h.attach devfn device = (.ok (), ended, after) ↔
      h.hasDevice devfn = false ∧ [] = ended ∧
        { h with devices := h.devices.insert devfn.toNat device } = after := by
  unfold attach
  split
  · next taken => simp [taken]
  · next free => simp [free]

/-! ### The registers of a device -/

/-- **Registers that are unmapped one by one** leave what they would if they were unmapped at
once. -/
theorem unmapBars_eq (h : Host) (devfn : UInt8) (bars : List UInt8) :
    (h.unmapBars devfn bars).2 =
      (h.unmapWhere fun m => m.devfn = devfn && bars.contains m.bar).2 := by
  induction bars generalizing h with
  | nil => simp [unmapBars, unmapWhere]
  | cons bar rest ih =>
      have gone : ∀ m : BarMapping,
          (!(decide (m.devfn = devfn) && rest.contains m.bar) && !m.isOf devfn bar) =
            !(decide (m.devfn = devfn) && (bar :: rest).contains m.bar) := by
        intro m
        rw [BarMapping.isOf, List.contains_cons, Bool.eq_iff_iff]
        simp only [Bool.and_eq_true, Bool.not_eq_true', Bool.and_eq_false_iff, Bool.or_eq_false_iff,
          beq_eq_false_iff_ne, decide_eq_false_iff_not]
        tauto
      simp only [unmapBars, ih, unmapBar, unmapWhere, List.filter_filter, gone]

/-- What has ended is what the registers decoded. -/
theorem mem_unmapBars_iff (h : Host) (devfn : UInt8) (bars : List UInt8) {range : AddressRange} :
    range ∈ (h.unmapBars devfn bars).1 ↔
      ∃ m ∈ h.mmio, (m.devfn = devfn ∧ m.bar ∈ bars) ∧ m.range = range := by
  induction bars generalizing h with
  | nil => simp [unmapBars]
  | cons bar rest ih =>
      simp only [unmapBars, List.mem_append, ih, unmapBar, unmapWhere, List.mem_map,
        List.mem_filter, BarMapping.isOf, Bool.not_eq_true', Bool.and_eq_true,
        Bool.and_eq_false_iff, decide_eq_true_eq, decide_eq_false_iff_not, List.mem_cons]
      constructor
      · rintro (⟨m, ⟨shown, own, same⟩, rfl⟩ | ⟨m, ⟨shown, -⟩, ⟨own, later⟩, rfl⟩)
        · exact ⟨m, shown, ⟨own, .inl same⟩, rfl⟩
        · exact ⟨m, shown, ⟨own, .inr later⟩, rfl⟩
      · rintro ⟨m, shown, ⟨own, among⟩, rfl⟩
        by_cases same : m.bar = bar
        · exact .inl ⟨m, ⟨shown, own, same⟩, rfl⟩
        · exact .inr ⟨m, ⟨shown, .inr same⟩, ⟨own, among.resolve_left same⟩, rfl⟩

theorem mem_barNumbers_iff {bar : UInt8} : bar ∈ barNumbers ↔ bar.toNat < barCount := by
  simp only [barNumbers, List.mem_map, List.mem_range, barCount]
  constructor
  · rintro ⟨n, small, rfl⟩
    rw [UInt8.toNat_ofNat', Nat.mod_eq_of_lt (by omega)]
    exact small
  · exact fun small => ⟨bar.toNat, small, UInt8.ofNat_toNat⟩

/-- **A device can only be detached where there is one.** -/
theorem detach_eq_error_iff {h : Host} {devfn : UInt8} {fault : Fault} :
    (h.detach devfn).1 = .error fault ↔ h.hasDevice devfn = false ∧ fault = .noDevice devfn := by
  unfold detach hasDevice
  cases h.deviceAt devfn with
  | none => simpa using eq_comm
  | some device => simp

/-- What detaching a device that is there gives. -/
theorem detach_of_deviceAt {h : Host} {devfn : UInt8} {device : Attachment}
    (found : h.deviceAt devfn = some device) :
    h.detach devfn = (.ok (), (h.unmapBars devfn barNumbers).1,
      { (h.unmapWhere fun m => m.devfn = devfn && barNumbers.contains m.bar).2 with
        devices := h.devices.erase devfn.toNat
        asserted := h.asserted.filter fun e => e.2 != devfn }) := by
  -- the registers are unmapped as they would be with the device still there
  have same : ∀ bars, (unmapBars { h with devices := h.devices.erase devfn.toNat } devfn bars).1 =
      (h.unmapBars devfn bars).1 := by
    intro bars
    generalize h.devices.erase devfn.toNat = devices
    induction bars generalizing h with
    | nil => rfl
    | cons bar rest ih =>
        exact congrArg ((h.unmapBar devfn bar).1 ++ ·) (ih (h := (h.unmapBar devfn bar).2) found)
  simp only [detach, found, same, unmapBars_eq, unmapWhere]

/-- What a detached device leaves of the rest of the host. -/
theorem of_detach_eq_ok {h after : Host} {devfn : UInt8} {ended : List AddressRange}
    (done : h.detach devfn = (.ok (), ended, after)) :
    h.hasDevice devfn = true ∧ after.handles = h.handles ∧
      after.devices = h.devices.erase devfn.toNat ∧
      after.asserted = h.asserted.filter fun e => e.2 != devfn := by
  cases found : h.deviceAt devfn with
  | none =>
      have failed := detach_eq_error_iff.2 ⟨by rw [hasDevice, found]; rfl, rfl⟩
      rw [done] at failed
      cases failed
  | some device =>
      rw [detach_of_deviceAt found, Prod.mk.injEq, Prod.mk.injEq] at done
      obtain ⟨-, -, rfl⟩ := done
      exact ⟨by rw [hasDevice, found]; rfl, rfl, rfl, rfl⟩

/-- **A device that is detached takes its mappings and its pins along,** if their numbers are those
that the registers of a device can have. -/
theorem detach_eq {h after : Host} {devfn : UInt8} {ended : List AddressRange}
    (numbered : ∀ m ∈ h.mappings, m.bar.toNat < barCount)
    (done : h.detach devfn = (.ok (), ended, after)) :
    (∀ range, range ∈ ended ↔ range ∈ (h.unmapWhere fun m => m.devfn = devfn).1) ∧
      after = { (h.unmapWhere fun m => m.devfn = devfn).2 with
        devices := h.devices.erase devfn.toNat
        asserted := h.asserted.filter fun e => e.2 != devfn } := by
  have among : ∀ m ∈ h.mappings, m.bar ∈ barNumbers :=
    fun m shown => mem_barNumbers_iff.2 (numbered m shown)
  have all : ∀ m ∈ h.mappings,
      (!(decide (m.devfn = devfn) && barNumbers.contains m.bar)) = !decide (m.devfn = devfn) := by
    intro m shown
    rw [List.contains_iff_mem.2 (among m shown), Bool.and_true]
  obtain ⟨device, found⟩ := Option.isSome_iff_exists.1 (of_detach_eq_ok done).1
  rw [detach_of_deviceAt found, Prod.mk.injEq, Prod.mk.injEq] at done
  obtain ⟨-, rfl, rfl⟩ := done
  constructor
  · intro range
    rw [mem_unmapBars_iff]
    simp only [unmapWhere, List.mem_map, List.mem_filter, decide_eq_true_eq]
    constructor
    · rintro ⟨m, shown, ⟨own, -⟩, rfl⟩
      exact ⟨m, ⟨shown, own⟩, rfl⟩
    · rintro ⟨m, ⟨shown, own⟩, rfl⟩
      exact ⟨m, shown, ⟨own, among m (List.mem_append_left _ shown)⟩, rfl⟩
  · have mmio := List.filter_congr fun m shown => all m (List.mem_append_left h.io shown)
    have io := List.filter_congr fun m shown => all m (List.mem_append_right h.mmio shown)
    simp only [unmapWhere, mmio, io]

/-! ### Mapping a register -/

theorem mappings_add (h : Host) (io : Bool) (mapping : BarMapping) :
    (h.add io mapping).mappings.Perm (mapping :: h.mappings) := by
  cases io with
  | false =>
      rw [mappings, add, if_neg Bool.false_ne_true, List.append_assoc]
      exact List.perm_middle
  | true =>
      rw [mappings, add, if_pos rfl, ← List.append_assoc]
      exact List.perm_append_singleton _ _

theorem hasDevice_add (h : Host) (io : Bool) (mapping : BarMapping) (devfn : UInt8) :
    (h.add io mapping).hasDevice devfn = h.hasDevice devfn := by
  cases io <;> rfl

/-- **A register that is mapped comes last, and any earlier mapping of it has ended.** -/
theorem mapBar_eq_ok_iff {h after : Host} {devfn : UInt8} {bar : Bar} {ended : List AddressRange} :
    h.mapBar devfn bar = (.ok (), ended, after) ↔
      ∃ range, bar.range = .ok range ∧ h.hasDevice devfn = true ∧
        (h.unmapBar devfn bar.number).1 = ended ∧
        (h.unmapBar devfn bar.number).2.add bar.io ⟨devfn, bar.number, range, bar.size⟩ =
          after := by
  unfold mapBar
  cases bar.range with
  | error e => simp
  | ok range => cases h.hasDevice devfn <;> simp

/-! ### Building a host -/

/-- What changes the devices and the registers of a host. -/
inductive Operation where
  /-- A device is attached. -/
  | attach (devfn : UInt8) (device : Attachment)
  /-- A device is detached. -/
  | detach (devfn : UInt8)
  /-- A register of a device is mapped. -/
  | mapBar (devfn : UInt8) (bar : Bar)
  /-- The mapping of a register is ended. -/
  | unmapBar (devfn number : UInt8)

/-- **An operation:** how it ends, the memory ranges that are no longer decoded, and the host that
is left. -/
def attempt (h : Host) : Operation → Except Fault Unit × List AddressRange × Host
  | .attach devfn device => h.attach devfn device
  | .detach devfn => h.detach devfn
  | .mapBar devfn bar => h.mapBar devfn bar
  | .unmapBar devfn number => (.ok (), h.unmapBar devfn number)

/-- The host after an operation, also in vain. -/
def update (h : Host) (operation : Operation) : Host := (h.attempt operation).2.2

/-- **An operation that fails ends nothing and leaves the host as it was.** -/
theorem attempt_of_error {h : Host} {operation : Operation} {fault : Fault}
    (failed : (h.attempt operation).1 = .error fault) : (h.attempt operation).2 = ([], h) := by
  cases operation with
  | attach devfn device =>
      simp only [attempt, attach] at failed ⊢
      split at failed
      · next taken => rw [if_pos taken]
      · cases failed
  | detach devfn =>
      simp only [attempt, detach] at failed ⊢
      cases found : h.deviceAt devfn with
      | none =>
          -- the removal of a device that is not there
          rw [Table.erase_of_find?_eq_none found]
      | some device =>
          rw [found] at failed
          cases failed
  | mapBar devfn bar =>
      simp only [attempt, mapBar] at failed ⊢
      cases decoded : bar.range with
      | error e => rfl
      | ok range =>
          rw [decoded] at failed
          cases attached : h.hasDevice devfn with
          | false => rfl
          | true =>
              rw [attached] at failed
              cases failed
  | unmapBar devfn number => cases failed

theorem update_of_error {h : Host} {operation : Operation} {fault : Fault}
    {left : List AddressRange × Host} (attempted : h.attempt operation = (.error fault, left)) :
    h.update operation = h := by
  rw [update, attempt_of_error (congrArg Prod.fst attempted)]

/-- A host keeps its handles, whatever becomes of its devices and registers. -/
theorem handles_update (h : Host) (operation : Operation) :
    (h.update operation).handles = h.handles := by
  cases attempted : h.attempt operation with
  | mk outcome left =>
      obtain ⟨ended, after⟩ := left
      cases outcome with
      | error fault => rw [update_of_error attempted]
      | ok done =>
          rw [update, attempted]
          cases operation with
          | attach devfn device =>
              obtain ⟨-, -, rfl⟩ := attach_eq_ok_iff.1 attempted
              rfl
          | detach devfn => exact (of_detach_eq_ok attempted).2.1
          | mapBar devfn bar =>
              obtain ⟨range, -, -, -, rfl⟩ := mapBar_eq_ok_iff.1 attempted
              rw [add]
              split <;> rfl
          | unmapBar devfn number =>
              cases attempted
              rfl

theorem handles_of_attempt {h after : Host} (operation : Operation) {outcome : Except Fault Unit}
    {ended : List AddressRange} (attempted : h.attempt operation = (outcome, ended, after)) :
    after.handles = h.handles := by
  rw [← handles_update h operation, update, attempted]

/-- The host after some operations. -/
def run (config : HostConfig) (operations : List Operation) : Host :=
  operations.foldl update (ofConfig config)

/-! ### What holds of every host that has been built so -/

/-- **The mappings of a host are exact, belong to attached devices, and none is there twice.** -/
structure Registered (h : Host) : Prop where
  /-- Every mapping decodes as many addresses as its register was programmed with. -/
  exact : ∀ m ∈ h.mappings, m.Exact
  /-- The device of every mapping is attached. -/
  attached : ∀ m ∈ h.mappings, h.hasDevice m.devfn = true
  /-- No register is mapped twice. -/
  distinct : (h.mappings.map BarMapping.register).Nodup

namespace Registered

variable {h : Host}

theorem ofConfig (config : HostConfig) : (ofConfig config).Registered :=
  ⟨fun _ absent => absurd absent List.not_mem_nil, fun _ absent => absurd absent List.not_mem_nil,
    List.nodup_nil⟩

/-- It is enough to look at the mappings and at which devices they need. -/
theorem of_sublist {g : Host} (registered : g.Registered)
    (fewer : h.mappings.Sublist g.mappings)
    (kept : ∀ m ∈ h.mappings, g.hasDevice m.devfn = true → h.hasDevice m.devfn = true) :
    h.Registered where
  exact := fun m mem => registered.exact m (fewer.subset mem)
  attached := fun m mem => kept m mem (registered.attached m (fewer.subset mem))
  distinct := registered.distinct.sublist (fewer.map _)

theorem unmapWhere (registered : h.Registered) (ends : BarMapping → Bool) :
    (h.unmapWhere ends).2.Registered :=
  registered.of_sublist (by rw [mappings_unmapWhere]; exact List.filter_sublist)
    fun _ _ attached => attached

theorem attach (registered : h.Registered) {after : Host} {devfn : UInt8} {device : Attachment}
    {ended : List AddressRange} (done : h.attach devfn device = (.ok (), ended, after)) :
    after.Registered := by
  obtain ⟨-, -, rfl⟩ := attach_eq_ok_iff.1 done
  refine registered.of_sublist (List.Sublist.refl _) fun m _ attached => ?_
  rw [hasDevice, deviceAt, Table.find?_insert]
  split
  · rfl
  · exact attached

/-- The registers that are mapped have numbers that a device can have. -/
theorem numbered (registered : h.Registered) : ∀ m ∈ h.mappings, m.bar.toNat < barCount :=
  fun m shown => (registered.exact m shown).number

theorem detach (registered : h.Registered) {after : Host} {devfn : UInt8}
    {ended : List AddressRange} (done : h.detach devfn = (.ok (), ended, after)) :
    after.Registered := by
  obtain ⟨-, rfl⟩ := detach_eq registered.numbered done
  refine (registered.unmapWhere fun m => m.devfn = devfn).of_sublist (List.Sublist.refl _)
    fun m mem attached => ?_
  have other : m.devfn ≠ devfn := by
    have kept : m ∈ (h.unmapWhere fun m => m.devfn = devfn).2.mappings := mem
    rw [mappings_unmapWhere, List.mem_filter] at kept
    simpa using kept.2
  rw [hasDevice, deviceAt, Table.find?_erase, if_neg fun same => other (UInt8.toNat_inj.1 same)]
  exact attached

/-- A mapping may be added if it is exact, its device is attached and its register is not mapped. -/
theorem add (registered : h.Registered) (io : Bool) {mapping : BarMapping} (exact : mapping.Exact)
    (attached : h.hasDevice mapping.devfn = true)
    (free : ∀ m ∈ h.mappings, m.register ≠ mapping.register) :
    (h.add io mapping).Registered := by
  have arranged := mappings_add h io mapping
  refine ⟨fun m mem => ?_, fun m mem => ?_, ?_⟩
  · rcases List.mem_cons.1 (arranged.subset mem) with rfl | old
    · exact exact
    · exact registered.exact m old
  · rw [hasDevice_add]
    rcases List.mem_cons.1 (arranged.subset mem) with rfl | old
    · exact attached
    · exact registered.attached m old
  · rw [(arranged.map _).nodup_iff, List.map_cons, List.nodup_cons]
    refine ⟨fun twice => ?_, registered.distinct⟩
    obtain ⟨m, old, same⟩ := List.mem_map.1 twice
    exact free m old same

theorem mapBar (registered : h.Registered) {after : Host} {devfn : UInt8} {bar : Bar}
    {ended : List AddressRange} (done : h.mapBar devfn bar = (.ok (), ended, after)) :
    after.Registered := by
  obtain ⟨range, decoded, present, -, rfl⟩ := mapBar_eq_ok_iff.1 done
  have kept := registered.unmapWhere fun m => m.isOf devfn bar.number
  refine kept.add bar.io (Bar.exact_of_range decoded devfn) present fun m old same => ?_
  rw [mappings_unmapWhere, List.mem_filter, BarMapping.isOf_iff.2 same] at old
  exact absurd old.2 (by decide)

/-- **An operation leaves a registered host registered.** -/
theorem update (registered : h.Registered) (operation : Operation) :
    (h.update operation).Registered := by
  cases attempted : h.attempt operation with
  | mk outcome left =>
      obtain ⟨ended, after⟩ := left
      cases outcome with
      | error fault =>
          rw [update_of_error attempted]
          exact registered
      | ok done =>
          rw [Host.update, attempted]
          cases operation with
          | attach devfn device => exact registered.attach attempted
          | detach devfn => exact registered.detach attempted
          | mapBar devfn bar => exact registered.mapBar attempted
          | unmapBar devfn number =>
              cases attempted
              exact registered.unmapWhere _

end Registered

/-- **Every host that has been built by operations is registered.** -/
theorem registered_run (config : HostConfig) (operations : List Operation) :
    (run config operations).Registered := by
  have kept : ∀ h : Host, h.Registered → (operations.foldl Host.update h).Registered := by
    induction operations with
    | nil => exact fun h registered => registered
    | cons operation rest ih => exact fun h registered => ih _ (registered.update operation)
  exact kept _ (.ofConfig config)

end Host

end Interconnect.Pci
