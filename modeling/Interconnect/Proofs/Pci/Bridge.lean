import Interconnect.Proofs.Gate.Backing
import Interconnect.Proofs.Pci.Grant
import Interconnect.Proofs.Withdrawal.Reach
import Interconnect.System.Targets

/-!
# Windows onto the registers of a PCI host

A host shows the memory of its devices wherever their registers are mapped, and takes its windows
back when a mapping ends: because the register is unmapped, because it is mapped elsewhere or to I/O
addresses, or because the device is detached.  This module follows a host together with the gate to
its memory space and the initiators behind that gate, and shows that no window outlives the mapping
that it shows.

## Main Definitions

* `Host.Shows` — an address is decoded by a register, and which byte of the device it stands for
* `Host.Steady` — the devices show the same bytes in every world that accesses lead to
* `Bridge`, `Bridge.Reachable` — a host with the gate to its memory space, and its runs
* `Bridge.Sound` — the invariant

## Main Statements

* `Host.confined_target` — a host offers what its registers show
* `Host.Shows.of_unmapWhere` — what is shown still if mappings end
* `Bridge.sound_of_reachable` — the invariant of all runs
* `Bridge.shows_of_window` — every cached window shows registers that are mapped

### The byte behind an address

What the byte of a device is, nobody but the device knows.  A bridge therefore carries it along as
`byte`, for each function, register and distance from the register's start.  It is given anew where
a device is attached, and from then on whatever the device offers must agree with it.  The registers
themselves may lie over one another.
-/

namespace Interconnect

namespace Pci

universe u

variable {σ : Type u}

/-- Which byte of host storage stands behind a place of a register of a function. -/
def Backing := UInt8 → UInt8 → UInt64 → HostPointer

/-- The same block stands behind every register. -/
def Backing.ofBlock (block : StorageId) : Backing :=
  fun _ _ offset => (HostPointer.toBlock block).advance offset

namespace Host

variable {devices : Attachment → Device σ} {h : Host} {byte : Backing} {fit : World σ → Prop}

/-! ### What a host shows -/

/-- **A register of an attached device decodes address `a`,** and `p` is the byte of the device
behind it. -/
def Shows (h : Host) (byte : Backing) (a : UInt64) (p : HostPointer) : Prop :=
  ∃ m ∈ h.mmio, ∃ d, h.deviceAt m.devfn = some d ∧ a ∈ m.range ∧
    p = byte m.devfn m.bar (a - m.range.start)

/-- **The attached devices show the bytes `byte` in every fit world,** and accesses keep the world
fit. -/
structure Steady (devices : Attachment → Device σ) (h : Host) (byte : Backing)
    (fit : World σ → Prop) : Prop where
  /-- Payloads keep the world fit. -/
  access : ∀ devfn d, h.deviceAt devfn = some d → ∀ payload w, fit w →
    fit ((devices d).access payload w).2
  /-- Requests for windows keep the world fit. -/
  window : ∀ devfn d, h.deviceAt devfn = some d → ∀ bar range w, fit w →
    fit ((devices d).window bar range w).2
  /-- Bytes may be stored through any pointer. -/
  store : ∀ ptr data w, fit w → fit { w with storage := w.storage.store ptr data }
  /-- A device offers windows onto its bytes. -/
  offered : ∀ devfn d, h.deviceAt devfn = some d → ∀ bar range w v after, fit w →
    (devices d).window bar range w = (some v, after) →
      ∀ offset q ptr, v.Maps offset q ptr → ptr = byte devfn bar offset

/-- Only an attached device is sent a payload. -/
theorem exists_deviceAt_of_route {p q : Payload} {d : Attachment} (h : Host)
    (routed : h.route p = .toDevice d q) : ∃ devfn, h.deviceAt devfn = some d := by
  have bar : ∀ mappings, h.routeBar mappings p = .toDevice d q →
      ∃ devfn, h.deviceAt devfn = some d := by
    intro mappings routed
    unfold routeBar at routed
    split at routed
    · cases routed
    · dsimp only at routed
      split at routed
      · cases routed
      · split at routed
        · cases routed
        · next m _ _ _ device =>
            cases routed
            exact ⟨_, device⟩
  unfold route at routed
  split at routed
  · unfold routeConfig at routed
    dsimp only at routed
    split at routed
    · next device found =>
        cases routed
        split at found
        · exact ⟨_, found⟩
        · cases found
    · cases routed
  · exact bar _ routed
  · exact bar _ routed
  · cases routed

/-- A payload keeps the world fit. -/
theorem fit_perform (steady : h.Steady devices byte fit) (p : Payload) {w : World σ}
    (fits : fit w) : fit (h.perform devices p w).2 := by
  unfold perform
  split
  · exact fits
  · next d q routed =>
      obtain ⟨devfn, device⟩ := exists_deviceAt_of_route h routed
      exact steady.access devfn d device q w fits

/-- A request for a window keeps the world fit. -/
theorem fit_window (steady : h.Steady devices byte fit) (range : AddressRange)
    (attributes : Attributes) {w : World σ} (fits : fit w) :
    fit (h.window devices range attributes w).2 := by
  unfold window
  split
  · exact fits
  · split
    · exact fits
    · next m _ =>
        split
        · next place d _ device => exact steady.window _ d device m.bar place w fits
        · exact fits

/-- **A host offers what its registers show.** -/
theorem confined_target (registered : h.Registered) (steady : h.Steady devices byte fit) :
    (h.target devices).Confined fit fun a _ p => h.Shows byte a p where
  read := by
    intro range attributes buffer w fits
    simp only [target]
    split
    · exact fits
    · exact fit_perform steady _ fits
  write := by
    intro range attributes data w fits
    simp only [target]
    split
    · exact fits
    · exact fit_perform steady _ fits
  window := fun range attributes w fits => fit_window steady range attributes fits
  store := steady.store
  offered := by
    intro range attributes w v after fits granted a q p maps
    obtain ⟨m, d, grants⟩ := exists_grants registered granted
    obtain ⟨place, offered, -, asked, mapped⟩ := grants.offers
    obtain ⟨decoded, inside⟩ := (mapped a q p).1 maps
    exact ⟨m, List.mem_of_find?_eq_some grants.first, d, grants.device, decoded,
      steady.offered _ d grants.device _ _ _ _ _ fits asked _ q p inside⟩

/-! ### What changes of it -/

namespace Shows

variable {a : UInt64} {p : HostPointer} {after : Host}

/-- The mappings and devices of the registers are what counts. -/
theorem mono (shown : h.Shows byte a p) (mappings : ∀ m ∈ h.mmio, a ∈ m.range → m ∈ after.mmio)
    (devices : ∀ m ∈ h.mmio, a ∈ m.range → after.deviceAt m.devfn = h.deviceAt m.devfn) :
    after.Shows byte a p := by
  obtain ⟨m, mem, d, device, decoded, same⟩ := shown
  exact ⟨m, mappings m mem decoded, d, (devices m mem decoded).trans device, decoded, same⟩

/-- A device that is attached lends nothing to the registers of others. -/
theorem attach (shown : h.Shows byte a p) (registered : h.Registered) {devfn : UInt8}
    {device : Attachment} {ended : List AddressRange}
    (done : h.attach devfn device = (.ok (), ended, after)) {given : Backing}
    (others : ∀ other, other ≠ devfn → given other = byte other) : after.Shows given a p := by
  obtain ⟨free, -, rfl⟩ := attach_eq_ok_iff.1 done
  obtain ⟨m, mem, d, found, decoded, rfl⟩ := shown
  have other : m.devfn ≠ devfn := by
    rintro rfl
    have taken := registered.attached m (List.mem_append_left _ mem)
    rw [free] at taken
    cases taken
  refine ⟨m, mem, d, ?_, decoded, by rw [others _ other]⟩
  rw [deviceAt, Table.find?_insert, if_neg fun same => other (UInt8.toNat_inj.1 same)]
  exact found

/-- **An address outside the ranges that have ended is shown as before.** -/
theorem unmapWhere (shown : h.Shows byte a p) {ends : BarMapping → Bool}
    (outside : ∀ range ∈ (h.unmapWhere ends).1, a ∉ range) :
    (h.unmapWhere ends).2.Shows byte a p := by
  refine shown.mono (fun m mem decoded => ?_) fun _ _ _ => rfl
  refine List.mem_filter.2 ⟨mem, ?_⟩
  by_contra ended
  refine outside m.range (List.mem_map_of_mem (List.mem_filter.2 ⟨mem, ?_⟩)) decoded
  simpa using ended

theorem detach (shown : h.Shows byte a p) (registered : h.Registered) {devfn : UInt8}
    {ended : List AddressRange} (done : h.detach devfn = (.ok (), ended, after))
    (outside : ∀ range ∈ ended, a ∉ range) : after.Shows byte a p := by
  obtain ⟨same, rfl⟩ := detach_eq registered.numbered done
  refine (shown.unmapWhere fun range member => outside range ((same range).2 member)).mono
    (fun m mem _ => mem) fun m mem _ => ?_
  have other : m.devfn ≠ devfn := by simpa using (List.mem_filter.1 mem).2
  rw [deviceAt, Table.find?_erase, if_neg fun same => other (UInt8.toNat_inj.1 same)]
  rfl

theorem mapBar (shown : h.Shows byte a p) {devfn : UInt8} {bar : Bar} {ended : List AddressRange}
    (done : h.mapBar devfn bar = (.ok (), ended, after)) (outside : ∀ range ∈ ended, a ∉ range) :
    after.Shows byte a p := by
  obtain ⟨range, -, -, rfl, rfl⟩ := mapBar_eq_ok_iff.1 done
  refine (shown.unmapWhere outside).mono (fun m mem _ => ?_) fun m _ _ => ?_
  · unfold add
    split
    · exact mem
    · exact List.mem_append_left _ mem
  · unfold add
    split <;> rfl

end Shows

end Host

/-! ### A host and the gate to its memory -/

/-- **A host with the gate to its memory space,** the initiators that use that gate and no other,
and the bytes of the devices. -/
structure Bridge (σ : Type u) where
  /-- The host. -/
  host : Host
  /-- The gate and its initiators. -/
  port : Port σ
  /-- Which byte stands behind a place of a register. -/
  byte : Backing

namespace Bridge

variable {devices : Attachment → Device σ} {b : Bridge σ}

/-- A new gate to the memory space of a host, which gives the host its handle. -/
def opened (host : Host) (byte : Backing) (clock : Clock) (net : Network) (world : World σ)
    (initiators : List Initiator) : Bridge σ :=
  let port := Port.opened (host.config.gateConfig .mmio) clock net world initiators
  ⟨{ host with handles := host.handles ++ [port.station.gate.handle] }, port, byte⟩

/-- Replaces the host and takes back the windows over the ranges that have ended. -/
def update (b : Bridge σ) (host : Host) (ended : List AddressRange) : Option (Bridge σ) :=
  (b.port.station.network.withdrawAll host.handles ended).map fun net =>
    { b with
      host := host
      port := { b.port with station := { b.port.station with network := net } } }

/-- **The states that a host and its gate can come to** from the opening of the gate on, when the
caches of all initiators are empty.  An operation that fails leaves the host as it was, and one
whose withdrawals never end leads nowhere.  Accesses are made while the devices are steady; the
devices may change as they like between them, but not the bytes that they show. -/
inductive Reachable (devices : Attachment → Device σ) : Bridge σ → Prop
  /-- The gate has just been opened. -/
  | opened (config : HostConfig) (operations : List Host.Operation) (handles : List HandleId)
      (byte : Backing) (clock : Clock) (net : Network) (world : World σ)
      (initiators : List Initiator)
      (hollow : ∀ i ∈ initiators, net.HasCache i.cache ∧ (net.cache i.cache).windows = []) :
      Reachable devices
        (opened { Host.run config operations with handles := handles } byte clock net world
          initiators)
  /-- A device is attached, and shows bytes of its own. -/
  | attach {b : Bridge σ} (before : Reachable devices b) (devfn : UInt8) (device : Attachment)
      {host : Host} {ended : List AddressRange}
      (done : b.host.attach devfn device = (.ok (), ended, host)) (byte : Backing)
      (others : ∀ other, other ≠ devfn → byte other = b.byte other) :
      Reachable devices { b with host := host, byte := byte }
  /-- A device is detached. -/
  | detach {b : Bridge σ} (before : Reachable devices b) (devfn : UInt8) {host : Host}
      {ended : List AddressRange} (done : b.host.detach devfn = (.ok (), ended, host))
      {after : Bridge σ} (updated : b.update host ended = some after) : Reachable devices after
  /-- A register is mapped, perhaps after it was mapped elsewhere. -/
  | mapBar {b : Bridge σ} (before : Reachable devices b) (devfn : UInt8) (bar : Bar) {host : Host}
      {ended : List AddressRange} (done : b.host.mapBar devfn bar = (.ok (), ended, host))
      {after : Bridge σ} (updated : b.update host ended = some after) : Reachable devices after
  /-- A register is unmapped. -/
  | unmapBar {b : Bridge σ} (before : Reachable devices b) (devfn number : UInt8) {host : Host}
      {ended : List AddressRange} (done : b.host.unmapBar devfn number = (ended, host))
      {after : Bridge σ} (updated : b.update host ended = some after) : Reachable devices after
  /-- Something happens at the gate. -/
  | step {b : Bridge σ} (before : Reachable devices b) {fit : World σ → Prop}
      (steady : b.host.Steady devices b.byte fit) (fits : fit b.port.station.world) {port : Port σ}
      (step : Port.Step (b.host.target devices) b.port port) :
      Reachable devices { b with port := port }

/-- **What keeps windows within the registers that are mapped.** -/
structure Sound (b : Bridge σ) : Prop where
  /-- The mappings of the host are in order. -/
  registered : b.host.Registered
  /-- The host withdraws through the handle of the gate. -/
  wired : b.port.station.gate.handle ∈ b.host.handles
  /-- Withdrawals go no further than to the gate. -/
  last : (b.port.station.network.handle b.port.station.gate.handle).links = []
  /-- They reach what the gate remembers. -/
  remembered : b.port.station.gate.grants ∈
    (b.port.station.network.handle b.port.station.gate.handle).caches
  /-- They reach what the initiators have cached. -/
  shielded : b.port.station.Shielded b.port.users
  /-- All that is cached is shown. -/
  shown : b.port.station.Holds (fun _ => True) (fun a _ p => b.host.Shows b.byte a p) b.port.users

namespace Sound

/-- **A host that takes back the ranges that have ended stays sound,** if it shows everything else
as before. -/
theorem update (sound : b.Sound) {host : Host} {ended : List AddressRange} {after : Bridge σ}
    (updated : b.update host ended = some after) (registered : host.Registered)
    (handles : host.handles = b.host.handles)
    (still : ∀ a p, b.host.Shows b.byte a p → (∀ range ∈ ended, a ∉ range) →
      host.Shows b.byte a p) : after.Sound := by
  obtain ⟨net, withdrawn, rfl⟩ := Option.map_eq_some_iff.1 updated
  have wired : b.port.station.gate.handle ∈ host.handles := handles ▸ sound.wired
  obtain ⟨sheds, clears⟩ := Network.withdrawAll_spec withdrawn
  -- every cache that holds anything is bound to the gate, so the withdrawals have come to it
  have outside : ∀ c a q p, c ∈ (b.port.station.network.handle b.port.station.gate.handle).caches →
      net.Offers c a q p → ∀ range ∈ ended, a ∉ range := fun c a q p bound offers range member =>
    clears _ wired range member _ _ (.here _ _) c bound a q p offers
  refine ⟨registered, wired, ?_, ?_, ?_, trivial, ?_, ?_⟩
  · exact (congrArg Handle.links (sheds.handle _)).trans sound.last
  · exact (congrArg Handle.caches (sheds.handle _)) ▸ sound.remembered
  · refine sound.shielded.of_le rfl ?_ rfl (sheds.present _ sound.shielded.present)
      (fun c _ a q p => sheds.fewer c a q p) (List.Subset.refl _)
    exact fun c bound => (congrArg Handle.caches (sheds.handle _)) ▸ bound
  · intro a q p offers
    exact still a p (sound.shown.granted a q p (sheds.fewer _ a q p offers))
      (outside _ a q p sound.remembered offers)
  · intro c used a q p offers
    have old := sheds.fewer c a q p offers
    exact still a p (sound.shown.kept c used a q p old)
      (outside c a q p (sound.shielded.bound c used a q p old) offers)

/-- A device that is attached may show bytes of its own: nothing has been cached of it. -/
theorem attach (sound : b.Sound) {devfn : UInt8} {device : Attachment} {host : Host}
    {ended : List AddressRange} (done : b.host.attach devfn device = (.ok (), ended, host))
    {byte : Backing} (others : ∀ other, other ≠ devfn → byte other = b.byte other) :
    Sound { b with host := host, byte := byte } where
  registered := sound.registered.attach done
  wired := Host.handles_of_attempt (.attach devfn device) done ▸ sound.wired
  last := sound.last
  remembered := sound.remembered
  shielded := sound.shielded
  shown :=
    ⟨trivial,
      fun a q p offers => (sound.shown.granted a q p offers).attach sound.registered done others,
      fun c used a q p offers =>
        (sound.shown.kept c used a q p offers).attach sound.registered done others⟩

/-- The withdrawals of a host that withdraws through this gate alone come to an end. -/
theorem exists_update (sound : b.Sound) {host : Host} (handles : host.handles = b.host.handles)
    (alone : ∀ id ∈ b.host.handles, id = b.port.station.gate.handle) (ended : List AddressRange) :
    ∃ after, b.update host ended = some after := by
  obtain ⟨net, withdrawn⟩ := Network.exists_withdrawAll b.port.station.network host.handles ended
    fun id member range _ => by
      rw [alone id (handles ▸ member)]
      refine .intro fun link linked => ?_
      rw [sound.last] at linked
      exact absurd linked List.not_mem_nil
  exact ⟨_, Option.map_eq_some_iff.2 ⟨net, withdrawn, rfl⟩⟩

/-- **Whatever happens at the gate, everything cached is shown.** -/
theorem step (sound : b.Sound) {fit : World σ → Prop} (steady : b.host.Steady devices b.byte fit)
    (fits : fit b.port.station.world) {port : Port σ}
    (step : Port.Step (b.host.target devices) b.port port) : Sound { b with port := port } := by
  have settled := Port.settled_step step
  refine ⟨sound.registered, settled.handle ▸ sound.wired, ?_, ?_,
    Port.shielded_step sound.shielded step, ?_⟩
  · rw [settled.handle, settled.links, sound.last]
  · rw [settled.handle, settled.grants]
    exact settled.bound _ sound.remembered
  · exact Port.holds_step (Host.confined_target sound.registered steady) step
      (sound.shown.refit fits)

end Sound

/-- A gate that has just been opened is sound. -/
theorem sound_opened {host : Host} (registered : host.Registered) {byte : Backing} {clock : Clock}
    {net : Network} {world : World σ} {initiators : List Initiator}
    (hollow : ∀ i ∈ initiators, net.HasCache i.cache ∧ (net.cache i.cache).windows = []) :
    (opened host byte clock net world initiators).Sound where
  registered := ⟨registered.exact, registered.attached, registered.distinct⟩
  wired := List.mem_append_right _ List.mem_cons_self
  last := congrArg Handle.links ((Gate.handle_create _ net _).trans (if_pos rfl))
  remembered := by
    have bound := congrArg Handle.caches ((Gate.handle_create
      (host.config.gateConfig .mmio) net _).trans (if_pos rfl))
    exact bound ▸ List.mem_cons_self
  shielded := Port.shielded_opened hollow
  shown :=
    ⟨trivial, fun a q p offers => absurd offers (Port.not_offers_opened hollow (.inl rfl) a q p),
      fun c used a q p offers => absurd offers (Port.not_offers_opened hollow (.inr used) a q p)⟩

/-- **The invariant of all runs.** -/
theorem sound_of_reachable (reachable : b.Reachable devices) : b.Sound := by
  induction reachable with
  | opened config operations handles byte clock net world initiators hollow =>
      have registered := Host.registered_run config operations
      have known : ({ Host.run config operations with handles := handles } : Host).Registered :=
        ⟨registered.exact, registered.attached, registered.distinct⟩
      exact sound_opened known hollow
  | attach before devfn device done byte others ih =>
      exact ih.attach done others
  | detach before devfn done updated ih =>
      exact ih.update updated (ih.registered.detach done)
        (Host.handles_of_attempt (.detach devfn) done)
        fun a p shown outside => shown.detach ih.registered done outside
  | mapBar before devfn bar done updated ih =>
      exact ih.update updated (ih.registered.mapBar done)
        (Host.handles_of_attempt (.mapBar devfn bar) done)
        fun a p shown outside => shown.mapBar done outside
  | unmapBar before devfn number done updated ih =>
      cases done
      exact ih.update updated (ih.registered.unmapWhere _) rfl
        fun a p shown outside => shown.unmapWhere outside
  | step before steady fits step ih => exact ih.step steady fits step

/-- **No window outlives the mapping that it shows.**  Every address of a window that an initiator
has cached or that the gate remembers is decoded by a register that is mapped to memory and belongs
to an attached device, and the window points to the device's byte behind it. -/
theorem shows_of_window (reachable : b.Reachable devices) {c : CacheId}
    (holder : c ∈ b.port.users ∨ c = b.port.station.gate.grants) {w : DirectWindow}
    (cached : w ∈ (b.port.station.network.cache c).windows) {a : UInt64} (inside : a ∈ w.range) :
    b.host.Shows b.byte a (w.pointerFor a) := by
  have shown := (sound_of_reachable reachable).shown
  have offers := Network.offers_of_mem cached inside
  rcases holder with used | rfl
  · exact shown.kept c used a _ _ offers
  · exact shown.granted a _ _ offers

/-- A device that is attached alone shows its block. -/
theorem steady_showingBlocks (devfn : UInt8) (block : StorageId) {h : Host}
    (alone : h.devices = Table.empty.insert devfn.toNat ⟨block, true⟩) :
    h.Steady Host.showingBlocks (.ofBlock block) fun _ => True where
  access := fun _ _ _ _ _ _ => trivial
  window := fun _ _ _ _ _ _ _ => trivial
  store := fun _ _ _ _ => trivial
  offered := by
    intro other d found bar range w v after _ offered offset q p maps
    rw [Host.deviceAt, alone, Table.find?_insert] at found
    split at found
    · cases found
      cases offered
      rw [← maps.2.2, DirectWindow.pointerFor, UInt64.sub_zero]
      rfl
    · cases found

/-- A register is mapped elsewhere after an initiator has cached a window over it: no window is left
that shows it where it was. -/
theorem exists_register_moved : ∃ before after : Bridge Unit,
    before.Reachable Host.showingBlocks ∧
    (∃ i ∈ before.port.initiators, ∃ w ∈ (before.port.station.network.cache i.cache).windows,
      before.host.Shows before.byte 0x1010 (w.pointerFor 0x1010)) ∧
    (∃ host ended, before.host.mapBar 8 ⟨0, false, false, false, 0x9000, 0x100⟩ =
      (.ok (), ended, host) ∧ before.update host ended = some after) ∧
    ∀ c, c ∈ after.port.users ∨ c = after.port.station.gate.grants →
      ∀ w ∈ (after.port.station.network.cache c).windows, ∀ a ∈ w.range,
        0x9000 ≤ a ∧ a ≤ 0x90ff ∧ w.pointerFor a = ⟨some 0, a - 0x9000⟩ := by
  have opened : Reachable Host.showingBlocks
      (opened { Host.run .standard [] with handles := [] } (.ofBlock 0) .standard .empty
        ⟨.empty, ()⟩ []) :=
    .opened .standard [] [] _ .standard .empty ⟨.empty, ()⟩ [] (by simp)
  have attached := opened.attach 8 ⟨0, true⟩ rfl (.ofBlock 0) fun _ _ => rfl
  have mapped := attached.mapBar 8 ⟨0, false, false, false, 0x1000, 0x100⟩ rfl rfl
  have joined := mapped.step (steady_showingBlocks 8 0 rfl) trivial (.join _ 7 none)
  have cached := joined.step (steady_showingBlocks 8 0 rfl) trivial
    (.access _ _ List.mem_cons_self .read 0x1010 [0, 0, 0, 0] .plain _ _ _ rfl)
  obtain ⟨after, updated⟩ := (sound_of_reachable cached).exists_update
    (Host.handles_of_attempt (.mapBar 8 ⟨0, false, false, false, 0x9000, 0x100⟩) rfl)
    (fun id member => List.mem_singleton.1 member) [⟨0x1000, 0x10ff, by decide⟩]
  have moved := cached.mapBar 8 ⟨0, false, false, false, 0x9000, 0x100⟩ rfl updated
  refine ⟨_, after, cached, ⟨_, List.mem_cons_self, ⟨⟨0x1000, 0x10ff, by decide⟩, .toBlock 0,
    .readWrite⟩, List.mem_cons_self, ?_⟩, ⟨_, _, rfl, updated⟩, ?_⟩
  · exact shows_of_window cached (.inl ⟨_, List.mem_cons_self, rfl⟩) List.mem_cons_self (by decide)
  · intro c holder w member a inside
    obtain ⟨m, mem, -, -, decoded, same⟩ := shows_of_window moved holder member inside
    obtain ⟨net, -, rfl⟩ := Option.map_eq_some_iff.1 updated
    have only : m = ⟨8, 0, ⟨0x9000, 0x90ff, by decide⟩, 0x100⟩ := List.mem_singleton.1 mem
    subst only
    exact ⟨decoded.1, decoded.2,
      same.trans (congrArg (HostPointer.mk (some 0)) (UInt64.zero_add (a - 0x9000)))⟩

end Bridge

end Pci

end Interconnect
