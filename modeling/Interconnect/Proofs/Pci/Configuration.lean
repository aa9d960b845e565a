import Mathlib.Algebra.Group.Nat.Defs
import Interconnect.Proofs.Pci.Calls

/-!
# Configuration accesses

The fields of a configuration address stand side by side: the register lowest, the function above
it, and the bus on top.  Packing and unpacking undo one another on addresses that have room in the
layout, and the bits above the layout make no difference.  So an access to a packed address reaches
the function that it names, and no other.

## Main Definitions

* `ConfigAddress.busBits`, `ConfigAddress.offsetBits`, `ConfigAddress.width` — the two layouts
* `ConfigAddress.Fits` — the parts of an address have room in a layout

## Main Statements

* `ConfigAddress.toNat_encode`, `ConfigAddress.toNat_bus_decode`, `toNat_devfn_decode`,
  `toNat_offset_decode` — packed addresses as numbers
* `ConfigAddress.decode_encode`, `ConfigAddress.toNat_encode_decode` — there and back again
* `Host.perform_of_device`, `Host.perform_of_absent` — what a configuration access does
* `Host.access_of_encode` — what it does at a packed address, and at others
-/

namespace Interconnect.Pci

universe u

/-! ### The layouts -/

namespace ConfigAddress

/-- The number of bits for the bus. -/
def busBits (extended : Bool) : Nat := if extended then 9 else 8

/-- The number of bits for the register. -/
def offsetBits (extended : Bool) : Nat := if extended then 12 else 8

/-- The number of bits of an address. -/
def width (extended : Bool) : Nat := busBits extended + 8 + offsetBits extended

/-- Fields that do not overlap are put together by a sum. -/
private theorem or_eq_add {devfn offset k : Nat} (bus : Nat) (small : devfn < 2 ^ 8)
    (below : offset < 2 ^ k) :
    bus <<< (8 + k) ||| devfn <<< k ||| offset = bus * 2 ^ (8 + k) + devfn * 2 ^ k + offset := by
  rw [Nat.shiftLeft_add, ← Nat.shiftLeft_or_distrib, ← Nat.shiftLeft_add_eq_or_of_lt below,
    ← Nat.shiftLeft_add_eq_or_of_lt small, Nat.shiftLeft_eq, Nat.shiftLeft_eq, Nat.pow_add,
    Nat.add_mul, Nat.mul_assoc]

/-- What has been put together is taken apart by quotients and remainders. -/
private theorem unpack {bus devfn offset k x : Nat} (small : devfn < 2 ^ 8) (below : offset < 2 ^ k)
    (packed : x = bus * 2 ^ (8 + k) + devfn * 2 ^ k + offset) :
    x / 2 ^ (8 + k) = bus ∧ x / 2 ^ k % 2 ^ 8 = devfn ∧ x % 2 ^ k = offset := by
  have split : x = (bus * 2 ^ 8 + devfn) * 2 ^ k + offset := by
    rw [packed, Nat.pow_add, Nat.add_mul, Nat.mul_assoc]
  have upper : x / 2 ^ k = bus * 2 ^ 8 + devfn := by
    rw [split, Nat.add_comm, Nat.add_mul_div_right _ _ (Nat.two_pow_pos k), Nat.div_eq_of_lt below,
      Nat.zero_add]
  refine ⟨?_, ?_, ?_⟩
  · rw [Nat.pow_add, Nat.mul_comm, ← Nat.div_div_eq_div_mul, upper]
    omega
  · rw [upper]
    omega
  · rw [split, Nat.mul_add_mod_of_lt below]

/-- A field is not shifted out of the word. -/
private theorem toNat_shiftLeft_of_lt {field place : UInt64} (small : field.toNat < 2 ^ 9)
    (low : place.toNat ≤ 20) : (field <<< place).toNat = field.toNat <<< place.toNat := by
  have fits : field.toNat <<< place.toNat < 2 ^ 64 := by
    rw [Nat.shiftLeft_eq]
    calc field.toNat * 2 ^ place.toNat
        < 2 ^ 9 * 2 ^ 20 :=
          Nat.mul_lt_mul_of_lt_of_le small (Nat.pow_le_pow_right (by decide) low) (by decide)
      _ ≤ 2 ^ 64 := by decide
  have place_lt : place.toNat < 64 := by omega
  rw [UInt64.toNat_shiftLeft, Nat.mod_eq_of_lt place_lt, Nat.mod_eq_of_lt fits]

theorem toNat_encode (extended : Bool) (a : ConfigAddress) :
    (encode extended a).toNat =
      a.bus.toNat % 2 ^ busBits extended * 2 ^ (8 + offsetBits extended) +
        a.devfn.toNat * 2 ^ offsetBits extended + a.offset.toNat % 2 ^ offsetBits extended := by
  rw [← or_eq_add _ a.devfn.toNat_lt (Nat.mod_lt _ (Nat.two_pow_pos _)),
    ← Nat.and_two_pow_sub_one_eq_mod, ← Nat.and_two_pow_sub_one_eq_mod]
  have devfn : a.devfn.toUInt64.toNat < 2 ^ 9 := by
    have := a.devfn.toNat_lt
    rw [UInt8.toNat_toUInt64]
    omega
  cases extended with
  | false =>
      have bus : (a.bus.toUInt64 &&& 0xff).toNat < 2 ^ 9 := by
        rw [UInt64.toNat_and]
        exact Nat.lt_of_le_of_lt Nat.and_le_right (by decide)
      rw [encode, if_neg Bool.false_ne_true, UInt64.toNat_or, UInt64.toNat_or,
        toNat_shiftLeft_of_lt bus (by decide), toNat_shiftLeft_of_lt devfn (by decide)]
      simp only [UInt64.toNat_and, UInt16.toNat_toUInt64, UInt8.toNat_toUInt64]
      rfl
  | true =>
      have bus : (a.bus.toUInt64 &&& 0x1ff).toNat < 2 ^ 9 := by
        rw [UInt64.toNat_and]
        exact Nat.lt_of_le_of_lt Nat.and_le_right (by decide)
      rw [encode, if_pos rfl, UInt64.toNat_or, UInt64.toNat_or,
        toNat_shiftLeft_of_lt bus (by decide), toNat_shiftLeft_of_lt devfn (by decide)]
      simp only [UInt64.toNat_and, UInt16.toNat_toUInt64, UInt8.toNat_toUInt64]
      rfl

/-- A field is taken out of a word as a quotient and a remainder. -/
private theorem toNat_toUInt16_shiftRight {x place mask : UInt64} {bits : Nat}
    (low : place.toNat < 64) (ones : mask.toNat = 2 ^ bits - 1) (small : bits ≤ 16) :
    ((x >>> place) &&& mask).toUInt16.toNat = x.toNat / 2 ^ place.toNat % 2 ^ bits := by
  have fits : x.toNat / 2 ^ place.toNat % 2 ^ bits < 2 ^ 16 :=
    Nat.lt_of_lt_of_le (Nat.mod_lt _ (Nat.two_pow_pos bits))
      (Nat.pow_le_pow_right (by decide) small)
  rw [UInt64.toNat_toUInt16, UInt64.toNat_and, UInt64.toNat_shiftRight, ones,
    Nat.and_two_pow_sub_one_eq_mod, Nat.mod_eq_of_lt low, Nat.shiftRight_eq_div_pow,
    Nat.mod_eq_of_lt fits]

section

variable (extended : Bool) (x : UInt64)

theorem toNat_bus_decode :
    (decode extended x).bus.toNat =
      x.toNat / 2 ^ (8 + offsetBits extended) % 2 ^ busBits extended := by
  cases extended with
  | false => exact toNat_toUInt16_shiftRight (by decide) rfl (by decide)
  | true => exact toNat_toUInt16_shiftRight (by decide) rfl (by decide)

theorem toNat_devfn_decode :
    (decode extended x).devfn.toNat = x.toNat / 2 ^ offsetBits extended % 2 ^ 8 := by
  cases extended with
  | false =>
      rw [decode, if_neg Bool.false_ne_true, UInt64.toNat_toUInt8, UInt64.toNat_shiftRight,
        Nat.shiftRight_eq_div_pow]
      rfl
  | true =>
      rw [decode, if_pos rfl, UInt64.toNat_toUInt8, UInt64.toNat_shiftRight,
        Nat.shiftRight_eq_div_pow]
      rfl

theorem toNat_offset_decode :
    (decode extended x).offset.toNat = x.toNat % 2 ^ offsetBits extended := by
  have unshifted : x >>> 0 = x := UInt64.shiftRight_zero
  have whole : x.toNat / 2 ^ (0 : UInt64).toNat = x.toNat := Nat.div_one _
  cases extended with
  | false =>
      rw [decode, if_neg Bool.false_ne_true, ← unshifted,
        toNat_toUInt16_shiftRight (by decide) rfl (by decide : 8 ≤ 16), whole]
      rfl
  | true =>
      rw [decode, if_pos rfl, ← unshifted,
        toNat_toUInt16_shiftRight (by decide) rfl (by decide : 12 ≤ 16), whole]
      rfl

end

/-- **The fields have room in the layout.**  A function always has. -/
structure Fits (extended : Bool) (a : ConfigAddress) : Prop where
  /-- So has the bus. -/
  bus : a.bus.toNat < 2 ^ busBits extended
  /-- So has the register. -/
  offset : a.offset.toNat < 2 ^ offsetBits extended

/-- Whatever has been unpacked has room. -/
theorem fits_decode (extended : Bool) (x : UInt64) : (decode extended x).Fits extended where
  bus := by
    rw [toNat_bus_decode]
    exact Nat.mod_lt _ (Nat.two_pow_pos _)
  offset := by
    rw [toNat_offset_decode]
    exact Nat.mod_lt _ (Nat.two_pow_pos _)

/-- **What has room is found again.** -/
theorem decode_encode {extended : Bool} {a : ConfigAddress} (fits : a.Fits extended) :
    decode extended (encode extended a) = a := by
  have packed := toNat_encode extended a
  rw [Nat.mod_eq_of_lt fits.bus, Nat.mod_eq_of_lt fits.offset] at packed
  obtain ⟨bus, devfn, offset⟩ := unpack a.devfn.toNat_lt fits.offset packed
  have bus_eq : (decode extended (encode extended a)).bus = a.bus := by
    rw [← UInt16.toNat_inj, toNat_bus_decode, bus, Nat.mod_eq_of_lt fits.bus]
  have devfn_eq : (decode extended (encode extended a)).devfn = a.devfn := by
    rw [← UInt8.toNat_inj, toNat_devfn_decode, devfn]
  have offset_eq : (decode extended (encode extended a)).offset = a.offset := by
    rw [← UInt16.toNat_inj, toNat_offset_decode, offset]
  rcases a with ⟨_, _, _⟩
  exact congr (congr (congrArg mk bus_eq) devfn_eq) offset_eq

/-- **Packing again what has been unpacked clears the bits above the layout.** -/
theorem toNat_encode_decode (extended : Bool) (x : UInt64) :
    (encode extended (decode extended x)).toNat = x.toNat % 2 ^ width extended := by
  rw [toNat_encode, toNat_bus_decode, toNat_devfn_decode, toNat_offset_decode, Nat.mod_mod,
    Nat.mod_mod]
  cases extended with
  | false =>
      simp only [busBits, offsetBits, width, Bool.false_eq_true, ↓reduceIte]
      omega
  | true =>
      simp only [busBits, offsetBits, width, ↓reduceIte]
      omega

/-- Addresses that agree in the bits of the layout name the same register. -/
theorem decode_congr {extended : Bool} {x y : UInt64}
    (same : x.toNat % 2 ^ width extended = y.toNat % 2 ^ width extended) :
    decode extended x = decode extended y := by
  have packed : encode extended (decode extended x) = encode extended (decode extended y) := by
    rw [← UInt64.toNat_inj, toNat_encode_decode, toNat_encode_decode, same]
  rw [← decode_encode (fits_decode extended x), packed, decode_encode (fits_decode extended y)]

end ConfigAddress

/-! ### Accesses -/

/-- The same access at another address. -/
def Payload.withAddress (p : Payload) (address : UInt64) : Payload := { p with address := address }

/-- The host's own answer to a configuration access: a read has all ones. -/
def Payload.unclaimed (p : Payload) : Payload :=
  { p with
    status := .success
    data := if p.command = .read then p.mask else p.data }

@[simp] theorem Payload.space_withAddress (p : Payload) (address : UInt64) :
    (p.withAddress address).space = p.space := rfl

/-- The mask of a payload has a one for each bit of its bytes, of which a word holds eight. -/
theorem Payload.toNat_mask (p : Payload) : p.mask.toNat = 2 ^ (8 * min p.size.toNat 8) - 1 := by
  have eight : (8 : UInt32).toNat = 8 := rfl
  unfold mask
  split
  · next short =>
      rw [UInt32.lt_iff_toNat_lt, eight] at short
      have bits : (8 * p.size.toUInt64).toNat = 8 * p.size.toNat := by
        rw [UInt64.toNat_mul, UInt32.toNat_toUInt64]
        exact Nat.mod_eq_of_lt (by omega : 8 * p.size.toNat < 2 ^ 64)
      have power : ((1 : UInt64) <<< (8 * p.size.toUInt64)).toNat = 2 ^ (8 * p.size.toNat) := by
        have low : 8 * p.size.toNat < 64 := by omega
        have fits : 2 ^ (8 * p.size.toNat) < 2 ^ 64 := Nat.pow_lt_pow_right (by decide) low
        rw [UInt64.toNat_shiftLeft, bits, Nat.mod_eq_of_lt low, UInt64.toNat_one,
          Nat.shiftLeft_eq, Nat.one_mul, Nat.mod_eq_of_lt fits]
      have positive : (1 : UInt64) ≤ 1 <<< (8 * p.size.toUInt64) := by
        rw [UInt64.le_iff_toNat_le, power]
        exact Nat.two_pow_pos _
      rw [UInt64.toNat_sub_of_le _ _ positive, power, UInt64.toNat_one, Nat.min_eq_left (by omega)]
  · next long =>
      rw [UInt32.lt_iff_toNat_lt, eight, Nat.not_lt] at long
      rw [Nat.min_eq_right long]
      rfl

namespace Host

variable {σ : Type u} {devices : Attachment → Device σ} {h : Host} {p : Payload} {world : World σ}

/-- The device of the function that a configuration address names, if it is there. -/
def functionAt (h : Host) (place : ConfigAddress) : Option Attachment :=
  if place.bus = 0 then h.deviceAt place.devfn else none

theorem functionAt_eq_some_iff {place : ConfigAddress} {device : Attachment} :
    h.functionAt place = some device ↔ place.bus = 0 ∧ h.deviceAt place.devfn = some device := by
  simp [functionAt]

theorem functionAt_eq_none_iff {place : ConfigAddress} :
    h.functionAt place = none ↔ place.bus ≠ 0 ∨ h.deviceAt place.devfn = none := by
  simp [functionAt, or_iff_not_imp_left]

/-- **Where a configuration access goes** depends on the parts of its address. -/
theorem route_withAddress (space : p.space = .config) {x : UInt64} {place : ConfigAddress}
    (names : ConfigAddress.decode h.config.extended x = place) :
    h.route (p.withAddress x) = match h.functionAt place with
      | some device => .toDevice device (p.withAddress place.offset.toUInt64)
      | none => .answered (p.unclaimed.withAddress x) := by
  subst names
  simp only [route, Payload.space_withAddress, space]
  rfl

/-- **An access to a function that is there** is one call to its device.  An address that the device
refuses reads as zero. -/
theorem perform_of_device (space : p.space = .config) {x : UInt64} {place : ConfigAddress}
    (names : ConfigAddress.decode h.config.extended x = place) {device : Attachment}
    (there : h.functionAt place = some device) :
    h.calls devices (p.withAddress x) world =
        [.access device (p.withAddress place.offset.toUInt64)] ∧
      h.perform devices (p.withAddress x) world =
        let (answer, after) := (devices device).access (p.withAddress place.offset.toUInt64) world
        (if answer.status = .addressError then { answer with status := .success, data := 0 }
          else answer, after) := by
  have route := route_withAddress space names
  rw [there] at route
  obtain ⟨performed, called⟩ := of_route_toDevice devices world route
  refine ⟨called, performed.trans ?_⟩
  simp [settle, space]

/-- **An access to any other function** is no call and succeeds: a read has all ones. -/
theorem perform_of_absent (space : p.space = .config) {x : UInt64} {place : ConfigAddress}
    (names : ConfigAddress.decode h.config.extended x = place)
    (absent : h.functionAt place = none) :
    h.calls devices (p.withAddress x) world = [] ∧
      h.perform devices (p.withAddress x) world = (p.unclaimed.withAddress x, world) := by
  have route := route_withAddress space names
  rw [absent] at route
  exact (of_route_answered devices world route).symm

variable (devices world) in
/-- **Two accesses that name the same register make the same call and leave the same behind.**
Their answers differ at most in the address, which is kept where no device is called. -/
theorem perform_congr (space : p.space = .config) {x y : UInt64}
    (same : ConfigAddress.decode h.config.extended x = ConfigAddress.decode h.config.extended y) :
    h.calls devices (p.withAddress x) world = h.calls devices (p.withAddress y) world ∧
      (h.perform devices (p.withAddress x) world).2 =
        (h.perform devices (p.withAddress y) world).2 ∧
      (h.perform devices (p.withAddress x) world).1.withAddress 0 =
        (h.perform devices (p.withAddress y) world).1.withAddress 0 := by
  rw [calls_eq, calls_eq, perform, perform, route_withAddress space same,
    route_withAddress space rfl]
  cases h.functionAt (ConfigAddress.decode h.config.extended y) with
  | some device => exact ⟨rfl, rfl, rfl⟩
  | none => exact ⟨rfl, rfl, rfl⟩

/-- The payload for a configuration access, if there is one, differs only in its address from that
for another. -/
theorem payload_config {attributes : Attributes} (config : attributes.space = Space.config.tag)
    (command : Command) (range : AddressRange) (length : Nat) (data : UInt64) :
    h.payload command range length data attributes =
      if length = 0 || h.config.maxAccessSize.toNat < length || 8 < length then
        .error .commandError
      else
        .ok ((⟨command, .incomplete, .config, 0, data, UInt32.ofNat length, attributes.debug⟩ :
          Payload).withAddress range.start) := by
  have known : Space.ofTag? attributes.space = some .config := by
    rw [config]
    rfl
  simp only [payload, known, Payload.withAddress]

/-- Whoever asks the host as a target does not even see the address of the answer. -/
theorem target_congr {attributes : Attributes} (config : attributes.space = Space.config.tag)
    {range other : AddressRange}
    (same : ConfigAddress.decode h.config.extended range.start =
      ConfigAddress.decode h.config.extended other.start) (bytes : Bytes) :
    (h.target devices).read range attributes bytes world =
        (h.target devices).read other attributes bytes world ∧
      (h.target devices).write range attributes bytes world =
        (h.target devices).write other attributes bytes world := by
  simp only [target, payload_config config]
  by_cases refused : (bytes.length = 0 || h.config.maxAccessSize.toNat < bytes.length ||
      8 < bytes.length) = true
  · simp only [refused, if_true, and_self]
  · simp only [refused, Bool.false_eq_true, ↓reduceIte]
    have agree : ∀ p : Payload, p.space = .config →
        (h.perform devices (p.withAddress range.start) world).2 =
            (h.perform devices (p.withAddress other.start) world).2 ∧
          (h.perform devices (p.withAddress range.start) world).1.status =
            (h.perform devices (p.withAddress other.start) world).1.status ∧
          (h.perform devices (p.withAddress range.start) world).1.value =
            (h.perform devices (p.withAddress other.start) world).1.value := by
      intro p space
      obtain ⟨-, after, answer⟩ := perform_congr devices world space same
      exact ⟨after, (congrArg Payload.status answer :), (congrArg Payload.value answer :)⟩
    obtain ⟨after, status, value⟩ := agree ⟨.read, .incomplete, .config, 0, 0,
      UInt32.ofNat bytes.length, attributes.debug⟩ rfl
    obtain ⟨after', status', -⟩ := agree ⟨.write, .incomplete, .config, 0, Bytes.toWord bytes,
      UInt32.ofNat bytes.length, attributes.debug⟩ rfl
    rw [after, status, value, after', status']
    exact ⟨rfl, rfl⟩

/-- **Configuration accesses reach the function that is addressed, and nothing else.**  At a packed
address the three parts are found again; the access is one call to the device of the function, in
whose answer an address error reads as zero, or no call and a success with all ones if the function
is not there.  Addresses that agree in the bits of the layout are packed alike, and accesses to them
do the same. -/
theorem access_of_encode (devices : Attachment → Device σ) (h : Host) (world : World σ) :
    (∀ a : ConfigAddress, a.Fits h.config.extended →
      ConfigAddress.decode h.config.extended (a.encode h.config.extended) = a ∧
      ∀ p : Payload, p.space = .config → p.address = a.encode h.config.extended →
        (∀ d, a.bus = 0 → h.deviceAt a.devfn = some d →
          h.calls devices p world = [.access d (p.withAddress a.offset.toUInt64)] ∧
          h.perform devices p world =
            let (answer, after) := (devices d).access (p.withAddress a.offset.toUInt64) world
            (if answer.status = .addressError then { answer with status := .success, data := 0 }
              else answer, after)) ∧
        (a.bus ≠ 0 ∨ h.deviceAt a.devfn = none →
          h.calls devices p world = [] ∧ h.perform devices p world =
            ({ p with
                status := .success
                data := if p.command = .read then
                  UInt64.ofNat (2 ^ (8 * min p.size.toNat 8) - 1) else p.data }, world))) ∧
    (∀ x, (ConfigAddress.encode h.config.extended
        (ConfigAddress.decode h.config.extended x)).toNat =
      x.toNat % 2 ^ ConfigAddress.width h.config.extended) ∧
    ∀ x y : UInt64, x.toNat % 2 ^ ConfigAddress.width h.config.extended =
        y.toNat % 2 ^ ConfigAddress.width h.config.extended →
      (∀ p : Payload, p.space = .config →
        h.calls devices (p.withAddress x) world =
          h.calls devices (p.withAddress y) world ∧
        (h.perform devices (p.withAddress x) world).2 =
          (h.perform devices (p.withAddress y) world).2 ∧
        (h.perform devices (p.withAddress x) world).1.withAddress 0 =
          (h.perform devices (p.withAddress y) world).1.withAddress 0) ∧
      ∀ (range other : AddressRange) (attributes : Attributes) (bytes : Bytes),
        range.start = x → other.start = y → attributes.space = Space.config.tag →
        (h.target devices).read range attributes bytes world =
            (h.target devices).read other attributes bytes world ∧
          (h.target devices).write range attributes bytes world =
            (h.target devices).write other attributes bytes world := by
  refine ⟨fun a fits => ⟨ConfigAddress.decode_encode fits, fun p space address => ?_⟩,
    ConfigAddress.toNat_encode_decode _, fun x y same => ?_⟩
  · have names : ConfigAddress.decode h.config.extended p.address = a := by
      rw [address, ConfigAddress.decode_encode fits]
    refine ⟨fun d bus there =>
      perform_of_device space names (functionAt_eq_some_iff.2 ⟨bus, there⟩), fun absent => ?_⟩
    rw [← p.toNat_mask, UInt64.ofNat_toNat]
    exact perform_of_absent (p := p) space names (functionAt_eq_none_iff.2 absent)
  · have named := ConfigAddress.decode_congr same
    refine ⟨fun p space => perform_congr devices world space named, ?_⟩
    rintro range other attributes bytes rfl rfl config
    exact target_congr config named bytes

/-- A host of the extended layout with one device, the first function of the second slot. -/
def wideHost : Host :=
  (vacant ⟨true, 4⟩ []).follow [.operation (.attach 8 ⟨0, true⟩)]

/-- Devices that refuse every address. -/
def refusing (_ : Attachment) : Device Unit :=
  { Device.silent Unit with access := fun p world => ({ p with status := .addressError }, world) }

/-- The register at the upper end of a function's is refused by its device and reads as zero, and
another bus is not there. -/
theorem exists_access_of_encode :
    (⟨0, 8, 0xffc⟩ : ConfigAddress).Fits true ∧
      ConfigAddress.encode true ⟨0, 8, 0xffc⟩ = 0x8ffc ∧
      wideHost.perform refusing ⟨.read, .incomplete, .config, 0x8ffc, 0, 4, false⟩ ⟨.empty, ()⟩ =
        (⟨.read, .success, .config, 0xffc, 0, 4, false⟩, ⟨.empty, ()⟩) ∧
      wideHost.perform refusing ⟨.read, .incomplete, .config, 0x1ff08ffc, 0, 4, false⟩
          ⟨.empty, ()⟩ =
        (⟨.read, .success, .config, 0x1ff08ffc, 0xffffffff, 4, false⟩, ⟨.empty, ()⟩) := by
  have near : (⟨0, 8, 0xffc⟩ : ConfigAddress).Fits true := ⟨by decide, by decide⟩
  have far : (⟨0x1ff, 8, 0xffc⟩ : ConfigAddress).Fits true := ⟨by decide, by decide⟩
  obtain ⟨reaches, -⟩ := access_of_encode refusing wideHost ⟨.empty, ()⟩
  refine ⟨near, by decide, ?_, ?_⟩
  · exact (((reaches _ near).2 ⟨.read, .incomplete, .config, 0x8ffc, 0, 4, false⟩ rfl
      (by decide)).1 ⟨0, true⟩ rfl rfl).2
  · exact (((reaches _ far).2 ⟨.read, .incomplete, .config, 0x1ff08ffc, 0, 4, false⟩ rfl
      (by decide)).2 (.inl (by decide))).2

end Host

end Interconnect.Pci
