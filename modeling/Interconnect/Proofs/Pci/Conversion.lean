import Mathlib.Data.Nat.Digits.Lemmas
import Interconnect.Platform
import Interconnect.Proofs.Pci.Configuration

/-!
# Words and bytes at a PCI host

A host turns the bytes of a write into the word that its devices see, and the word that a device
leaves into the bytes of a read.  The two conversions belong to a library that gives up on what does
not fit, and an access then ends without a response.

A write never ends so: the host converts as many bytes as a register has, and any bytes make a word.
A read converts what its device leaves.  The host cuts the data to the size of the payload before it
converts them, and the size is the device's to change.  A device that leaves it alone may leave any
data and any status.  One that makes it larger may leave a number that the buffer has no room for.

## Main Definitions

* `Bytes.total` — the number that bytes stand for, the least significant first
* `Pci.Codec`, `Pci.Codec.Sound` — the conversions, and what is known of them
* `Host.readThrough`, `Host.writeThrough` — reads and writes that give up when a conversion does
* `Host.readCalls`, `Host.writeCalls` — the calls to devices that they make
* `Payload.Overruns` — more bytes count than a buffer has, and their number needs them
* `Host.Declines`, `Host.Presents`, `Host.Fills` — what becomes of the bytes

## Main Statements

* `Bytes.total_ofWord`, `Bytes.toNat_toWord`, `Bytes.ofWord_toWord` — there and back again
* `Host.conversion` — what reads and writes of every length do, and when a read gives up
* `Host.target_read_eq`, `Host.target_write_eq` — the accesses of the interconnect are those that do
  not give up
* `Platform.readThrough_eq` — no read gives up at the devices of a platform
-/

namespace Interconnect

universe u

/-! ### Numbers of bytes -/

namespace Bytes

/-- **The number that bytes stand for,** the least significant first. -/
def total (bytes : Bytes) : Nat := Nat.ofDigits 256 (bytes.map UInt8.toNat)

@[simp] theorem total_nil : total [] = 0 := rfl

@[simp] theorem total_cons (b : UInt8) (bytes : Bytes) :
    total (b :: bytes) = b.toNat + 256 * total bytes := by
  simp [total, Nat.ofDigits_cons]

theorem total_lt (bytes : Bytes) : total bytes < 256 ^ bytes.length := by
  have digits : ∀ d ∈ bytes.map UInt8.toNat, d < 256 := by
    simp only [List.mem_map, forall_exists_index, and_imp]
    rintro d b - rfl
    exact b.toNat_lt
  simpa [total] using Nat.ofDigits_lt_base_pow_length (by decide) digits

/-- Bytes that are as many and stand for the same number are the same. -/
theorem eq_of_total_eq {bytes other : Bytes} (long : bytes.length = other.length)
    (same : total bytes = total other) : bytes = other := by
  induction bytes generalizing other with
  | nil => exact (List.length_eq_zero_iff.1 long.symm).symm
  | cons b rest ih =>
      cases other with
      | nil => cases long
      | cons c tail =>
          have := b.toNat_lt
          have := c.toNat_lt
          simp only [total_cons] at same
          have low : b = c := UInt8.toNat_inj.1 (by omega)
          rw [low, ih (Nat.succ.inj long) (by omega)]

/-- Without its last byte, a word is a quotient. -/
private theorem toNat_rest (w : UInt64) : (w >>> 8).toNat = w.toNat / 256 := by
  rw [UInt64.toNat_shiftRight, Nat.shiftRight_eq_div_pow]
  rfl

/-- The low bytes of a word stand for its remainder. -/
theorem total_ofWord (count : Nat) (w : UInt64) :
    total (ofWord count w) = w.toNat % 256 ^ count := by
  induction count generalizing w with
  | zero => simp [ofWord, Nat.mod_one]
  | succ count ih =>
      have low : w.toUInt8.toNat = w.toNat % 256 := UInt64.toNat_toUInt8 w
      rw [ofWord, total_cons, ih, toNat_rest, low, Nat.pow_succ', Nat.mod_mul]

/-- The low digits of a number are those of its remainder. -/
theorem digit_mod {count i : Nat} (x : Nat) (below : i < count) :
    x % 256 ^ count / 256 ^ i % 256 = x / 256 ^ i % 256 := by
  have whole : 256 ^ count = 256 ^ i * 256 ^ (count - i) := by
    rw [← Nat.pow_add, Nat.add_sub_cancel' below.le]
  rw [whole, Nat.mod_mul_right_div_self, Nat.mod_mod_of_dvd]
  exact dvd_pow_self 256 (Nat.sub_ne_zero_of_lt below)

/-- Each byte of a word is a digit of its number. -/
theorem getElem?_ofWord {count i : Nat} (w : UInt64) (below : i < count) :
    (ofWord count w)[i]? = some (UInt8.ofNat (w.toNat / 256 ^ i)) := by
  induction count generalizing w i with
  | zero => cases below
  | succ count ih =>
      cases i with
      | zero =>
          rw [Nat.pow_zero, Nat.div_one]
          rfl
      | succ i =>
          rw [ofWord, List.getElem?_cons_succ, ih _ (Nat.lt_of_succ_lt_succ below), toNat_rest,
            Nat.div_div_eq_div_mul, Nat.pow_succ']

/-- Up to eight bytes make the word that has their number. -/
theorem toNat_toWord {bytes : Bytes} (short : bytes.length ≤ 8) :
    (toWord bytes).toNat = total bytes := by
  induction bytes with
  | nil => rfl
  | cons b rest ih =>
      have below : rest.length ≤ 7 := Nat.le_of_succ_le_succ short
      have fits : total rest * 2 ^ 8 < 2 ^ 64 := by
        have room : 256 ^ rest.length ≤ 256 ^ 7 := Nat.pow_le_pow_right (by decide) below
        have := total_lt rest
        omega
      have moved : (toWord rest <<< 8).toNat = total rest <<< 8 := by
        rw [UInt64.toNat_shiftLeft, ih (by omega)]
        rw [Nat.shiftLeft_eq, Nat.mod_eq_of_lt]
        · rw [Nat.shiftLeft_eq]
          rfl
        · exact fits
      rw [toWord, total_cons, UInt64.toNat_or, moved, UInt8.toNat_toUInt64, Nat.or_comm,
        ← Nat.shiftLeft_add_eq_or_of_lt b.toNat_lt, Nat.shiftLeft_eq]
      omega

/-- **What is written reads back:** bytes that make a word are those of the word. -/
theorem ofWord_toWord {bytes : Bytes} (short : bytes.length ≤ 8) :
    ofWord bytes.length (toWord bytes) = bytes := by
  refine eq_of_total_eq (length_ofWord _ _) ?_
  rw [total_ofWord, toNat_toWord short, Nat.mod_eq_of_lt (total_lt bytes)]

end Bytes

namespace Pci

/-- Nine spaces are known: three of a host, and six of the registers of a device. -/
theorem Space.ofTag?_eq_none_iff {tag : SpaceTag} : ofTag? tag = none ↔ 9 ≤ tag.toNat := by
  unfold ofTag?
  split
  · next number => simp [number]
  · next number => simp [number]
  · next number => simp [number]
  · next n number =>
      rw [number, barCount, ite_eq_right_iff]
      simp only [reduceCtorEq, imp_false]
      omega

/-- The data that count are those in the bytes of the payload, of which a word holds eight. -/
theorem Payload.toNat_value (p : Payload) :
    p.value.toNat = p.data.toNat % 256 ^ min p.size.toNat 8 := by
  rw [value, UInt64.toNat_and, toNat_mask, Nat.and_two_pow_sub_one_eq_mod, Nat.pow_mul]

/-- **More bytes count than a buffer has,** and their number needs them. -/
def Payload.Overruns (p : Payload) (room : Nat) : Prop :=
  room < p.size.toNat ∧ 256 ^ room ≤ p.data.toNat % 256 ^ min p.size.toNat 8

instance (p : Payload) (room : Nat) : Decidable (p.Overruns room) :=
  inferInstanceAs (Decidable (_ ∧ _))

/-- The data that count overrun a buffer exactly if they do not fit in it as a number. -/
theorem Payload.overruns_iff {p : Payload} {room : Nat} :
    p.Overruns room ↔ 256 ^ room ≤ p.value.toNat := by
  rw [Overruns, toNat_value, and_iff_right_iff_imp]
  intro large
  by_contra narrow
  have below : p.data.toNat % 256 ^ min p.size.toNat 8 < 256 ^ min p.size.toNat 8 :=
    Nat.mod_lt _ (Nat.pow_pos (by decide))
  have room' : 256 ^ min p.size.toNat 8 ≤ 256 ^ room :=
    Nat.pow_le_pow_right (by decide) (by omega)
  omega

/-- **A digit of the data that count** is one of the data, up to the size of the payload. -/
theorem Payload.digit_value (p : Payload) {i : Nat} (below : i < 8) :
    p.value.toNat / 256 ^ i % 256 =
      if i < p.size.toNat then p.data.toNat / 256 ^ i % 256 else 0 := by
  rw [toNat_value]
  split
  · exact Bytes.digit_mod _ (by omega)
  · have small : p.data.toNat % 256 ^ min p.size.toNat 8 < 256 ^ i :=
      Nat.lt_of_lt_of_le (Nat.mod_lt _ (Nat.pow_pos (by decide)))
        (Nat.pow_le_pow_right (by decide) (by omega))
    rw [Nat.div_eq_of_lt small]

/-! ### Conversions that may give up -/

/-- **The conversions of a library,** with the number of bytes to convert.  Either may give up. -/
structure Codec where
  /-- A word in the first bytes of a buffer. -/
  put : (buffer : Bytes) → UInt64 → (count : Nat) → Option Bytes
  /-- The word in the first bytes of a buffer. -/
  get : (buffer : Bytes) → (count : Nat) → Option UInt64

/-- **What is known of the conversions:** with one to eight bytes that are there, and with a word
that fits in them, both succeed and put the least significant byte first.  A word that does not fit
is not put. -/
structure Codec.Sound (c : Codec) : Prop where
  /-- A word is put in the first bytes. -/
  put : ∀ (buffer : Bytes) (w : UInt64) (count : Nat), 1 ≤ count → count ≤ 8 →
    count ≤ buffer.length → w.toNat < 256 ^ count →
    ∃ bytes : Bytes, bytes.length = count ∧ bytes.total = w.toNat ∧
      c.put buffer w count = some (bytes ++ buffer.drop count)
  /-- A word with more bytes is refused. -/
  refuse : ∀ (buffer : Bytes) (w : UInt64) (count : Nat), 256 ^ count ≤ w.toNat →
    c.put buffer w count = none
  /-- The word of the first bytes. -/
  get : ∀ (buffer : Bytes) (count : Nat), 1 ≤ count → count ≤ 8 → count ≤ buffer.length →
    ∃ w : UInt64, w.toNat = Bytes.total (buffer.take count) ∧ c.get buffer count = some w

/-- The device leaves the size of every payload as it is. -/
def Device.KeepsSize {σ : Type u} (d : Device σ) : Prop :=
  ∀ p world, (d.access p world).1.size = p.size

namespace Codec.Sound

variable {c : Codec}

/-- A whole buffer is filled with the low bytes of a word that fits. -/
theorem put_all (sound : c.Sound) {buffer : Bytes} {w : UInt64} (one : 1 ≤ buffer.length)
    (eight : buffer.length ≤ 8) (fits : w.toNat < 256 ^ buffer.length) :
    c.put buffer w buffer.length = some (Bytes.ofWord buffer.length w) := by
  obtain ⟨bytes, long, number, put⟩ :=
    sound.put buffer w buffer.length one eight (Nat.le_refl _) fits
  have same : bytes = Bytes.ofWord buffer.length w := by
    refine Bytes.eq_of_total_eq (by rw [long, Bytes.length_ofWord]) ?_
    rw [number, Bytes.total_ofWord, Nat.mod_eq_of_lt fits]
  rw [put, same, List.drop_length, List.append_nil]

/-- A whole buffer is taken as a word. -/
theorem get_all (sound : c.Sound) {buffer : Bytes} (one : 1 ≤ buffer.length)
    (eight : buffer.length ≤ 8) : c.get buffer buffer.length = some (Bytes.toWord buffer) := by
  obtain ⟨w, number, get⟩ := sound.get buffer buffer.length one eight (Nat.le_refl _)
  rw [List.take_length, ← Bytes.toNat_toWord eight] at number
  rw [get, UInt64.toNat_inj.1 number]

end Codec.Sound

/-- The conversions, giving up on everything else. -/
def Codec.littleEndian : Codec where
  put := fun buffer w count =>
    if 1 ≤ count ∧ count ≤ 8 ∧ count ≤ buffer.length ∧ w.toNat < 256 ^ count then
      some (Bytes.ofWord count w ++ buffer.drop count)
    else none
  get := fun buffer count =>
    if 1 ≤ count ∧ count ≤ 8 ∧ count ≤ buffer.length then some (Bytes.toWord (buffer.take count))
    else none

theorem Codec.sound_littleEndian : Codec.littleEndian.Sound where
  put := by
    intro buffer w count one eight there fits
    refine ⟨Bytes.ofWord count w, Bytes.length_ofWord _ _, ?_, if_pos ⟨one, eight, there, fits⟩⟩
    rw [Bytes.total_ofWord, Nat.mod_eq_of_lt fits]
  refuse := fun buffer w count large => if_neg fun fits => Nat.not_lt_of_le large fits.2.2.2
  get := by
    intro buffer count one eight there
    refine ⟨_, Bytes.toNat_toWord ?_, if_pos ⟨one, eight, there⟩⟩
    rw [List.length_take]
    omega

namespace Host

variable {σ : Type u}

/-- **A read through the conversions,** with the buffer and the world that it leaves.  It has no
response when the bytes of the answer cannot be had.  They are needed only if the payload succeeds,
and the payload has been carried out by then. -/
def readThrough (c : Codec) (devices : Attachment → Device σ) (h : Host) (range : AddressRange)
    (attributes : Attributes) (buffer : Bytes) (world : World σ) :
    Option Response × Bytes × World σ :=
  match h.payload .read range buffer.length 0 attributes with
  | .error response => (some response, buffer, world)
  | .ok p =>
    let (p, world) := h.perform devices p world
    if p.status = .success then
      match c.put buffer p.value buffer.length with
      | none => (none, buffer, world)
      | some filled => (some p.status.toResponse, filled, world)
    else (some p.status.toResponse, buffer, world)

/-- **A write through the conversions,** with the world that it leaves.  It has no response when its
bytes cannot be had as a word.  They are converted before the payload is carried out. -/
def writeThrough (c : Codec) (devices : Attachment → Device σ) (h : Host) (range : AddressRange)
    (attributes : Attributes) (data : Bytes) (world : World σ) : Option Response × World σ :=
  match h.payload .write range data.length 0 attributes with
  | .error response => (some response, world)
  | .ok p =>
    match c.get data data.length with
    | none => (none, world)
    | some word =>
      let (p, world) := h.perform devices { p with data := word } world
      (some p.status.toResponse, world)

/-! ### The payload of an access -/

/-- The payload that the host makes of an access. -/
def request (command : Command) (space : Space) (range : AddressRange) (attributes : Attributes)
    (length : Nat) (data : UInt64) : Payload :=
  ⟨command, .incomplete, space, range.start, data, UInt32.ofNat length, attributes.debug⟩

/-- **An access has a payload** if its space is known and its length that of a register within the
limit. -/
theorem payload_eq (h : Host) (command : Command) (range : AddressRange) (length : Nat)
    (data : UInt64) (attributes : Attributes) :
    h.payload command range length data attributes =
      match Space.ofTag? attributes.space with
      | none => .error .addressError
      | some space =>
        if 1 ≤ length ∧ length ≤ min h.config.maxAccessSize.toNat 8 then
          .ok (request command space range attributes length data)
        else .error .commandError := by
  unfold payload
  cases Space.ofTag? attributes.space with
  | none => rfl
  | some space =>
      by_cases fits : 1 ≤ length ∧ length ≤ min h.config.maxAccessSize.toNat 8
      · have passed : (length = 0 || h.config.maxAccessSize.toNat < length || 8 < length) =
            false := by
          simp only [Bool.or_eq_false_iff, decide_eq_false_iff_not]
          omega
        simp only [passed, if_pos fits]
        rfl
      · have refused : (length = 0 || h.config.maxAccessSize.toNat < length || 8 < length) =
            true := by
          simp only [Bool.or_eq_true, decide_eq_true_eq]
          omega
        simp only [refused, if_neg fits]
        rfl

/-- The number of bytes of a payload is that of its access. -/
theorem toNat_size_request (command : Command) (space : Space) (range : AddressRange)
    (attributes : Attributes) {length : Nat} (data : UInt64) (short : length ≤ 8) :
    (request command space range attributes length data).size.toNat = length := by
  have small : length < 2 ^ 32 := by omega
  rw [request, UInt32.toNat_ofNat_of_lt' small]

variable {c : Codec} {devices : Attachment → Device σ} {h : Host}

/-- Where a payload goes, it goes with its command, its data and its size; a payload that the host
answers keeps its size. -/
theorem kept_of_route (p : Payload) :
    (∀ device q, h.route p = .toDevice device q →
        q.command = p.command ∧ q.data = p.data ∧ q.size = p.size) ∧
      ∀ q, h.route p = .answered q → q.size = p.size := by
  unfold route routeConfig routeBar
  cases p.space <;> grind [Payload.answer]

/-- **Every call for a payload** has its command, its data and its size. -/
theorem mem_calls {p : Payload} {world : World σ} {call : Device.Call}
    (asked : call ∈ h.calls devices p world) :
    ∃ device q, call = .access device q ∧ q.command = p.command ∧ q.data = p.data ∧
      q.size = p.size := by
  rw [calls_eq] at asked
  cases route : h.route p with
  | answered q =>
      rw [route] at asked
      cases asked
  | toDevice device q =>
      rw [route] at asked
      obtain rfl := List.mem_singleton.1 asked
      exact ⟨device, q, rfl, (kept_of_route p).1 device q route⟩

/-- Devices that leave the size alone leave a host nothing else to do. -/
theorem size_perform (keeps : ∀ a, (devices a).KeepsSize) (p : Payload) (world : World σ) :
    (h.perform devices p world).1.size = p.size := by
  cases route : h.route p with
  | answered q =>
      rw [(of_route_answered devices world route).1]
      exact (kept_of_route p).2 q route
  | toDevice device q =>
      rw [(of_route_toDevice devices world route).1]
      have settled (r : Payload) : (settle p.space r).size = r.size := by
        unfold settle
        split
        · rfl
        · rfl
      rw [settled, keeps device q world]
      exact ((kept_of_route p).1 device q route).2.2

/-! ### What reads and writes do -/

variable (c devices h)

/-- The calls to devices that a read makes. -/
def readCalls (range : AddressRange) (attributes : Attributes) (buffer : Bytes)
    (world : World σ) : List Device.Call :=
  (h.readThrough c (Device.noting devices) range attributes buffer (world.withLog [])).2.2.log

/-- The calls to devices that a write makes. -/
def writeCalls (range : AddressRange) (attributes : Attributes) (data : Bytes)
    (world : World σ) : List Device.Call :=
  (h.writeThrough c (Device.noting devices) range attributes data (world.withLog [])).2.log

/-- **The host declines to read or write these bytes:** it calls no device and changes nothing. -/
structure Declines (range : AddressRange) (attributes : Attributes) (bytes : Bytes)
    (world : World σ) (response : Response) : Prop where
  /-- A read leaves the buffer. -/
  read : h.readThrough c devices range attributes bytes world = (some response, bytes, world)
  /-- A write leaves the world. -/
  write : h.writeThrough c devices range attributes bytes world = (some response, world)
  /-- A read calls no device. -/
  readCalls : h.readCalls c devices range attributes bytes world = []
  /-- A write calls no device. -/
  writeCalls : h.writeCalls c devices range attributes bytes world = []

/-- **The host presents these bytes to its devices** as one number, least significant byte first,
and never gives up. -/
structure Presents (space : Space) (range : AddressRange) (attributes : Attributes) (bytes : Bytes)
    (world : World σ) : Prop where
  /-- A write is the payload of that number. -/
  write : h.writeThrough c devices range attributes bytes world =
    let (p, world) := h.perform devices (request .write space range attributes bytes.length
      (UInt64.ofNat bytes.total)) world
    (some p.status.toResponse, world)
  /-- It makes the calls of the payload. -/
  writeCalls : h.writeCalls c devices range attributes bytes world =
    h.calls devices (request .write space range attributes bytes.length
      (UInt64.ofNat bytes.total)) world
  /-- Every device that is called sees the number, and how many bytes it has. -/
  presented : ∀ call ∈ h.writeCalls c devices range attributes bytes world, ∃ device q,
    call = .access device q ∧ q.command = .write ∧ q.size.toNat = bytes.length ∧
      q.data.toNat = bytes.total

/-- **The host fills this buffer** from what the payload of a read leaves, least significant byte
first, unless that overruns the buffer. -/
structure Fills (space : Space) (range : AddressRange) (attributes : Attributes) (buffer : Bytes)
    (world : World σ) (p : Payload) (after : World σ) : Prop where
  /-- The payload of the read, as it ends. -/
  ending : h.perform devices (request .read space range attributes buffer.length 0) world =
    (p, after)
  /-- It has the size of the buffer, if no device changes sizes. -/
  size : (∀ a, (devices a).KeepsSize) → p.size.toNat = buffer.length
  /-- A read that fails leaves the buffer. -/
  failed : p.status ≠ .success →
    h.readThrough c devices range attributes buffer world =
      (some p.status.toResponse, buffer, after)
  /-- A read that succeeds with too much gives up, and leaves the buffer. -/
  overrun : p.status = .success → p.Overruns buffer.length →
    h.readThrough c devices range attributes buffer world = (none, buffer, after)
  /-- Every other read replaces it, by the bytes that count and by zeros above them. -/
  filled : p.status = .success → ¬p.Overruns buffer.length → ∃ filled : Bytes,
    h.readThrough c devices range attributes buffer world = (some .ok, filled, after) ∧
      filled.length = buffer.length ∧
      (∀ i < buffer.length, ∃ byte : UInt8, filled[i]? = some byte ∧
        byte.toNat = if i < p.size.toNat then p.data.toNat / 256 ^ i % 256 else 0) ∧
      ∀ written : Bytes, written.length = buffer.length →
        p.data.toNat % 256 ^ min p.size.toNat 8 = written.total → filled = written
  /-- It makes the calls of the payload. -/
  readCalls : h.readCalls c devices range attributes buffer world =
    h.calls devices (request .read space range attributes buffer.length 0) world

variable {devices h}

/-- An access without a payload is declined. -/
theorem declines_of_payload {range : AddressRange} {attributes : Attributes} {bytes : Bytes}
    {response : Response} (world : World σ)
    (refused : ∀ command, h.payload command range bytes.length 0 attributes = .error response) :
    h.Declines c devices range attributes bytes world response where
  read := by simp only [readThrough, refused]
  write := by simp only [writeThrough, refused]
  readCalls := by
    simp only [readCalls, readThrough, refused]
    rfl
  writeCalls := by
    simp only [writeCalls, writeThrough, refused]
    rfl

variable {c}

section Payload

variable {space : Space} {range : AddressRange} {attributes : Attributes} {bytes : Bytes}
  (sound : c.Sound) (named : Space.ofTag? attributes.space = some space)
  (one : 1 ≤ bytes.length) (room : bytes.length ≤ min h.config.maxAccessSize.toNat 8)

include named one room

/-- An access with a known space and the length of a register has a payload. -/
theorem payload_eq_request (command : Command) (data : UInt64) :
    h.payload command range bytes.length data attributes =
      .ok (request command space range attributes bytes.length data) := by
  rw [payload_eq, named]
  exact if_pos ⟨one, room⟩

include sound

/-- Its bytes are presented when it is a write. -/
theorem presents (world : World σ) :
    h.Presents c devices space range attributes bytes world := by
  have eight : bytes.length ≤ 8 := by omega
  have word : Bytes.toWord bytes = UInt64.ofNat bytes.total := by
    rw [← Bytes.toNat_toWord eight, UInt64.ofNat_toNat]
  have calls : h.writeCalls c devices range attributes bytes world =
      h.calls devices (request .write space range attributes bytes.length
        (UInt64.ofNat bytes.total)) world := by
    simp only [writeCalls, writeThrough, payload_eq_request named one room,
      sound.get_all one eight, word]
    rfl
  refine ⟨?_, calls, ?_⟩
  · simp only [writeThrough, payload_eq_request named one room, sound.get_all one eight, word]
    rfl
  · intro call asked
    rw [calls] at asked
    obtain ⟨device, q, rfl, command, data, size⟩ := mem_calls asked
    refine ⟨device, q, rfl, command, ?_, ?_⟩
    · rw [size, toNat_size_request _ _ _ _ _ eight]
    · rw [data, request, ← word, Bytes.toNat_toWord eight]

/-- **A read is its payload,** and then the conversion if that succeeds. -/
theorem readThrough_of_perform {world after : World σ} {p : Payload}
    (ending : h.perform devices (request .read space range attributes bytes.length 0) world =
      (p, after)) :
    h.readThrough c devices range attributes bytes world =
      if p.status = .success then
        if p.Overruns bytes.length then (none, bytes, after)
        else (some .ok, Bytes.ofWord bytes.length p.value, after)
      else (some p.status.toResponse, bytes, after) := by
  simp only [readThrough, payload_eq_request named one room, ending]
  split
  · next success =>
      by_cases large : p.Overruns bytes.length
      · rw [if_pos large, sound.refuse _ _ _ (Payload.overruns_iff.1 large)]
      · have fits := Nat.lt_of_not_le (mt Payload.overruns_iff.2 large)
        rw [if_neg large, sound.put_all one (by omega) fits, success]
        rfl
  · rfl

/-- Its buffer is filled when it is a read. -/
theorem fills (world : World σ) :
    ∃ p after, h.Fills c devices space range attributes bytes world p after := by
  have eight : bytes.length ≤ 8 := by omega
  rcases ending : h.perform devices (request .read space range attributes bytes.length 0) world
    with ⟨p, after⟩
  have read := readThrough_of_perform sound named one room ending
  refine ⟨p, after, ending, fun keeps => ?_, fun failed => ?_, fun success large => ?_,
    fun success fits => ?_, ?_⟩
  · have size := size_perform (h := h) keeps
      (request .read space range attributes bytes.length 0) world
    rw [ending] at size
    rw [size, toNat_size_request _ _ _ _ _ eight]
  · rw [read, if_neg failed]
  · rw [read, if_pos success, if_pos large]
  · refine ⟨Bytes.ofWord bytes.length p.value, ?_, Bytes.length_ofWord _ _, fun i below => ?_,
      fun written long number => ?_⟩
    · rw [read, if_pos success, if_neg fits]
    · refine ⟨_, Bytes.getElem?_ofWord p.value below, ?_⟩
      rw [UInt8.toNat_ofNat']
      exact p.digit_value (by omega)
    · -- the bytes with the number of a word are those of the word
      have word : p.value = Bytes.toWord written := by
        rw [← UInt64.toNat_inj, Bytes.toNat_toWord (by omega), p.toNat_value, number]
      rw [word, ← long, Bytes.ofWord_toWord (by omega)]
  · have noted : h.perform (Device.noting devices)
        (request .read space range attributes bytes.length 0) (world.withLog []) =
          (p, after.withLog (h.calls devices
            (request .read space range attributes bytes.length 0) world)) := by
      rw [← recorded, recorded_eq, ending]
    rw [readCalls, readThrough_of_perform sound named one room noted]
    split
    · split
      · rfl
      · rfl
    · rfl

end Payload

/-- **Reads and writes of every length.**  An unknown space is an address error, and a length that
no register within the limit has is a command error; neither calls a device.  Every other write
presents its bytes as one number.  Every other read fills its buffer from the number that the
payload ends with, and gives up exactly if it succeeds with a number that overruns the buffer. -/
theorem conversion (sound : c.Sound) (devices : Attachment → Device σ) (h : Host)
    (range : AddressRange) (attributes : Attributes) (bytes : Bytes) (world : World σ) :
    (9 ≤ attributes.space.toNat →
      h.Declines c devices range attributes bytes world .addressError) ∧
    (attributes.space.toNat < 9 → ∃ space, Space.ofTag? attributes.space = some space ∧
      (bytes.length = 0 ∨ min h.config.maxAccessSize.toNat 8 < bytes.length →
        h.Declines c devices range attributes bytes world .commandError) ∧
      (1 ≤ bytes.length → bytes.length ≤ min h.config.maxAccessSize.toNat 8 →
        h.Presents c devices space range attributes bytes world ∧
          ∃ p after, h.Fills c devices space range attributes bytes world p after)) := by
  refine ⟨fun unknown => ?_, fun known => ?_⟩
  · refine declines_of_payload c world fun command => ?_
    rw [payload_eq, Space.ofTag?_eq_none_iff.2 unknown]
  obtain ⟨space, named⟩ := Option.ne_none_iff_exists'.1
    (mt Space.ofTag?_eq_none_iff.1 (Nat.not_le_of_lt known))
  refine ⟨space, named, fun outside => ?_, fun one room =>
    ⟨presents sound named one room world, fills sound named one room world⟩⟩
  · refine declines_of_payload c world fun command => ?_
    rw [payload_eq, named]
    exact if_neg (by omega)

/-- Devices that answer every read with data above the bytes that are read. -/
def spilling (_ : Attachment) : Device Unit :=
  { Device.silent Unit with
    access := fun p world =>
      ({ p with status := .success, data := 0xdeadbeef11223344 }, world) }

/-- Two bytes of a register are those of the word that its device leaves. -/
theorem conversion_of_spilling :
    Codec.littleEndian.Sound ∧ ∃ p after,
      wideHost.Fills .littleEndian spilling .config ⟨0x8000, 0x8001, by decide⟩
        ⟨0, 0, false, false⟩ [0, 0] ⟨.empty, ()⟩ p after ∧
      p.status = .success ∧ ¬p.Overruns 2 ∧
      wideHost.readThrough .littleEndian spilling ⟨0x8000, 0x8001, by decide⟩
        ⟨0, 0, false, false⟩ [0, 0] ⟨.empty, ()⟩ = (some .ok, [0x44, 0x33], ⟨.empty, ()⟩) := by
  obtain ⟨space, named, -, accepted⟩ := (conversion Codec.sound_littleEndian spilling wideHost
    ⟨0x8000, 0x8001, by decide⟩ ⟨0, 0, false, false⟩ [0, 0] ⟨.empty, ()⟩).2 (by decide)
  obtain ⟨-, p, after, fills⟩ := accepted (by decide) (by decide)
  obtain rfl : Space.config = space := Option.some.inj named
  have ending := fills.ending
  obtain ⟨rfl, rfl⟩ : _ = p ∧ _ = after := Prod.mk.inj ending
  exact ⟨Codec.sound_littleEndian, _, _, fills, rfl, by decide, rfl⟩

/-- Devices that answer every access with two bytes. -/
def widening (_ : Attachment) : Device Unit :=
  { Device.silent Unit with
    access := fun p world => ({ p with status := .success, data := 0x1234, size := 2 }, world) }

/-- **Not every read answers:** a device may leave more bytes than the buffer has. -/
theorem not_forall_read_answers :
    ¬∀ (devices : Attachment → Device Unit) (h : Host) (range : AddressRange)
        (attributes : Attributes) (bytes : Bytes) (world : World Unit),
      attributes.space.toNat < 9 → 1 ≤ bytes.length →
      bytes.length ≤ min h.config.maxAccessSize.toNat 8 →
      (h.readThrough .littleEndian devices range attributes bytes world).1 ≠ none :=
  fun answers => answers widening wideHost ⟨0x8000, 0x8000, by decide⟩ ⟨0, 0, false, false⟩ [0]
    ⟨.empty, ()⟩ (by decide) (by decide) (by decide) rfl

/-! ### As a target -/

/-- **The accesses of the interconnect are the reads that answer.** -/
theorem target_read_eq (sound : c.Sound) {range : AddressRange} {attributes : Attributes}
    {buffer filled : Bytes} {world after : World σ} {response : Response}
    (answered : h.readThrough c devices range attributes buffer world =
      (some response, filled, after)) :
    (h.target devices).read range attributes buffer world = (response, filled, after) := by
  cases named : Space.ofTag? attributes.space with
  | none =>
      simp only [readThrough, payload_eq, named] at answered
      simp only [target, payload_eq, named]
      cases answered
      rfl
  | some space =>
      by_cases fits : 1 ≤ buffer.length ∧ buffer.length ≤ min h.config.maxAccessSize.toNat 8
      · rcases ending : h.perform devices
          (request .read space range attributes buffer.length 0) world with ⟨p, left⟩
        rw [readThrough_of_perform sound named fits.1 fits.2 ending] at answered
        simp only [target, payload_eq_request named fits.1 fits.2, ending]
        split at answered
        · next success =>
            split at answered
            · cases answered
            · cases answered
              rw [if_pos success, success]
              rfl
        · next failed =>
            cases answered
            rw [if_neg failed]
      · simp only [readThrough, payload_eq, named, if_neg fits] at answered
        simp only [target, payload_eq, named, if_neg fits]
        cases answered
        rfl

/-- **At devices that leave sizes alone every read answers.** -/
theorem exists_readThrough (sound : c.Sound) (keeps : ∀ a, (devices a).KeepsSize)
    (range : AddressRange) (attributes : Attributes) (buffer : Bytes) (world : World σ) :
    ∃ response filled after, h.readThrough c devices range attributes buffer world =
      (some response, filled, after) := by
  cases named : Space.ofTag? attributes.space with
  | none =>
      exact ⟨_, _, _, (declines_of_payload c world fun command => by
        rw [payload_eq, named]).read⟩
  | some space =>
      by_cases fits : 1 ≤ buffer.length ∧ buffer.length ≤ min h.config.maxAccessSize.toNat 8
      · obtain ⟨p, after, filled⟩ : ∃ p after, h.Fills c devices space range attributes buffer
            world p after := fills sound named fits.1 fits.2 world
        by_cases success : p.status = .success
        · have small : ¬p.Overruns buffer.length := fun large =>
            Nat.ne_of_gt large.1 (filled.size keeps)
          obtain ⟨bytes, read, -⟩ := filled.filled success small
          exact ⟨_, _, _, read⟩
        · exact ⟨_, _, _, filled.failed success⟩
      · exact ⟨_, _, _, (declines_of_payload c world fun command => by
          rw [payload_eq, named]
          exact if_neg fits).read⟩

/-- **They are all the writes.** -/
theorem target_write_eq (sound : c.Sound) (range : AddressRange) (attributes : Attributes)
    (data : Bytes) (world : World σ) :
    h.writeThrough c devices range attributes data world =
      let (response, after) := (h.target devices).write range attributes data world
      (some response, after) := by
  simp only [writeThrough, target, payload_eq]
  cases Space.ofTag? attributes.space with
  | none => rfl
  | some space =>
      by_cases fits : 1 ≤ data.length ∧ data.length ≤ min h.config.maxAccessSize.toNat 8
      · simp only [if_pos fits]
        rw [sound.get_all fits.1 (by omega)]
        rfl
      · simp only [if_neg fits]

end Host

/-! ### The devices of a platform -/

theorem RamDevice.size_accessBytes (bytes : Bytes) (p : Payload) :
    (accessBytes bytes p).1.size = p.size := by
  simp only [accessBytes]
  split
  · rfl
  · cases p.command with
    | read => rfl
    | write => rfl

theorem RamDevice.size_accessBare (bar : UInt8) (p : Payload) :
    (accessBare bar p).size = p.size := by
  unfold accessBare
  split
  · rfl
  · split
    · rfl
    · rfl

/-- A device with RAM leaves the size of every payload as it is. -/
theorem RamDevice.size_access (d : RamDevice) (bank : StorageBank) (p : Payload) :
    (d.access bank p).1.size = p.size := by
  simp only [access]
  split
  · exact size_accessBytes _ p
  · split
    · exact size_accessBytes _ p
    · exact size_accessBare _ p
  · rfl
  · rfl

end Pci

/-- The devices of a platform leave sizes alone. -/
theorem Platform.keepsSize_device (a : Pci.Attachment) : (device a).KeepsSize := by
  have kept (id : Pci.DeviceId) : (deviceWithId id).KeepsSize := by
    intro p world
    cases found : world.device? id with
    | none => simp only [deviceWithId, found]
    | some d =>
        simp only [deviceWithId, found]
        exact d.size_access world.storage p
  unfold device
  split
  · exact kept a.device
  · exact kept a.device

/-- **No read gives up at the devices of a platform,** so that reads through its hosts are what the
conversions make of them. -/
theorem Platform.readThrough_eq {c : Pci.Codec} (sound : c.Sound) (h : Pci.Host)
    (range : AddressRange) (attributes : Attributes) (buffer : Bytes) (world : World Platform) :
    h.readThrough c device range attributes buffer world =
      let (response, filled, after) := (h.target device).read range attributes buffer world
      (some response, filled, after) := by
  obtain ⟨response, filled, after, answered⟩ :=
    Pci.Host.exists_readThrough (h := h) sound keepsSize_device range attributes buffer world
  rw [answered, Pci.Host.target_read_eq sound answered]

end Interconnect
