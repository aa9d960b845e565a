import Interconnect.Proofs.Gate.Exclusion
import Interconnect.Proofs.Gate.Shortcut

/-!
# The history behind a reservation

What initiators have done before a gate is a list of events.  A reservation that stands has one
among them that accounts for it: its owner has read these very addresses exclusively, and since then
nobody has written to them.

## Main Definitions

* `Event` — an access and how it ended
* `LastRead` — the exclusive read that accounts for a reservation
* `Accounted` — every reservation is accounted for

## Main Statements

* `Initiator.accounted_of_access` — an access leaves every reservation accounted for
* `Initiator.exists_lastRead_of_write` — an exclusive write that succeeds is accounted for

### Why a reservation is lost in time

A write through the gate breaks the reservations that it overlaps before it comes to the memory.  A
write through a window breaks none, but there is no window where a reservation stands.  So whoever
stores a byte at a reserved address leaves no reservation there, and the bytes behind those that
stand are still those that were read.
-/

namespace Interconnect

universe u

variable {σ : Type u}

/-- **An access and how it ended.** -/
structure Event where
  /-- The owner in whose name it was made. -/
  owner : Owner
  /-- The command. -/
  command : Command
  /-- The first address. -/
  address : UInt64
  /-- The bytes that were handed in. -/
  data : Bytes
  /-- What else was asked for. -/
  mode : AccessMode
  /-- The bytes that were handed back. -/
  bytes : Bytes
  /-- How it ended. -/
  done : Completion

namespace Event

/-- The addresses of an event that moves anything. -/
def Spans (e : Event) (range : AddressRange) : Prop :=
  e.data.length ≠ 0 ∧ AddressRange.ofSize e.address e.data.length = .ok range

/-- **An admitted exclusive read** of `owner` over exactly `range`. -/
structure Reserves (e : Event) (owner : Owner) (range : AddressRange) : Prop where
  /-- It is exclusive. -/
  exclusive : e.mode.exclusive = true
  /-- It is a read. -/
  read : e.command = .read
  /-- It is made in the name of the owner. -/
  owner : e.owner = owner
  /-- It covers the range. -/
  spans : e.Spans range
  /-- It has been admitted and carried out. -/
  ok : e.done.response = .ok

/-- **A write that was carried out** at some address of `range`. -/
def WritesTo (e : Event) (range : AddressRange) : Prop :=
  e.command = .write ∧ e.done.response = .ok ∧
    ∃ written, e.Spans written ∧ range.overlaps written = true

/-- Events over the same addresses move as many bytes. -/
theorem Spans.length_eq {e f : Event} {range : AddressRange} (h : e.Spans range)
    (h' : f.Spans range) : e.data.length = f.data.length :=
  (AddressRange.size_of_ofSize_eq_ok h.2).symm.trans (AddressRange.size_of_ofSize_eq_ok h'.2)

theorem Spans.unique {e : Event} {range other : AddressRange} (h : e.Spans range)
    (h' : e.Spans other) : range = other :=
  Except.ok.inj (h.2.symm.trans h'.2)

end Event

/-- **Event `e` is the latest admitted exclusive read** of `owner` over `range`, and nobody has
written there since. -/
def LastRead (events : List Event) (owner : Owner) (range : AddressRange) (e : Event) : Prop :=
  ∃ before after, events = before ++ e :: after ∧ e.Reserves owner range ∧
    ∀ f ∈ after, ¬ f.Reserves owner range ∧ ¬ f.WritesTo range

namespace LastRead

variable {events : List Event} {owner : Owner} {range : AddressRange} {e f : Event}

theorem reserves (h : LastRead events owner range e) : e.Reserves owner range := by
  obtain ⟨_, _, -, reserves, -⟩ := h
  exact reserves

/-- The last event may be such a read itself. -/
theorem concat (reserves : f.Reserves owner range) :
    LastRead (events ++ [f]) owner range f :=
  ⟨events, [], rfl, reserves, fun _ absent => absurd absent List.not_mem_nil⟩

/-- Another event leaves it the latest. -/
theorem append (h : LastRead events owner range e) (other : ¬ f.Reserves owner range)
    (elsewhere : ¬ f.WritesTo range) : LastRead (events ++ [f]) owner range e := by
  obtain ⟨before, after, rfl, reserves, since⟩ := h
  refine ⟨before, after ++ [f], by simp, reserves, fun g later => ?_⟩
  rcases List.mem_append.1 later with old | new
  · exact since g old
  · cases List.mem_singleton.1 new
    exact ⟨other, elsewhere⟩

end LastRead

/-- **Every reservation is accounted for:** an exclusive access has covered its addresses, and, if
they are addresses of the memory, they hold what its owner has read there last. -/
structure Accounted (m : Memory) (events : List Event) (storage : StorageBank) (monitor : Monitor) :
    Prop where
  /-- Some exclusive access has covered the addresses. -/
  covered : ∀ r ∈ monitor.reservations, ∃ e ∈ events, e.mode.exclusive = true ∧ e.Spans r.range
  /-- The owner has read them, and nobody has written since. -/
  held : ∀ r ∈ monitor.reservations, m.holds storage r.range = true →
    ∃ e, LastRead events r.owner r.range e ∧
      e.bytes = storage.load ((HostPointer.toBlock m.block).advance r.range.start) e.data.length

namespace Accounted

variable {m : Memory} {events : List Event} {storage after : StorageBank} {monitor next : Monitor}
  {e : Event} {range : AddressRange}

/-- Without reservations there is nothing to account for. -/
theorem nil : Accounted m [] storage .empty :=
  ⟨fun _ absent => absurd absent List.not_mem_nil, fun _ absent => absurd absent List.not_mem_nil⟩

/-- An event that neither reserves nor writes leaves every reservation accounted for. -/
theorem append_idle (h : Accounted m events storage monitor) (idle : e.done.response = .ok →
    e.command = .ignore) : Accounted m (events ++ [e]) storage monitor where
  covered := by
    intro r stands
    obtain ⟨f, member, exclusive, spans⟩ := h.covered r stands
    exact ⟨f, List.mem_append_left _ member, exclusive, spans⟩
  held := by
    intro r stands inside
    obtain ⟨f, last, bytes⟩ := h.held r stands inside
    refine ⟨f, last.append (fun reserves => ?_) (fun writes => ?_), bytes⟩
    · cases reserves.read.symm.trans (idle reserves.ok)
    · cases writes.1.symm.trans (idle writes.2.1)

/-- **An exclusive read that the memory serves** returns the bytes that are there. -/
theorem reserves_of_served (spans : e.Spans range) (exclusive : e.mode.exclusive = true)
    (reads : e.command = .read) (inside : m.holds storage range = true) {buffer : Bytes}
    (served : (e.done.response, buffer, after) =
      m.serve storage .read range false (List.replicate e.data.length 0))
    (read : e.bytes = buffer) :
    e.Reserves e.owner range ∧
      e.bytes = after.load ((HostPointer.toBlock m.block).advance range.start) e.data.length := by
  simp only [Memory.serve, Memory.read_replicate_zero inside, Prod.mk.injEq] at served
  obtain ⟨ok, found, rfl⟩ := served
  exact ⟨⟨exclusive, reads, rfl, spans, ok⟩, read.trans found⟩

/-- **What the memory serves leaves the bytes that it does not write to.** -/
theorem load_serve_of_apart {f : Event} {other : AddressRange} (covers : f.Spans other)
    (spans : e.Spans range) {given : Bytes} (length : given.length = e.data.length)
    (apart : e.command = .write → other.overlaps range = false) :
    (m.serve storage e.command range false given).2.2.load
        ((HostPointer.toBlock m.block).advance other.start) f.data.length =
      storage.load ((HostPointer.toBlock m.block).advance other.start) f.data.length := by
  rcases m.storage_serve storage e.command range false given with
    unchanged | ⟨writes, -, stored⟩
  · rw [unchanged]
  · rw [stored]
    refine StorageBank.load_setContents_of_apart ?_
    rw [((AddressRange.ofSize_eq_ok_iff spans.1).1 spans.2).2.1, length,
      ((AddressRange.ofSize_eq_ok_iff covers.1).1 covers.2).2.1]
    exact AddressRange.le_or_le_of_overlaps_eq_false covers.2 spans.2 covers.1 spans.1
      (apart writes)

/-- **An event that the memory serves leaves every reservation accounted for,** if the reservations
after it are those that it does not overlap and that which it has made. -/
theorem append_served (h : Accounted m events storage monitor) (spans : e.Spans range)
    {buffer given : Bytes} (given_length : given.length = e.data.length)
    (zeros : e.command = .read → given = List.replicate e.data.length 0)
    (served : (e.done.response, buffer, after) = m.serve storage e.command range false given)
    (read : e.command = .read → e.bytes = buffer)
    (reservations : ∀ r ∈ next.reservations,
      (r ∈ monitor.reservations ∧ (e.command = .write → r.range.overlaps range = false)) ∨
        (e.mode.exclusive = true ∧ e.command = .read ∧ r = ⟨e.owner, range⟩)) :
    Accounted m (events ++ [e]) after next := by
  have storage' : after = (m.serve storage e.command range false given).2.2 :=
    congrArg (fun answer => answer.2.2) served
  have same : m.holds after = m.holds storage := by
    funext other
    rw [Memory.holds, storage', Memory.length_contents_serve, Memory.holds]
  -- what the event itself has read
  have fresh : e.mode.exclusive = true → e.command = .read → m.holds storage range = true →
      e.Reserves e.owner range ∧ e.bytes =
        after.load ((HostPointer.toBlock m.block).advance range.start) e.data.length := by
    intro exclusive reads inside
    rw [reads, zeros reads] at served
    exact reserves_of_served spans exclusive reads inside served (read reads)
  refine ⟨fun r stands => ?_, fun r stands inside => ?_⟩
  · rcases reservations r stands with ⟨old, -⟩ | ⟨exclusive, -, rfl⟩
    · obtain ⟨f, member, exclusive, covers⟩ := h.covered r old
      exact ⟨f, List.mem_append_left _ member, exclusive, covers⟩
    · exact ⟨e, by simp, exclusive, spans⟩
  · rw [same] at inside
    rcases reservations r stands with ⟨old, apart⟩ | ⟨exclusive, reads, rfl⟩
    · -- the owner may have read the addresses once more
      by_cases again : e.Reserves r.owner r.range
      · cases again.spans.unique spans
        obtain ⟨-, bytes⟩ := fresh again.exclusive again.read inside
        exact ⟨e, .concat again, bytes⟩
      · obtain ⟨f, last, bytes⟩ := h.held r old inside
        refine ⟨f, last.append again ?_, ?_⟩
        · rintro ⟨writes, -, written, covers, overlaps⟩
          cases covers.unique spans
          rw [apart writes] at overlaps
          cases overlaps
        · rw [bytes, storage']
          exact (load_serve_of_apart last.reserves.spans spans given_length apart).symm
    · obtain ⟨reserves, bytes⟩ := fresh exclusive reads inside
      exact ⟨e, .concat reserves, bytes⟩

end Accounted

/-! ### Accesses of initiators -/

namespace Initiator

open Station

variable {T : Target σ} {m : Memory} {users : Set CacheId} {s t : Station σ} {i : Initiator}
  {events : List Event} {command : Command} {address : UInt64} {data : Bytes} {mode : AccessMode}
  {bytes : Bytes} {done : Completion}

/-- **An access leaves every reservation accounted for.** -/
theorem accounted_of_access (mirrors : T.Mirrors m s.world.state) (placed : s.Placed m i.cache)
    (shielded : s.Shielded users) (member : i.cache ∈ users) (plain : mode.debug = false)
    (h : Accounted m events s.world.storage s.gate.monitor)
    (ended : i.access T command address data mode s = .ok (bytes, done, t)) :
    Accounted m (events ++ [⟨i.owner, command, address, data, mode, bytes, done⟩])
      t.world.storage t.gate.monitor := by
  obtain ⟨-, ⟨monitor, storage, idle⟩ | ⟨range, buffer, positive, made, -, served, read,
    watched⟩⟩ := access_cases_of_mirrors mirrors placed plain ended
  · rw [monitor, storage]
    exact h.append_idle idle
  · refine h.append_served ⟨positive, made⟩ (length_data_transaction i command address data mode)
      (fun reads => ?_) served read fun r stands => ?_
    · have reads : command = .read := reads
      rw [data_transaction, reads]
      rfl
    · rcases watched with admitted | ⟨-, same, w, cached, contains⟩
      · exact Monitor.mem_reservations_of_apply admitted stands
      · -- through a window the monitor is not asked, but where the window leads nothing is reserved
        rw [same] at stands
        refine .inl ⟨stands, fun _ => ?_⟩
        have apart := shielded.overlaps_eq_false member cached stands
        rw [AddressRange.overlaps_comm, AddressRange.overlaps_eq_false_iff]
        exact fun a inside => AddressRange.overlaps_eq_false_iff.1 apart a
          (AddressRange.mem_of_contains contains inside)

/-- **An exclusive write that succeeds is accounted for,** where exclusive accesses cover the same
addresses or none in common: its owner has read the addresses exclusively, and they hold what was
read. -/
theorem exists_lastRead_of_write (mirrors : T.Mirrors m s.world.state) (placed : s.Placed m i.cache)
    (plain : mode.debug = false) (h : Accounted m events s.world.storage s.gate.monitor)
    (ended : i.access T .write address data mode s = .ok (bytes, done, t))
    (exclusive : mode.exclusive = true) (ok : done.response = .ok) {range : AddressRange}
    (made : AddressRange.ofSize address data.length = .ok range)
    (apart : ∀ e ∈ events, e.mode.exclusive = true → ∀ other, e.Spans other →
      other = range ∨ other.overlaps range = false) :
    ∃ e, LastRead events i.owner range e ∧
      e.bytes =
        s.world.storage.load ((HostPointer.toBlock m.block).advance address) data.length := by
  obtain ⟨-, ⟨-, -, idle⟩ | ⟨range', buffer, positive, made', moves, served, -, watched⟩⟩ :=
    access_cases_of_mirrors mirrors placed plain ended
  · cases idle ok
  · cases Except.ok.inj (made.symm.trans made')
    rcases watched with admitted | ⟨shared, -⟩
    · -- the monitor has found a reservation of the owner, which cannot but cover this very range
      have permitted : s.gate.monitor.permits ⟨range, .write, i.owner, mode.exclusive⟩ = true := by
        rw [← Bool.not_eq_false, ← Monitor.apply_eq_none_iff, admitted]
        simp
      have holds : s.gate.monitor.holds i.owner range = true := by
        simpa [Monitor.permits, exclusive] using permitted
      obtain ⟨r, stands, owner, overlaps⟩ := Monitor.holds_eq_true_iff.1 holds
      obtain ⟨f, member, shared, covers⟩ := h.covered r stands
      have same : r.range = range := by
        rcases apart f member shared _ covers with same | separate
        · exact same
        · rw [separate] at overlaps
          cases overlaps
      have inside : m.holds s.world.storage r.range = true := by
        rw [same]
        exact Memory.holds_of_serve moves ((congrArg Prod.fst served).symm.trans ok)
      obtain ⟨e, last, found⟩ := h.held r stands inside
      rw [same, owner] at last
      have start := ((AddressRange.ofSize_eq_ok_iff positive).1 made).2.1
      refine ⟨e, last, ?_⟩
      rw [found, same, start, last.reserves.spans.length_eq
        (f := ⟨i.owner, .write, address, data, mode, bytes, done⟩) ⟨positive, made⟩]
    · rw [exclusive] at shared
      cases shared

end Initiator

end Interconnect
