import Interconnect.Proofs.Gate.Report
import Interconnect.Proofs.Memory

/-!
# Masked and streaming transfers of a memory

A memory carries out whatever lies within it, so a transfer that fits has all of its pieces moved,
if only their cost can be reported.  What they leave behind is known byte by byte: a read brings
every pulse the same bytes, and of the pulses of a write the last one stays.

## Main Definitions

* `World.contents` — the bytes of the memory in a world
* `Piece.Joins` — a piece that lies within a buffer and a memory

## Main Statements

* `Passage.Course.of_read`, `Passage.Course.of_write` — a transfer of a memory as a whole
* `Passage.Course.overflow_iff_of_memory` — it is the plan that tells whether it is too dear
* `Station.moves_enabled_bytes` — what it leaves behind, byte by byte
-/

namespace Interconnect

/-- The bytes of the only target in the world. -/
def World.contents (w : World Memory) : Bytes := w.state.contents w.storage

namespace Memory

variable {w : World Memory} {range : AddressRange}

theorem respond_read (holds : w.state.holds w.storage range = true) (attributes : Attributes)
    (buffer : Bytes) : target.respond w (.read range attributes buffer) =
      (.ok, buffer.overwrite 0 (w.contents.slice range.start.toNat buffer.length), w) := by
  simp only [Target.respond, target, read, holds]
  rfl

theorem respond_write (holds : w.state.holds w.storage range = true)
    (writable : w.state.readOnly = false) (keeps : w.state.discardWrites = false)
    (attributes : Attributes) (data : Bytes) :
    target.respond w (.write range attributes data) =
      (.ok, data, ⟨w.storage.setContents w.state.block
        (w.contents.overwrite range.start.toNat data), w.state⟩) := by
  simp only [Target.respond, target, write, holds, writable, keeps, Bool.not_true, Bool.and_false]
  rfl

end Memory

/-! ### Pulses of an admitted transaction -/

namespace Gate.Admits

variable {g : Gate} {tx : Transaction}

/-- The pulses of an admitted transaction are those that it asks for. -/
theorem pulseWidth_eq (h : g.Admits tx) :
    pulseWidth tx.data.length tx.streamingWidth = tx.width := by
  unfold pulseWidth Transaction.width
  split
  · next w streams =>
      obtain ⟨-, positive, short, -⟩ := h.streaming w streams
      rw [streams, Option.getD_some]
      split
      · rfl
      · omega
  · next whole =>
      rw [whole]
      rfl

/-- They make up the whole buffer. -/
theorem width_dvd (h : g.Admits tx) : tx.width ∣ tx.data.length := by
  cases streams : tx.streamingWidth with
  | none =>
      rw [Transaction.width, streams]
      exact Nat.dvd_refl _
  | some w =>
      rw [Transaction.width, streams, Option.getD_some]
      exact (h.streaming w streams).1

theorem width_le (h : g.Admits tx) : tx.width ≤ tx.data.length := by
  rw [← h.pulseWidth_eq]
  exact pulseWidth_le _ _

end Gate.Admits

/-- **A piece joins a buffer and a memory** if its bytes are there on both sides. -/
structure Piece.Joins (piece : Piece) (data storage : Bytes) : Prop where
  /-- It is not empty. -/
  positive : piece.length ≠ 0
  /-- It lies within the buffer. -/
  within : piece.offset + piece.length ≤ data.length
  /-- It lies within the memory. -/
  inside : piece.address.toNat + piece.length ≤ storage.length

theorem Piece.Joins.congr {piece : Piece} {data data' storage storage' : Bytes}
    (h : piece.Joins data storage) (buffer : data'.length = data.length)
    (memory : storage'.length = storage.length) : piece.Joins data' storage' :=
  ⟨h.positive, buffer ▸ h.within, memory ▸ h.inside⟩

namespace Passage

variable {p q : Passage Memory} {range : AddressRange} {piece : Piece} {pieces : List Piece}
  {exchanges : List Exchange} {outcome : Except Interruption Response}

/-! ### One piece -/

/-- The range of a piece that lies within a memory does so too. -/
theorem holds_of_joins {data : Bytes} {w : World Memory} (joins : piece.Joins data w.contents)
    (made : AddressRange.ofSize piece.address piece.length = .ok range) :
    w.state.holds w.storage range = true ∧ range.start = piece.address := by
  obtain ⟨-, start, last⟩ := (AddressRange.ofSize_eq_ok_iff joins.positive).1 made
  have ordered := AddressRange.start_le_last_of_ofSize_eq_ok made joins.positive
  refine ⟨Memory.holds_of_last_lt ordered ?_, start⟩
  have positive := joins.positive
  rw [last]
  exact Nat.lt_of_lt_of_le (by omega) joins.inside

/-- **A memory is read:** it stays, and the bytes are fetched. -/
theorem turn_of_read (read : p.tx.command = .read)
    (joins : piece.Joins p.tx.data p.station.world.contents)
    (made : AddressRange.ofSize piece.address piece.length = .ok range) :
    (p.turn Memory.target range piece).1 = .ok ∧
      (p.turn Memory.target range piece).2.station.world = p.station.world ∧
      (p.turn Memory.target range piece).2.tx.data =
        p.tx.data.patch [piece.fetch p.station.world.contents] := by
  obtain ⟨holds, start⟩ := holds_of_joins joins made
  obtain ⟨-, within, inside⟩ := joins
  have asked := respond_exchange (T := Memory.target) p range piece (by rw [read]; decide)
  have call : (p.exchange Memory.target range piece).call = .read range
      (p.station.attributes p.tx.owner p.tx.debug p.tx.exclusive)
      (p.tx.data.slice piece.offset piece.length) := by
    simp only [exchange, Transaction.call, read]
  have full : (p.tx.data.slice piece.offset piece.length).length = piece.length := by
    rw [Bytes.length_slice]
    omega
  rw [call, Memory.respond_read holds, full, start, Bytes.overwrite_zero] at asked
  · obtain ⟨response, rest⟩ := Prod.mk.inj asked
    obtain ⟨bytes, world⟩ := Prod.mk.inj rest
    refine ⟨response.symm, world.symm, ?_⟩
    rw [data_turn, ← bytes]
    rfl
  · rw [full, Bytes.length_slice]
    omega

/-- **A memory is written:** the buffer stays, and the bytes are stored. -/
theorem turn_of_write (write : p.tx.command = .write)
    (writable : p.station.world.state.readOnly = false)
    (keeps : p.station.world.state.discardWrites = false)
    (joins : piece.Joins p.tx.data p.station.world.contents)
    (made : AddressRange.ofSize piece.address piece.length = .ok range) :
    (p.turn Memory.target range piece).1 = .ok ∧
      (p.turn Memory.target range piece).2.station.world.state = p.station.world.state ∧
      (p.turn Memory.target range piece).2.station.world.contents =
        p.station.world.contents.patch [piece.store p.tx.data] ∧
      (p.turn Memory.target range piece).2.tx.data = p.tx.data := by
  obtain ⟨holds, start⟩ := holds_of_joins joins made
  have asked := respond_exchange (T := Memory.target) p range piece (by rw [write]; decide)
  have call : (p.exchange Memory.target range piece).call = .write range
      (p.station.attributes p.tx.owner p.tx.debug p.tx.exclusive)
      (p.tx.data.slice piece.offset piece.length) := by
    simp only [exchange, Transaction.call, write]
  rw [call, Memory.respond_write holds writable keeps, start] at asked
  obtain ⟨response, rest⟩ := Prod.mk.inj asked
  obtain ⟨bytes, world⟩ := Prod.mk.inj rest
  refine ⟨response.symm, ?_, ?_, ?_⟩
  · rw [← world]
  · rw [← world, World.contents, Memory.contents, StorageBank.contents_setContents, if_pos rfl]
    rfl
  · rw [data_turn, ← bytes, Bytes.overwrite_slice]

/-! ### All pieces -/

/-- **What a read of a memory leaves behind.** -/
theorem Course.of_read (h : Course Memory.target pieces p exchanges outcome q)
    (fits : outcome ≠ .error .overflow) (read : p.tx.command = .read)
    (join : ∀ piece ∈ pieces, piece.Joins p.tx.data p.station.world.contents) :
    outcome = .ok .ok ∧ q.station.world = p.station.world ∧
      q.tx.data = p.tx.data.patch (pieces.map (Piece.fetch p.station.world.contents)) := by
  induction h with
  | done p => exact ⟨rfl, rfl, rfl⟩
  | onward made moved counted later ih =>
      rename_i piece rest p q range exchanges outcome
      obtain ⟨joins, join⟩ := List.forall_mem_cons.1 join
      obtain ⟨-, world, data⟩ := turn_of_read read joins made
      have same := resembles_turn (T := Memory.target) p range piece
      rw [tx_count, world_count, world, data, same.command_eq] at ih
      obtain ⟨answered, kept, filled⟩ := ih fits read fun other mem =>
        (join other mem).congr (Bytes.length_patch _ _) rfl
      refine ⟨answered, kept, ?_⟩
      rw [filled, List.map_cons, ← Bytes.patch_append]
      rfl
  | overrun made moved overran => exact absurd rfl fits
  | halted made failed =>
      exact absurd (turn_of_read read (join _ List.mem_cons_self) made).1 failed

/-- **What a write to a memory leaves behind.** -/
theorem Course.of_write (h : Course Memory.target pieces p exchanges outcome q)
    (fits : outcome ≠ .error .overflow) (write : p.tx.command = .write)
    (writable : p.station.world.state.readOnly = false)
    (keeps : p.station.world.state.discardWrites = false)
    (join : ∀ piece ∈ pieces, piece.Joins p.tx.data p.station.world.contents) :
    outcome = .ok .ok ∧ q.tx.data = p.tx.data ∧
      q.station.world.contents =
        p.station.world.contents.patch (pieces.map (Piece.store p.tx.data)) := by
  induction h with
  | done p => exact ⟨rfl, rfl, rfl⟩
  | onward made moved counted later ih =>
      rename_i piece rest p q range exchanges outcome
      obtain ⟨joins, join⟩ := List.forall_mem_cons.1 join
      obtain ⟨-, state, stored, data⟩ := turn_of_write write writable keeps joins made
      have same := resembles_turn (T := Memory.target) p range piece
      rw [tx_count, world_count, state, stored, data, same.command_eq] at ih
      obtain ⟨answered, kept, filled⟩ := ih fits write writable keeps fun other mem =>
        (join other mem).congr rfl (Bytes.length_patch _ _)
      refine ⟨answered, kept, ?_⟩
      rw [filled, List.map_cons, ← Bytes.patch_append]
      rfl
  | overrun made moved overran => exact absurd rfl fits
  | halted made failed =>
      exact absurd (turn_of_write write writable keeps (join _ List.mem_cons_self) made).1 failed

/-- **What a transfer of a memory leaves behind,** in either direction. -/
theorem Course.of_memory (h : Course Memory.target pieces p exchanges outcome q)
    (fits : outcome ≠ .error .overflow) (moves : p.tx.command ≠ .ignore)
    (stores : p.tx.command = .write → p.station.world.state.readOnly = false ∧
      p.station.world.state.discardWrites = false)
    (join : ∀ piece ∈ pieces, piece.Joins p.tx.data p.station.world.contents) :
    outcome = .ok .ok ∧
      (p.tx.command = .write → q.tx.data = p.tx.data ∧ q.station.world.contents =
        p.station.world.contents.patch (pieces.map (Piece.store p.tx.data))) ∧
      (p.tx.command = .read → q.station.world = p.station.world ∧ q.tx.data =
        p.tx.data.patch (pieces.map (Piece.fetch p.station.world.contents))) := by
  rcases asks : p.tx.command with - | - | -
  · obtain ⟨ok, left⟩ := h.of_read fits asks join
    exact ⟨ok, nofun, fun _ => left⟩
  · obtain ⟨writable, keeps⟩ := stores asks
    obtain ⟨ok, left⟩ := h.of_write fits asks writable keeps join
    exact ⟨ok, fun _ => left, nofun⟩
  · exact absurd asks moves

/-- A transfer that succeeds has moved every piece. -/
theorem Course.of_ok {σ : Type*} {T : Target σ} {p q : Passage σ}
    (h : Course T pieces p exchanges (.ok .ok) q) :
    exchanges.map Exchange.piece = pieces ∧ ∀ e ∈ exchanges, e.response = .ok := by
  rcases h.ending with ⟨all, fine, -⟩ | ⟨before, last, -, -, failed, settled⟩ | ⟨-, overran⟩
  · exact ⟨all, fine⟩
  · exact absurd (Except.ok.inj settled).symm (Response.settled_ne_ok failed)
  · cases overran

/-- **A transfer of a memory is too dear exactly if its plan is,** because all of it is moved. -/
theorem Course.overflow_iff_of_memory (h : Course Memory.target pieces p exchanges outcome q)
    (moves : p.tx.command ≠ .ignore)
    (stores : p.tx.command = .write → p.station.world.state.readOnly = false ∧
      p.station.world.state.discardWrites = false)
    (join : ∀ piece ∈ pieces, piece.Joins p.tx.data p.station.world.contents) :
    outcome = .error .overflow ↔
      UInt64.size ≤ p.delivery.cycles.toNat + p.station.cost p.tx pieces.length := by
  constructor
  · intro overran
    have few : (exchanges.countP fun e => e.response = .ok) ≤ pieces.length :=
      List.countP_le_length.trans (by simpa using h.planned.length_le)
    have beyond := h.overflow_iff.1 overran
    have dearer : p.station.cost p.tx (exchanges.countP fun e => e.response = .ok) ≤
        p.station.cost p.tx pieces.length := Nat.mul_le_mul_right _ few
    omega
  · intro beyond
    by_contra fits
    obtain ⟨rfl, -⟩ := h.of_memory fits moves stores join
    obtain ⟨all, fine⟩ := h.of_ok
    have every : (exchanges.countP fun e => e.response = .ok) = pieces.length := by
      rw [List.countP_eq_length.2 fun e mem => decide_eq_true (fine e mem), ← all, List.length_map]
    rw [← every, ← h.overflow_iff] at beyond
    cases beyond

/-- A memory does not change when it is asked for a window. -/
theorem world_reward (p : Passage Memory) (range : AddressRange) :
    (p.reward Memory.target range).station.world = p.station.world := by
  rcases reward_cases (T := Memory.target) p range with ⟨-, kept⟩ | ⟨-, rewarded⟩
  · rw [kept]
  · rw [rewarded]
    rcases Station.world_grant Memory.target ⟨range, p.tx.command, p.tx.owner, p.tx.exclusive⟩
      p.station with unasked | asked
    · exact unasked
    · exact asked

/-- A transfer that succeeds moves all bytes of its pieces. -/
theorem Course.bytes_of_ok {σ : Type*} {T : Target σ} {p q : Passage σ}
    (h : Course T pieces p exchanges (.ok .ok) q) :
    q.delivery.bytes = p.delivery.bytes + (pieces.map Piece.length).sum := by
  obtain ⟨all, fine⟩ := h.of_ok
  have whole : exchanges.filter (fun e => e.response = .ok) = exchanges :=
    List.filter_eq_self.2 fun e mem => decide_eq_true (fine e mem)
  rw [h.bytes_eq, whole, ← all, List.map_map]
  rfl

end Passage

namespace Station

variable {s : Station Memory} {tx : Transaction}

/-- All pieces of a transfer join the buffer and a memory that its first pulse fits. -/
theorem joins_of_mem_plan (admits : s.gate.Admits tx)
    (inside : tx.address.toNat + tx.width ≤ s.world.contents.length) {piece : Piece}
    (planned : piece ∈ plan tx.address tx.data.length tx.streamingWidth tx.byteEnable) :
    piece.Joins tx.data s.world.contents := by
  obtain ⟨positive, pulse, whole, -⟩ := spec_of_mem_plan planned
  have fits := admits.fits
  have short := admits.width_le
  have pieces := Nat.div_mul_le_self tx.data.length tx.width
  rw [admits.pulseWidth_eq] at pulse whole
  have start := toNat_address_of_mem_plan (by rw [admits.pulseWidth_eq]; omega) planned
  rw [admits.pulseWidth_eq] at start
  exact ⟨by omega, by omega, by omega⟩

/-- **A transfer that fits a memory has all of its pieces moved,** or it is too dear. -/
theorem exists_transport_of_fits (fresh : tx.response = .incomplete) (nonempty : tx.data ≠ [])
    (moves : tx.command ≠ .ignore) (admits : s.gate.Admits tx) (ends : ¬ s.Waits tx)
    (stores : tx.command = .write →
      s.world.state.readOnly = false ∧ s.world.state.discardWrites = false)
    (inside : tx.address.toNat + tx.width ≤ s.world.contents.length) :
    let pieces := plan tx.address tx.data.length tx.streamingWidth tx.byteEnable
    ((s.transport Memory.target tx).1 = .error .overflow ↔
      UInt64.size ≤ s.cost tx pieces.length) ∧
    ((s.transport Memory.target tx).1 ≠ .error .overflow →
      ∃ delivery after t, s.transport Memory.target tx = (.ok delivery, after, t) ∧
        after.response = .ok ∧ delivery.bytes = (pieces.map Piece.length).sum ∧
        (tx.command = .write → after.data = tx.data ∧
          t.world.contents = s.world.contents.patch (pieces.map (Piece.store tx.data))) ∧
        (tx.command = .read → t.world = s.world ∧
          after.data = tx.data.patch (pieces.map (Piece.fetch s.world.contents)))) := by
  obtain ⟨range, prepared, p, exchanges, outcome, q, -, preparation, admission, course,
    submitted⟩ := (exists_course (s := s) Memory.target fresh nonempty moves admits).resolve_left
      fun waiting => ends waiting.1
  have admitted := Passage.admitted_of_admission preparation admission
  have command := admitted.resembles.command_eq
  have join : ∀ piece ∈ plan tx.address tx.data.length tx.streamingWidth tx.byteEnable,
      piece.Joins p.tx.data p.station.world.contents := by
    rw [admitted.data_eq, admitted.world]
    exact fun piece => joins_of_mem_plan admits inside
  have overran : (s.transport Memory.target tx).1 = .error .overflow ↔
      outcome = .error .overflow := by
    rw [transport_eq_of_finish submitted, map_eq_error_iff]
  rw [ne_eq, overran]
  refine ⟨?_, fun fits => ?_⟩
  · rw [course.overflow_iff_of_memory (by rwa [command]) (by rwa [command, admitted.world]) join,
      admitted.cost_eq]
  · have moved := course.of_memory fits (by rwa [command]) (by rwa [command, admitted.world]) join
    rw [command, admitted.data_eq, admitted.world] at moved
    obtain ⟨rfl, written, read⟩ := moved
    refine ⟨((q.answer .ok).reward Memory.target range).delivery, (q.answer .ok).tx,
      ((q.answer .ok).reward Memory.target range).station, ?_, rfl, ?_, ?_, ?_⟩
    · rw [transport_eq_of_submit submitted, Passage.tx_reward]
    · rw [Passage.delivery_reward]
      exact course.bytes_of_ok.trans (by rw [admitted.delivery]; exact Nat.zero_add _)
    · rw [Passage.world_reward]
      exact written
    · rw [Passage.world_reward]
      exact read

/-- **Masked and streaming transfers move the bytes that take part,** and no others.  A read fills
each pulse with the bytes of the memory at the same places, and of a write the last pulse is left in
the memory.  The transfer breaks off exactly if all its pieces together cost more than a word can
hold, and an exclusive read must not wait for ever. -/
theorem moves_enabled_bytes (s : Station Memory) (tx : Transaction)
    (fresh : tx.response = .incomplete) (nonempty : tx.data ≠ []) (moves : tx.command ≠ .ignore)
    (admits : s.gate.Admits tx) (ends : ¬ s.Waits tx)
    (stores : tx.command = .write →
      s.world.state.readOnly = false ∧ s.world.state.discardWrites = false)
    (inside : tx.address.toNat + tx.width ≤ s.world.contents.length) :
    ((s.transport Memory.target tx).1 = .error .overflow ↔ UInt64.size ≤ s.cost tx
      (plan tx.address tx.data.length tx.streamingWidth tx.byteEnable).length) ∧
    ((s.transport Memory.target tx).1 ≠ .error .overflow →
      ∃ delivery after t, s.transport Memory.target tx = (.ok delivery, after, t) ∧
        after.response = .ok ∧
        delivery.bytes = tx.data.length / tx.width *
          (List.range tx.width).countP (fun place => TakesPart tx.byteEnable place) ∧
        (tx.command = .write → after.data = tx.data ∧ ∀ a : Nat, t.world.contents[a]? =
          if tx.address.toNat ≤ a ∧ a < tx.address.toNat + tx.width ∧
              TakesPart tx.byteEnable (a - tx.address.toNat) then
            tx.data[(tx.data.length / tx.width - 1) * tx.width + (a - tx.address.toNat)]?
          else s.world.contents[a]?) ∧
        (tx.command = .read → t.world = s.world ∧ ∀ i : Nat, after.data[i]? =
          if i < tx.data.length ∧ TakesPart tx.byteEnable (i % tx.width) then
            s.world.contents[tx.address.toNat + i % tx.width]?
          else tx.data[i]?)) := by
  obtain ⟨overruns, fits⟩ :=
    exists_transport_of_fits fresh nonempty moves admits ends stores inside
  have spans : tx.address.toNat +
      (pulseWidth tx.data.length tx.streamingWidth - 1) < UInt64.size := by
    have fits := admits.fits
    have short := admits.width_le
    rw [admits.pulseWidth_eq]
    omega
  have whole := Nat.div_mul_cancel admits.width_dvd
  refine ⟨overruns, fun reported => ?_⟩
  obtain ⟨delivery, after, t, passed, ok, bytes, written, read⟩ := fits reported
  refine ⟨delivery, after, t, passed, ok, ?_, fun write => ?_, fun reads => ?_⟩
  · rw [bytes, sum_length_plan, admits.pulseWidth_eq]
  · obtain ⟨same, stored⟩ := written write
    refine ⟨same, fun a => ?_⟩
    rw [stored, getElem?_patch_store spans (by rwa [admits.pulseWidth_eq]) (Nat.le_refl _),
      admits.pulseWidth_eq]
  · obtain ⟨same, filled⟩ := read reads
    refine ⟨same, fun i => ?_⟩
    rw [filled, getElem?_patch_fetch spans (by rwa [admits.pulseWidth_eq]) (Nat.le_refl _),
      admits.pulseWidth_eq, whole]

/-- A write of two pulses to the same two addresses, of which the first takes part. -/
def pulsedWrite : Transaction := { maskedWrite with exclusive := false }

/-- **A masked write of two pulses** leaves the enabled byte of the second in the memory, and the
other byte is as it was. -/
theorem exists_last_pulse_stored :
    ∃ (s : Station Memory) (tx : Transaction) (delivery : Delivery) (after : Transaction)
      (t : Station Memory), tx.data = [1, 2, 3, 4] ∧ tx.streamingWidth = some 2 ∧
        s.transport Memory.target tx = (.ok delivery, after, t) ∧ after.response = .ok ∧
        delivery.bytes = 2 ∧ t.world.contents[4]? = some 3 ∧ t.world.contents[5]? = some 0 := by
  have admits : shortMemory.gate.Admits pulsedWrite :=
    Gate.admits_iff.2 ⟨by decide, by decide, nofun⟩
  obtain ⟨overruns, moved⟩ :=
    moves_enabled_bytes shortMemory pulsedWrite rfl (by decide) (by decide) admits
      (fun waits => nomatch waits.read) (fun _ => ⟨rfl, rfl⟩) (by decide)
  obtain ⟨delivery, after, t, passed, ok, bytes, written, -⟩ :=
    moved fun overran => absurd (overruns.1 overran) (by decide)
  obtain ⟨-, stored⟩ := written rfl
  refine ⟨shortMemory, pulsedWrite, delivery, after, t, rfl, rfl, passed, ok, ?_, ?_, ?_⟩
  · rw [bytes]
    decide
  · rw [stored 4]
    decide
  · rw [stored 5]
    decide

/-- **Not every transfer that fits a memory is answered:** both pulses of this write are stored, and
then their cost cannot be reported. -/
theorem not_forall_transport_of_memory :
    ¬ ∀ (s : Station Memory) (tx : Transaction), tx.response = .incomplete → tx.data ≠ [] →
      tx.command ≠ .ignore → s.gate.Admits tx → tx.exclusive = false → tx.debug = false →
      s.world.state.readOnly = false → s.world.state.discardWrites = false →
      tx.address.toNat + tx.width ≤ s.world.contents.length →
      ∃ delivery after t, s.transport Memory.target tx = (.ok delivery, after, t) ∧
        after.response = .ok := by
  intro claimed
  have admits : steepMemory.gate.Admits pulsedWrite :=
    Gate.admits_iff.2 ⟨by decide, by decide, nofun⟩
  obtain ⟨delivery, after, t, passed, -⟩ := claimed steepMemory pulsedWrite rfl (by decide)
    (by decide) admits rfl rfl rfl rfl (by decide)
  have broken : (steepMemory.transport Memory.target pulsedWrite).1 = .error .overflow := by decide
  rw [passed] at broken
  cases broken

end Station

end Interconnect
