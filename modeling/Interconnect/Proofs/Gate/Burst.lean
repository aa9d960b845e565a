import Interconnect.Endpoint.Sink
import Interconnect.Proofs.Gate.Report

/-!
# Bursts and their pieces

Every piece of a transfer can be made a transaction of its own.  At a gate without limits a transfer
has the same effect as its pieces one after another, if only its buffer does not run past the last
address and its cost can be reported.  Either is more than the pieces need.  A transfer that streams
stays within its first pulse and is refused nevertheless; and the pieces report their costs one by
one, where the transfer has to report them in a sum.

## Main Definitions

* `Sink.target` — a sink as the only target of a world
* `GateConfig.Unrestricted` — a gate without limits and without windows
* `Transaction.part` — a piece as a transaction
* `Station.transportParts` — the pieces of a transfer, one after another
* `Station.MovesInParts` — the transfer has the effect of its pieces

## Main Statements

* `Station.transportEach_of_course` — a course is made of parts
* `Station.burst_moves_in_parts` — a burst moves in parts, or is too long or too dear as a whole
* `Station.not_forall_moves_in_parts` — it is not enough that each pulse fits
-/

namespace Interconnect

universe u

variable {σ : Type u}

/-- **A sink as the only target of a world.** -/
def Sink.target : Target Sink where
  read range attributes buffer world :=
    let (bytes, sink) := world.state.read range attributes buffer
    (.ok, bytes, { world with state := sink })
  write range attributes _ world :=
    (.ok, { world with state := world.state.write range attributes })
  window _ _ world := (none, world)
  length_read := by simp [Sink.read]

/-! ### A gate without limits -/

/-- **A gate without limits,** which gives no windows. -/
structure GateConfig.Unrestricted (config : GateConfig) : Prop where
  /-- A transfer may repeat at one address. -/
  streaming : config.streaming = true
  /-- It may have a mask. -/
  byteEnable : config.byteEnable = true
  /-- Accesses may be of any size. -/
  size : config.maxAccessSize = none
  /-- They may start anywhere. -/
  alignment : config.alignment = .unrestricted
  /-- There are no windows. -/
  windowless : config.allowDirect = false

/-- **A gate without limits admits** every transaction that is consistent in itself. -/
theorem GateConfig.Unrestricted.admits {g : Gate} {tx : Transaction} (h : g.config.Unrestricted)
    (nonempty : tx.data ≠ []) (shared : tx.exclusive = false)
    (divides : ∀ w, tx.streamingWidth = some w → w ∣ tx.data.length)
    (masked : ∀ mask, tx.byteEnable = some mask → mask.length = tx.width)
    (fits : tx.address.toNat + (tx.data.length - 1) < UInt64.size) : g.Admits tx where
  fits := fits
  streaming := by
    intro w streams
    have positive : 0 < tx.data.length := List.length_pos_iff.2 nonempty
    have pulse := divides w streams
    refine ⟨pulse, Nat.pos_of_dvd_of_pos pulse positive, Nat.le_of_dvd positive pulse, ?_⟩
    rw [h.streaming]
    exact nofun
  mask mask given := ⟨h.byteEnable, masked mask given⟩
  size limit given := by
    rw [h.size] at given
    cases given
  aligned := by
    rw [h.alignment]
    rfl
  reserved write exclusive := absurd (shared.symm.trans exclusive) Bool.false_ne_true

/-- **A piece as a transaction of its own,** without a mask and in one pulse. -/
def Transaction.part (tx : Transaction) (piece : Piece) : Transaction :=
  { tx with
    address := piece.address
    data := tx.data.slice piece.offset piece.length
    byteEnable := none
    streamingWidth := none }

/-- The piece that such a transaction has. -/
def Piece.alone (piece : Piece) : Piece := ⟨piece.address, 0, piece.length⟩

namespace Station

/-- **Pieces of a transaction as transactions of their own,** one after another up to the first that
is not answered with success.  What each brings back goes to its place in the buffer. -/
def transportEach (T : Target σ) (tx : Transaction) :
    List Piece → Bytes → Station σ → Response × Bytes × Station σ
  | [], data, s => (.ok, data, s)
  | piece :: rest, data, s =>
    let (_, part, s) := s.transport T (tx.part piece)
    let data := data.overwrite piece.offset part.data
    if part.response = .ok then transportEach T tx rest data s else (part.response, data, s)

theorem transportEach_cons (T : Target σ) (tx : Transaction) (piece : Piece) (rest : List Piece)
    (data : Bytes) (s : Station σ) : s.transportEach T tx (piece :: rest) data =
      if (s.transport T (tx.part piece)).2.1.response = .ok then
        (s.transport T (tx.part piece)).2.2.transportEach T tx rest
          (data.overwrite piece.offset (s.transport T (tx.part piece)).2.1.data)
      else ((s.transport T (tx.part piece)).2.1.response,
        data.overwrite piece.offset (s.transport T (tx.part piece)).2.1.data,
        (s.transport T (tx.part piece)).2.2) := rfl

/-- **All pieces of a transaction,** with the last response and the buffer and the station as they
stand in the end. -/
def transportParts (T : Target σ) (tx : Transaction) (s : Station σ) :
    Response × Bytes × Station σ :=
  s.transportEach T tx (plan tx.address tx.data.length tx.streamingWidth tx.byteEnable) tx.data

/-- The calls that the pieces make. -/
def partCalls (T : Target σ) (tx : Transaction) (s : Station σ) : List Target.Call :=
  (s.recorded.transportParts T.noting tx).2.2.world.calls

/-- **A transaction moves in parts:** it has the effect of its pieces one after another. -/
structure MovesInParts (T : Target σ) (tx : Transaction) (s : Station σ) : Prop where
  /-- It is carried to its end. -/
  answered : ∃ delivery, (s.transport T tx).1 = .ok delivery
  /-- The response is the last one. -/
  response : (s.transport T tx).2.1.response = (s.transportParts T tx).1
  /-- The buffer has the same bytes. -/
  data : (s.transport T tx).2.1.data = (s.transportParts T tx).2.1
  /-- Reservations, clock, caches and target are left as by the pieces. -/
  station : (s.transport T tx).2.2 = (s.transportParts T tx).2.2
  /-- The target is asked for the same. -/
  calls : s.calls T tx = s.partCalls T tx

end Station

/-! ### One piece -/

theorem Bytes.slice_zero_eq {bytes : Bytes} {count : Nat} (full : bytes.length = count) :
    bytes.slice 0 count = bytes := by
  rw [← full, slice_zero_length]

namespace Passage

variable {T : Target σ} {p q : Passage σ} {range : AddressRange}

theorem prepare_of_windowless (windowless : p.station.gate.config.allowDirect = false) :
    p.prepare range = some p := by
  rw [prepare, windowless, Bool.not_false, Bool.or_true, if_pos rfl]

theorem admission_of_shared (shared : p.tx.exclusive = false) : p.admission = .ok (some p) := by
  rw [admission, shared, Bool.false_and, if_neg Bool.false_ne_true]

variable {tx : Transaction} {piece : Piece}

theorem call_alone (full : (tx.data.slice piece.offset piece.length).length = piece.length)
    (attributes : Attributes) :
    (tx.part piece).call attributes range piece.alone = tx.call attributes range piece := by
  have whole : (tx.part piece).data.slice piece.alone.offset piece.alone.length =
      tx.data.slice piece.offset piece.length := Bytes.slice_zero_eq full
  rw [Transaction.call, whole]
  rfl

/-- **A piece has the same turn alone** as on its way through the gate with the others. -/
theorem turn_alone (same : tx.Resembles p.tx) (moves : tx.command ≠ .ignore)
    (full : (tx.data.slice piece.offset piece.length).length = piece.length)
    (untouched : p.tx.data.slice piece.offset piece.length =
      tx.data.slice piece.offset piece.length) :
    (((entering p.station (tx.part piece)).turn T range piece.alone).1 =
        (p.turn T range piece).1) ∧
      ((entering p.station (tx.part piece)).turn T range piece.alone).2.station =
        (p.turn T range piece).2.station ∧
      ((entering p.station (tx.part piece)).turn T range piece.alone).2.tx.data =
        (p.exchange T range piece).bytes := by
  have call : ((entering p.station (tx.part piece)).exchange T range piece.alone).call =
      (p.exchange T range piece).call := by
    have attributes : p.station.attributes p.tx.owner p.tx.debug p.tx.exclusive =
        p.station.attributes tx.owner tx.debug tx.exclusive := by
      rw [same.owner_eq, same.debug_eq, same.exclusive_eq]
    rw [exchange, exchange, same.call_eq untouched, attributes]
    exact call_alone full _
  have watched : ((entering p.station (tx.part piece)).watch range).station =
      (p.watch range).station := by
    rw [station_watch, station_watch, same.debug_eq, same.exclusive_eq, same.command_eq]
    rfl
  have alone := respond_exchange (T := T) (entering p.station (tx.part piece)) range piece.alone
    (by exact moves)
  have among := respond_exchange (T := T) p range piece (by rwa [same.command_eq])
  rw [call, show (entering p.station (tx.part piece)).station = p.station from rfl, among] at alone
  obtain ⟨response, rest⟩ := Prod.mk.inj alone
  obtain ⟨bytes, world⟩ := Prod.mk.inj rest
  refine ⟨response.symm, ?_, ?_⟩
  · rw [station_turn, watched, ← world]
    exact (station_turn p range piece).symm
  · have same := resembles_turn (T := T) (entering p.station (tx.part piece)) range piece.alone
    rw [bytes]
    exact (Bytes.slice_zero_eq (same.length_eq.trans full)).symm

end Passage

namespace Station

variable {T : Target σ} {s : Station σ} {tx : Transaction}

/-- **Without windows the course of a plain transaction is all that there is to it.** -/
theorem exists_course_of_windowless (T : Target σ) (fresh : tx.response = .incomplete)
    (nonempty : tx.data ≠ []) (moves : tx.command ≠ .ignore) (admits : s.gate.Admits tx)
    (shared : tx.exclusive = false) (windowless : s.gate.config.allowDirect = false) :
    ∃ exchanges outcome q, Passage.Course T
        (plan tx.address tx.data.length tx.streamingWidth tx.byteEnable) (Passage.entering s tx)
        exchanges outcome q ∧
      (∀ response, outcome = .ok response →
        s.submit T tx = (.ok (), q.answer response)) ∧
      (outcome = .error .overflow → s.submit T tx = (.error .overflow, q)) := by
  rcases exists_course T fresh nonempty moves admits with ⟨waits, -⟩ |
    ⟨range, prepared, p, exchanges, outcome, q, -, preparation, admission, course, submitted⟩
  · exact absurd (shared.symm.trans waits.exclusive) Bool.false_ne_true
  · rw [Passage.prepare_of_windowless windowless] at preparation
    cases preparation
    rw [Passage.admission_of_shared shared] at admission
    cases admission
    refine ⟨exchanges, outcome, q, course, ?_, ?_⟩
    · rintro response rfl
      rw [submitted, Passage.finish_ok, course.reward_eq rfl]
    · rintro rfl
      exact submitted

/-! ### Piece after piece -/

/-- A piece that is a transaction of its own has itself as its course. -/
theorem exists_course_of_part (T : Target σ) {piece : Piece} {range : AddressRange}
    (fresh : tx.response = .incomplete) (moves : tx.command ≠ .ignore)
    (shared : tx.exclusive = false) (free : s.gate.config.Unrestricted)
    (positive : 0 < piece.length)
    (full : (tx.data.slice piece.offset piece.length).length = piece.length)
    (made : AddressRange.ofSize piece.address piece.length = .ok range) :
    ∃ exchanges outcome q, Passage.Course T [piece.alone] (Passage.entering s (tx.part piece))
        exchanges outcome q ∧
      ∀ response, outcome = .ok response →
        s.submit T (tx.part piece) = (.ok (), q.answer response) := by
  have nonempty : (tx.part piece).data ≠ [] :=
    List.length_pos_iff.1 (Nat.lt_of_lt_of_eq positive full.symm)
  obtain ⟨fits, -⟩ := (AddressRange.ofSize_eq_ok_iff (Nat.ne_of_gt positive)).1 made
  have admits : s.gate.Admits (tx.part piece) :=
    free.admits nonempty shared nofun nofun (by rw [← full] at fits; exact fits)
  have alone : plan (tx.part piece).address (tx.part piece).data.length
      (tx.part piece).streamingWidth (tx.part piece).byteEnable = [piece.alone] := by
    rw [Transaction.Contiguous.plan_eq ⟨rfl, rfl⟩ nonempty, Piece.alone]
    exact congrArg (fun length => [(⟨piece.address, 0, length⟩ : Piece)]) full
  obtain ⟨exchanges, outcome, q, course, passed, -⟩ := exists_course_of_windowless T
    (by exact fresh) nonempty (by exact moves) admits shared free.windowless
  rw [alone] at course
  exact ⟨exchanges, outcome, q, course, passed⟩

/-- **A piece that is a transaction of its own** does what it does among the others. -/
theorem transport_part {p : Passage σ} {range : AddressRange} {piece : Piece}
    (fresh : tx.response = .incomplete) (moves : tx.command ≠ .ignore)
    (shared : tx.exclusive = false) (free : p.station.gate.config.Unrestricted)
    (same : tx.Resembles p.tx) (fit : piece.Fits tx.data.length)
    (untouched : p.tx.data.slice piece.offset piece.length =
      tx.data.slice piece.offset piece.length)
    (made : AddressRange.ofSize piece.address piece.length = .ok range) :
    (p.station.transport T (tx.part piece)).2.1.response = (p.turn T range piece).1.settled ∧
      (p.station.transport T (tx.part piece)).2.1.data = (p.exchange T range piece).bytes ∧
      (p.station.transport T (tx.part piece)).2.2 = if (p.turn T range piece).1 = .ok then
        ((p.turn T range piece).2.count piece).2.station
        else (p.turn T range piece).2.station := by
  obtain ⟨positive, within, -⟩ := fit
  have full : (tx.data.slice piece.offset piece.length).length = piece.length := by
    rw [Bytes.length_slice]
    omega
  obtain ⟨exchanges, outcome, q, course, passed⟩ :=
    exists_course_of_part T fresh moves shared free positive full made
  obtain ⟨answer, station, data⟩ :=
    @Passage.turn_alone σ T p range tx piece same moves full untouched
  cases course with
  | onward made' moved counted later =>
      obtain rfl := Except.ok.inj (made.symm.trans made')
      cases later
      rw [transport_eq_of_submit (passed .ok rfl)]
      rw [answer] at moved
      refine ⟨by rw [moved]; rfl, ?_, ?_⟩
      · show (Passage.count piece.alone _).2.tx.data = _
        rw [Passage.tx_count, data]
      · -- both are charged the same
        have own := Passage.fee_turn (T := T)
          (Passage.entering p.station (tx.part piece)) range piece.alone
        have among := Passage.fee_turn (T := T) p range piece
        rw [station] at own
        rw [if_pos moved, Passage.station_count]
        show Passage.station (Passage.count piece.alone _).2 = _
        rw [Passage.station_count, station, own, among, fee, fee, same.debug_eq, same.command_eq]
        rfl
  | overrun made' moved overran =>
      -- one piece alone never costs more than a word
      rw [Passage.fst_count_of_free piece.alone (by rw [Passage.delivery_turn]; rfl)] at overran
      cases overran
  | halted made' failed =>
      obtain rfl := Except.ok.inj (made.symm.trans made')
      rw [transport_eq_of_submit (passed _ rfl)]
      rw [answer] at failed
      rw [if_neg failed, ← answer]
      exact ⟨rfl, data, station⟩

/-- **A course is made of parts.**  No piece reaches into the slice of a later one, and none changes
the rules of the gate. -/
theorem transportEach_of_course {pieces : List Piece} {p q : Passage σ} {exchanges : List Exchange}
    {outcome : Except Interruption Response} {response : Response}
    (course : Passage.Course T pieces p exchanges outcome q) (answered : outcome = .ok response)
    (fresh : tx.response = .incomplete) (moves : tx.command ≠ .ignore)
    (shared : tx.exclusive = false) (free : p.station.gate.config.Unrestricted)
    (same : tx.Resembles p.tx) (fit : ∀ piece ∈ pieces, piece.Fits tx.data.length)
    (ordered : pieces.Pairwise fun piece later => piece.offset + piece.length ≤ later.offset)
    (untouched : ∀ piece ∈ pieces, p.tx.data.slice piece.offset piece.length =
      tx.data.slice piece.offset piece.length) :
    p.station.transportEach T tx pieces p.tx.data = (response, q.tx.data, q.station) := by
  induction course with
  | done p =>
      cases answered
      rfl
  | onward made moved counted later ih =>
      rename_i piece rest p q range exchanges outcome
      obtain ⟨fits, fit⟩ := List.forall_mem_cons.1 fit
      obtain ⟨apart, ordered⟩ := List.pairwise_cons.1 ordered
      obtain ⟨here, untouched⟩ := List.forall_mem_cons.1 untouched
      obtain ⟨answer, data, station⟩ := transport_part (T := T) fresh moves shared free same fits
        here made
      rw [Passage.tx_count] at ih
      have after := ih answered (by rwa [Passage.config_count, Passage.config_turn])
        (same.trans (Passage.resembles_turn p range piece)) fit ordered fun other mem =>
          (Passage.slice_turn_of_apart p range (apart other mem)).trans (untouched other mem)
      rw [transportEach_cons, answer, data, station, moved, if_pos (by rfl), if_pos rfl,
        ← Passage.data_turn, after]
  | overrun made moved overran => cases answered
  | halted made failed =>
      cases answered
      obtain ⟨answer, data, station⟩ := transport_part (T := T) fresh moves shared free same
        (fit _ List.mem_cons_self) (untouched _ List.mem_cons_self) made
      rw [transportEach_cons, answer, data, station, if_neg (Response.settled_ne_ok failed),
        if_neg failed, ← Passage.data_turn]

/-- **A burst whose buffer fits the address space has a course that is made of its parts,** unless
its cost cannot be reported. -/
theorem transport_eq_parts (T : Target σ) (fresh : tx.response = .incomplete)
    (nonempty : tx.data ≠ []) (moves : tx.command ≠ .ignore) (shared : tx.exclusive = false)
    (free : s.gate.config.Unrestricted) (admits : s.gate.Admits tx)
    (fits : (s.transport T tx).1 ≠ .error .overflow) :
    ∃ (response : Response) (q : Passage σ),
      s.transport T tx = (.ok q.delivery, (q.answer response).tx, q.station) ∧
      s.transportParts T tx = (response, q.tx.data, q.station) := by
  obtain ⟨exchanges, outcome, q, course, passed, overran⟩ :=
    exists_course_of_windowless T fresh nonempty moves admits shared free.windowless
  have answered : ∃ response, outcome = .ok response := by
    refine ⟨_, course.outcome_eq fun broken => fits ?_⟩
    rw [transport, overran broken]
    rfl
  obtain ⟨response, answered⟩ := answered
  obtain ⟨range, spans⟩ := (Transaction.exists_range_iff nonempty).2 admits.fits
  have parts := @transportEach_of_course σ T tx _ _ _ _ _ _ course answered fresh moves shared free
    ⟨rfl, rfl⟩ (fun piece mem => fits_of_mem_plan spans mem) (pairwise_plan.imp And.left)
    fun piece mem => rfl
  exact ⟨response, q, transport_eq_of_submit (passed response answered), parts⟩

/-- The record makes no difference to what is reported. -/
theorem fst_transport_recorded (T : Target σ) (tx : Transaction) (s : Station σ) :
    (s.recorded.transport T.noting tx).1 = (s.transport T tx).1 :=
  (congrArg Prod.fst (transport_recorded T tx s)).symm

/-- **What a burst moves whose cost can be reported.** -/
theorem movesInParts_of_fits (T : Target σ) (fresh : tx.response = .incomplete)
    (nonempty : tx.data ≠ []) (moves : tx.command ≠ .ignore) (shared : tx.exclusive = false)
    (free : s.gate.config.Unrestricted) (admits : s.gate.Admits tx)
    (fits : (s.transport T tx).1 ≠ .error .overflow) : s.MovesInParts T tx := by
  obtain ⟨response, q, passed, parts⟩ :=
    transport_eq_parts T fresh nonempty moves shared free admits fits
  obtain ⟨response', q', passed', parts'⟩ : ∃ (response : Response) (q : Passage _),
      s.recorded.transport T.noting tx = (.ok q.delivery, (q.answer response).tx, q.station) ∧
      s.recorded.transportParts T.noting tx = (response, q.tx.data, q.station) :=
    transport_eq_parts T.noting fresh nonempty moves shared free admits
      (by rwa [fst_transport_recorded])
  constructor
  case answered => exact ⟨q.delivery, by rw [passed]⟩
  case response => rw [passed, parts]; rfl
  case data => rw [passed, parts]; rfl
  case station => rw [passed, parts]
  case calls => rw [calls, partCalls, passed', parts']

/-- **A burst has the effect of its pieces, one after another,** at a gate without limits: the same
calls, the same bytes, the same response, and the same state of the gate, as long as its buffer does
not run past the last address and its cost can be reported.  If it cannot, the burst breaks off.  If
the buffer runs past the last address, the burst is refused and has no effect, whether or not it
would stream within a pulse that fits. -/
theorem burst_moves_in_parts (T : Target σ) (s : Station σ) (tx : Transaction)
    (fresh : tx.response = .incomplete) (nonempty : tx.data ≠ []) (moves : tx.command ≠ .ignore)
    (shared : tx.exclusive = false) (free : s.gate.config.Unrestricted)
    (divides : ∀ w, tx.streamingWidth = some w → w ∣ tx.data.length)
    (masked : ∀ mask, tx.byteEnable = some mask → mask.length = tx.width) :
    (tx.address.toNat + (tx.data.length - 1) < UInt64.size →
      (s.MovesInParts T tx ↔
        s.cost tx (s.submit T tx).2.delivery.accesses < UInt64.size) ∧
      (¬ s.MovesInParts T tx → (s.transport T tx).1 = .error .overflow)) ∧
      (¬ tx.address.toNat + (tx.data.length - 1) < UInt64.size →
        tx.refused.response = .addressError ∧
          s.transport T tx = (.ok .nothing, tx.refused, s) ∧ s.calls T tx = []) := by
  refine ⟨fun fits => ?_, fun wraps => ⟨?_, ?_, ?_⟩⟩
  · have admits := free.admits nonempty shared divides masked fits
    have whole : (s.transport T tx).1 ≠ .error .overflow → s.MovesInParts T tx :=
      movesInParts_of_fits T fresh nonempty moves shared free admits
    refine ⟨⟨?_, ?_⟩, fun parted => not_not.1 fun reported => parted (whole reported)⟩
    · rintro ⟨⟨delivery, answered⟩, -⟩
      rw [← not_le, ← transport_overflow_iff, answered]
      exact nofun
    · intro affordable
      refine whole fun overran => ?_
      rw [transport_overflow_iff] at overran
      omega
  · rw [Transaction.refused, if_neg wraps]
  · rw [transport_eq_of_submit
      (submit_of_not_admits fresh nonempty moves fun admits => wraps admits.fits)]
  · exact calls_of_not_admits fresh nonempty moves fun admits => wraps admits.fits

/-- No limits and no windows; writes cost three cycles. -/
def quietConfig : GateConfig := { GateConfig.standard with allowDirect := false, writeLatency := 3 }

/-- A gate with these rules before a sink. -/
def quietPort : Station Sink where
  gate := (Gate.create quietConfig .empty).1
  network := (Gate.create quietConfig .empty).2
  world := ⟨.empty, .ofByte 0⟩

theorem unrestricted_quietConfig : quietConfig.Unrestricted := ⟨rfl, rfl, rfl, rfl, rfl⟩

/-- A write of two pulses to the same two addresses. -/
def burst (address : UInt64) : Transaction :=
  { Transaction.ofData .write address [1, 2, 3, 4] with streamingWidth := some 2 }

/-- **A burst of two pulses** makes two calls and is charged for both, as its pieces are. -/
theorem exists_burst_moves_in_parts :
    ∃ (s : Station Sink) (tx : Transaction), tx.streamingWidth = some 2 ∧ tx.data.length = 4 ∧
      s.MovesInParts Sink.target tx ∧ (s.calls Sink.target tx).length = 2 ∧
      (s.transportParts Sink.target tx).2.2.gate.clock = s.gate.clock.charge 6 := by
  obtain ⟨moves, -⟩ := burst_moves_in_parts Sink.target quietPort (burst 0x40) rfl (by decide)
    (by decide) rfl unrestricted_quietConfig (by decide) nofun
  exact ⟨quietPort, burst 0x40, rfl, rfl, (moves (by decide)).1.2 (by decide), by decide,
    by decide⟩

/-- **It is not enough that a pulse fits the address space:** two pulses to the last two addresses
are refused, and each of them alone is carried out. -/
theorem not_forall_moves_in_parts :
    ¬ ∀ (σ : Type) (T : Target σ) (s : Station σ) (tx : Transaction),
      tx.response = .incomplete → tx.data ≠ [] → tx.command ≠ .ignore → tx.exclusive = false →
      s.gate.config.Unrestricted → (∀ w, tx.streamingWidth = some w → w ∣ tx.data.length) →
      (∀ mask, tx.byteEnable = some mask → mask.length = tx.width) →
      tx.address.toNat + (tx.width - 1) < UInt64.size → s.MovesInParts T tx := by
  intro claimed
  have moves := claimed Sink Sink.target quietPort (burst 0xfffffffffffffffe) rfl (by decide)
    (by decide) rfl unrestricted_quietConfig (by decide) nofun (by decide)
  have whole : (quietPort.transport Sink.target (burst 0xfffffffffffffffe)).2.1.response =
      .addressError := by decide
  have parts : (quietPort.transportParts Sink.target (burst 0xfffffffffffffffe)).1 = .ok := by
    decide
  have same := moves.response
  rw [whole, parts] at same
  cases same

end Station

end Interconnect
