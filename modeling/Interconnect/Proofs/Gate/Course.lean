import Interconnect.Proofs.Gate.Admission
import Interconnect.Proofs.Gate.Response
import Interconnect.Proofs.Transfer.Patch

/-!
# The course of a transfer

A transfer goes from piece to piece until one fails, or until the report cannot hold what they have
cost.  Its course is the list of what was asked and answered on the way.  Whatever a transfer leaves
behind (the buffer, the report, the reservations, the clock) can be read off its course, by
induction on the pieces that were moved.

## Main Definitions

* `Target.respond`, `Target.answers` — what a target answers to one call and to several
* `Exchange` — a piece, the call that was made for it, and the answer
* `Passage.turn` — what happens to one piece before it is counted
* `Passage.Course` — a transfer with its exchanges
* `Station.cost` — what so many pieces cost together

## Main Statements

* `Passage.carryAll_eq_iff` — every transfer has a course
* `Passage.Course.planned` — exchanges are about the pieces in order
* `Passage.Course.ending` — a transfer ends with its last piece or with the first that fails
* `Passage.Course.overflow_iff` — or where a word cannot hold its cost
* `Passage.Course.data_eq`, `Passage.Course.reservations_eq` — what a transfer leaves behind
-/

namespace Interconnect

universe u

variable {σ : Type u}

/-! ### Calls and answers -/

namespace Target

/-- The addresses that a call is about. -/
def Call.range : Call → AddressRange
  | .read range _ _ | .write range _ _ | .window range _ => range

/-- **What a target answers to a call,** with the bytes as it leaves them.  A request for a window
is always granted as such and moves no bytes. -/
def respond (T : Target σ) (w : World σ) : Call → Response × Bytes × World σ
  | .read range attributes buffer => T.read range attributes buffer w
  | .write range attributes data =>
    ((T.write range attributes data w).1, data, (T.write range attributes data w).2)
  | .window range attributes => (.ok, [], (T.window range attributes w).2)

/-- **The answers to calls that are made one after another.** -/
def answers (T : Target σ) : World σ → List Call → List (Response × Bytes)
  | _, [] => []
  | w, call :: rest =>
    let (response, bytes, world) := T.respond w call
    (response, bytes) :: T.answers world rest

@[simp] theorem answers_nil (T : Target σ) (w : World σ) : T.answers w [] = [] := rfl

theorem answers_cons (T : Target σ) (w : World σ) (call : Call) (rest : List Call) :
    T.answers w (call :: rest) =
      ((T.respond w call).1, (T.respond w call).2.1) :: T.answers (T.respond w call).2.2 rest := rfl

/-- Who takes notes answers as before. -/
theorem respond_noting (T : Target σ) (w : World (List Call × σ)) (call : Call) :
    T.noting.respond w call =
      ((T.respond w.forget call).1, (T.respond w.forget call).2.1,
        (T.respond w.forget call).2.2.withCalls (w.calls ++ [call])) := by
  rcases call with - | - | - <;> rfl

theorem answers_noting (T : Target σ) (w : World (List Call × σ)) (calls : List Call) :
    T.noting.answers w calls = T.answers w.forget calls := by
  induction calls generalizing w with
  | nil => rfl
  | cons call rest ih =>
      rw [answers_cons, answers_cons, ih, respond_noting]
      rfl

end Target

/-- The call by which a transaction asks for one of its pieces. -/
def Transaction.call (tx : Transaction) (attributes : Attributes) (range : AddressRange)
    (piece : Piece) : Target.Call :=
  let slice := tx.data.slice piece.offset piece.length
  match tx.command with
  | .read | .ignore => .read range attributes slice
  | .write => .write range attributes slice

@[simp] theorem Transaction.range_call (tx : Transaction) (attributes : Attributes)
    (range : AddressRange) (piece : Piece) : (tx.call attributes range piece).range = range := by
  unfold call
  dsimp only
  split <;> rfl

namespace Transaction.Resembles

variable {tx other : Transaction}

theorem command_eq (h : tx.Resembles other) : other.command = tx.command := by rw [h.rest]

theorem owner_eq (h : tx.Resembles other) : other.owner = tx.owner := by rw [h.rest]

theorem debug_eq (h : tx.Resembles other) : other.debug = tx.debug := by rw [h.rest]

theorem exclusive_eq (h : tx.Resembles other) : other.exclusive = tx.exclusive := by rw [h.rest]

end Transaction.Resembles

/-- A call is about the slice as it stands. -/
theorem Transaction.Resembles.call_eq {tx other : Transaction} (h : tx.Resembles other)
    {piece : Piece} (untouched : other.data.slice piece.offset piece.length =
      tx.data.slice piece.offset piece.length) (attributes : Attributes) (range : AddressRange) :
    other.call attributes range piece = tx.call attributes range piece := by
  unfold call
  rw [untouched, h.command_eq]

/-- A response that is no success is settled as none. -/
theorem Response.settled_ne_ok {response : Response} (h : response ≠ .ok) :
    response.settled ≠ .ok := by
  rcases response with - | - | - | - <;> simp [Response.settled] at h ⊢

/-! ### Costs -/

namespace Station

/-- **What so many pieces cost together,** whether or not a word can hold it. -/
def cost (s : Station σ) (tx : Transaction) (accesses : Nat) : Nat := accesses * (s.fee tx).toNat

theorem cost_succ (s : Station σ) (tx : Transaction) (accesses : Nat) :
    s.cost tx (accesses + 1) = s.cost tx accesses + (s.fee tx).toNat :=
  Nat.succ_mul _ _

/-- The fee depends on the rules of the gate, and not on the bytes of the transaction. -/
theorem fee_congr {s t : Station σ} {tx other : Transaction}
    (rules : t.gate.config = s.gate.config) (same : tx.Resembles other) :
    t.fee other = s.fee tx := by
  rw [fee, fee, rules, same.debug_eq, same.command_eq]

theorem cost_congr {s t : Station σ} {tx other : Transaction}
    (rules : t.gate.config = s.gate.config) (same : tx.Resembles other) (accesses : Nat) :
    t.cost other accesses = s.cost tx accesses := by
  rw [cost, cost, fee_congr rules same]

end Station

/-! ### Turns -/

/-- **What was asked about a piece and what was answered.** -/
structure Exchange where
  /-- The piece. -/
  piece : Piece
  /-- The call to the target. -/
  call : Target.Call
  /-- Its response. -/
  response : Response
  /-- The slice of the buffer after the call. -/
  bytes : Bytes

namespace Passage

variable {T : Target σ}

/-! ### One turn -/

/-- **What happens to one piece before it is counted:** the monitor sees it, and the target is
asked. -/
def turn (T : Target σ) (range : AddressRange) (piece : Piece) (p : Passage σ) :
    Response × Passage σ :=
  (p.watch range).ask T range piece

/-- The exchange in one turn. -/
def exchange (T : Target σ) (range : AddressRange) (piece : Piece) (p : Passage σ) : Exchange where
  piece := piece
  call := p.tx.call (p.station.attributes p.tx.owner p.tx.debug p.tx.exclusive) range piece
  response := (p.turn T range piece).1
  bytes := (p.turn T range piece).2.tx.data.slice piece.offset piece.length

/-- Of a station the watch over a piece changes the monitor, and that only for a plain write. -/
theorem station_watch (p : Passage σ) (range : AddressRange) :
    (p.watch range).station = p.station.setMonitor
      (if p.tx.debug = false ∧ p.tx.exclusive = false ∧ p.tx.command = .write then
        p.station.gate.monitor.breakRange range else p.station.gate.monitor) := by
  unfold watch
  split
  · next debug => simp [debug, Station.setMonitor]
  · next plain =>
      dsimp only
      split
      · next exclusive => simp [exclusive, Station.setMonitor]
      · next shared =>
          rw [Monitor.apply_of_not_exclusive, Option.getD_some]
          simp [plain, shared, setStation]

theorem resembles_turn (p : Passage σ) (range : AddressRange) (piece : Piece) :
    p.tx.Resembles (p.turn T range piece).2.tx :=
  (p.pending_watch range).resembles.trans ((p.watch range).resembles_ask range piece)

@[simp] theorem delivery_turn (p : Passage σ) (range : AddressRange) (piece : Piece) :
    (p.turn T range piece).2.delivery = p.delivery := by
  rw [turn, delivery_ask, delivery_watch]

/-- Of a station the target changes the world. -/
theorem station_ask (p : Passage σ) (range : AddressRange) (piece : Piece) :
    (p.ask T range piece).2.station =
      p.station.setWorld (p.ask T range piece).2.station.world := by
  unfold ask
  dsimp only
  split <;> rfl

/-- Of the buffer the target changes the slice. -/
theorem data_ask (p : Passage σ) (range : AddressRange) (piece : Piece) :
    (p.ask T range piece).2.tx.data = p.tx.data.overwrite piece.offset
      ((p.ask T range piece).2.tx.data.slice piece.offset piece.length) := by
  unfold ask
  dsimp only
  split
  · dsimp only
    rw [Bytes.slice_overwrite (T.length_read _ _ _ _)]
  · exact (Bytes.overwrite_slice _ _ _).symm
  · exact (Bytes.overwrite_slice _ _ _).symm

/-- What a target is asked about a piece is a call. -/
theorem respond_ask (p : Passage σ) (range : AddressRange) (piece : Piece)
    (moves : p.tx.command ≠ .ignore) :
    T.respond p.station.world (p.tx.call
        (p.station.attributes p.tx.owner p.tx.debug p.tx.exclusive) range piece) =
      ((p.ask T range piece).1,
        (p.ask T range piece).2.tx.data.slice piece.offset piece.length,
        (p.ask T range piece).2.station.world) := by
  obtain ⟨⟨command, start, data, owner, mask, width, debug, exclusive, answer, allowed⟩,
    delivery, station⟩ := p
  rcases command with - | - | -
  · -- what a read fills in is the slice afterwards
    simp only [ask, Transaction.call, Target.respond]
    rw [Bytes.slice_overwrite (T.length_read _ _ _ _)]
    rfl
  · rfl
  · exact absurd rfl moves

theorem station_turn (p : Passage σ) (range : AddressRange) (piece : Piece) :
    (p.turn T range piece).2.station =
      (p.watch range).station.setWorld (p.turn T range piece).2.station.world :=
  station_ask _ range piece

/-- **A turn is a call and its answer.** -/
theorem respond_exchange (p : Passage σ) (range : AddressRange) (piece : Piece)
    (moves : p.tx.command ≠ .ignore) :
    T.respond p.station.world (p.exchange T range piece).call =
      ((p.exchange T range piece).response, (p.exchange T range piece).bytes,
        (p.turn T range piece).2.station.world) := by
  have watched := p.pending_watch range
  obtain ⟨allowed, tx⟩ := watched.tx
  have asked := respond_ask (T := T) (p.watch range) range piece (by rwa [tx])
  rw [watched.world, tx, show (p.watch range).station.attributes = p.station.attributes by
    rw [station_watch]; rfl] at asked
  exact asked

/-- **Of the buffer a turn changes the slice.** -/
theorem data_turn (p : Passage σ) (range : AddressRange) (piece : Piece) :
    (p.turn T range piece).2.tx.data =
      p.tx.data.overwrite piece.offset (p.exchange T range piece).bytes := by
  rw [← (p.pending_watch range).data_eq]
  exact data_ask (p.watch range) range piece

/-- No slice is longer than its piece. -/
theorem length_bytes_exchange_le (p : Passage σ) (range : AddressRange) (piece : Piece) :
    (p.exchange T range piece).bytes.length ≤ piece.length := by
  rw [exchange, Bytes.length_slice]
  exact Nat.min_le_left _ _

/-- The slice of a later piece stays. -/
theorem slice_turn_of_apart (p : Passage σ) (range : AddressRange) {piece other : Piece}
    (apart : piece.offset + piece.length ≤ other.offset) :
    (p.turn T range piece).2.tx.data.slice other.offset other.length =
      p.tx.data.slice other.offset other.length := by
  have short := length_bytes_exchange_le (T := T) p range piece
  rw [data_turn, Bytes.slice_overwrite_of_apart]
  exact .inr (Nat.le_trans (Nat.add_le_add_left short _) apart)

/-- Hope for a window is lost on the way, and never found. -/
theorem allowed_of_turn {p : Passage σ} {range : AddressRange} {piece : Piece}
    (h : (p.turn T range piece).2.tx.directAllowed = true) : p.tx.directAllowed = true := by
  have watched : (p.watch range).tx.directAllowed = true := by
    rw [← h, turn]
    generalize p.watch range = q
    unfold ask
    dsimp only
    split <;> rfl
  unfold watch at watched
  dsimp only at watched
  split at watched
  · exact watched
  · split at watched
    · exact (Bool.and_eq_true_iff.1 watched).1
    · exact (Bool.and_eq_true_iff.1 watched).1

theorem config_turn (p : Passage σ) (range : AddressRange) (piece : Piece) :
    (p.turn T range piece).2.station.gate.config = p.station.gate.config := by
  rw [station_turn, station_watch]
  rfl

/-! ### What a piece costs -/

/-- The clock is charged the fee of a piece that is counted. -/
theorem clock_count (p : Passage σ) (piece : Piece) :
    (p.count piece).2.station.gate.clock = p.station.gate.clock.charge (p.station.fee p.tx) := by
  rw [station_count]
  rfl

/-- What is done before it is counted costs nothing. -/
theorem clock_turn (p : Passage σ) (range : AddressRange) (piece : Piece) :
    (p.turn T range piece).2.station.gate.clock = p.station.gate.clock := by
  rw [station_turn, station_watch]
  rfl

/-- Asking the target does not change what a piece costs. -/
theorem fee_turn (p : Passage σ) (range : AddressRange) (piece : Piece) :
    (p.turn T range piece).2.station.fee (p.turn T range piece).2.tx = p.station.fee p.tx :=
  Station.fee_congr (config_turn p range piece) (resembles_turn p range piece)

/-- Pieces of one transfer cost the same. -/
theorem cost_turn (p : Passage σ) (range : AddressRange) (piece : Piece) (accesses : Nat) :
    ((p.turn T range piece).2.count piece).2.station.cost
      ((p.turn T range piece).2.count piece).2.tx accesses = p.station.cost p.tx accesses := by
  refine Station.cost_congr ?_ ?_ accesses
  · rw [config_count, config_turn]
  · rw [tx_count]
    exact resembles_turn p range piece

/-! ### The course -/

/-- **A transfer with its exchanges,** the outcome of it and the passage at its end.  It goes on as
long as pieces succeed and can be counted, and stops at the first that does not. -/
inductive Course (T : Target σ) :
    List Piece → Passage σ → List Exchange → Except Interruption Response → Passage σ → Prop
  /-- No piece is left. -/
  | done (p : Passage σ) : Course T [] p [] (.ok .ok) p
  /-- A piece is moved and counted. -/
  | onward {piece : Piece} {rest : List Piece} {p q : Passage σ} {range : AddressRange}
      {exchanges : List Exchange} {outcome : Except Interruption Response}
      (made : AddressRange.ofSize piece.address piece.length = .ok range)
      (moved : (p.turn T range piece).1 = .ok)
      (counted : ((p.turn T range piece).2.count piece).1 = .ok .ok)
      (later : Course T rest ((p.turn T range piece).2.count piece).2 exchanges outcome q) :
      Course T (piece :: rest) p (p.exchange T range piece :: exchanges) outcome q
  /-- A piece is moved, and the report runs over. -/
  | overrun {piece : Piece} {rest : List Piece} {p : Passage σ} {range : AddressRange}
      (made : AddressRange.ofSize piece.address piece.length = .ok range)
      (moved : (p.turn T range piece).1 = .ok)
      (overran : ((p.turn T range piece).2.count piece).1 = .error .overflow) :
      Course T (piece :: rest) p [p.exchange T range piece] (.error .overflow)
        ((p.turn T range piece).2.count piece).2
  /-- A piece fails. -/
  | halted {piece : Piece} {rest : List Piece} {p : Passage σ} {range : AddressRange}
      (made : AddressRange.ofSize piece.address piece.length = .ok range)
      (failed : (p.turn T range piece).1 ≠ .ok) :
      Course T (piece :: rest) p [p.exchange T range piece] (.ok (p.turn T range piece).1.settled)
        (p.turn T range piece).2

/-- **A piece that fits is one turn,** and is counted if it succeeds. -/
theorem carry_eq (p : Passage σ) {piece : Piece} {range : AddressRange}
    (within : piece.offset + piece.length ≤ p.tx.data.length)
    (made : AddressRange.ofSize piece.address piece.length = .ok range) :
    p.carry T piece = if (p.turn T range piece).1 = .ok then (p.turn T range piece).2.count piece
      else (.ok (p.turn T range piece).1.settled, (p.turn T range piece).2) := by
  rw [← (p.pending_watch range).resembles.length_eq] at within
  unfold carry turn
  rw [made]
  dsimp only
  rw [if_neg (Nat.not_lt.2 within)]
  generalize (p.watch range).ask T range piece = answer
  obtain ⟨response, q⟩ := answer
  cases response <;> rfl

/-- A piece that fits still fits after the turn of another. -/
theorem fits_of_turn {p : Passage σ} {range : AddressRange} {piece : Piece} {pieces : List Piece}
    (fit : ∀ other ∈ pieces, other.Fits p.tx.data.length) :
    ∀ other ∈ pieces, other.Fits ((p.turn T range piece).2.count piece).2.tx.data.length := by
  rwa [tx_count, (resembles_turn p range piece).length_eq]

/-- **Every transfer has a course.** -/
theorem exists_course {pieces : List Piece} {p : Passage σ}
    (fit : ∀ piece ∈ pieces, piece.Fits p.tx.data.length) :
    ∃ exchanges, Course T pieces p exchanges (p.carryAll T pieces).1 (p.carryAll T pieces).2 := by
  induction pieces generalizing p with
  | nil => exact ⟨[], .done p⟩
  | cons piece rest ih =>
      obtain ⟨⟨-, within, range, made⟩, fit⟩ := List.forall_mem_cons.1 fit
      rw [carryAll_cons, carry_eq p within made]
      by_cases moved : (p.turn T range piece).1 = .ok
      · rw [if_pos moved]
        by_cases counted : ((p.turn T range piece).2.count piece).1 = .ok .ok
        · obtain ⟨exchanges, later⟩ := ih (fits_of_turn fit)
          rw [if_pos counted]
          exact ⟨_, .onward made moved counted later⟩
        · have overran := fst_count (p.turn T range piece).2 piece
          split at overran
          · exact absurd overran counted
          · rw [if_neg counted, overran]
            exact ⟨_, .overrun made moved overran⟩
      · have refused : (Except.ok (p.turn T range piece).1.settled : Except Interruption _) ≠
            .ok .ok := fun fine => Response.settled_ne_ok moved (Except.ok.inj fine)
        rw [if_neg moved, if_neg refused]
        exact ⟨_, .halted made moved⟩

/-- **Every course is that of a transfer.** -/
theorem carryAll_eq_of_course {pieces : List Piece} {p q : Passage σ} {exchanges : List Exchange}
    {outcome : Except Interruption Response}
    (fit : ∀ piece ∈ pieces, piece.Fits p.tx.data.length)
    (h : Course T pieces p exchanges outcome q) : p.carryAll T pieces = (outcome, q) := by
  induction h with
  | done p => rfl
  | onward made moved counted later ih =>
      obtain ⟨⟨-, within, -⟩, fit⟩ := List.forall_mem_cons.1 fit
      rw [carryAll_cons, carry_eq _ within made, if_pos moved, if_pos counted,
        ih (fits_of_turn fit)]
  | overrun made moved overran =>
      obtain ⟨⟨-, within, -⟩, -⟩ := List.forall_mem_cons.1 fit
      rw [carryAll_cons, carry_eq _ within made, if_pos moved,
        if_neg (by rw [overran]; exact nofun)]
      exact Prod.ext overran rfl
  | halted made failed =>
      obtain ⟨⟨-, within, -⟩, -⟩ := List.forall_mem_cons.1 fit
      rw [carryAll_cons, carry_eq _ within made, if_neg failed, if_neg]
      exact fun fine => Response.settled_ne_ok failed (Except.ok.inj fine)

theorem carryAll_eq_iff {pieces : List Piece} {p q : Passage σ}
    {outcome : Except Interruption Response}
    (fit : ∀ piece ∈ pieces, piece.Fits p.tx.data.length) :
    p.carryAll T pieces = (outcome, q) ↔ ∃ exchanges, Course T pieces p exchanges outcome q := by
  constructor
  · intro moved
    have course := exists_course (T := T) fit
    rwa [moved] at course
  · rintro ⟨exchanges, course⟩
    exact carryAll_eq_of_course fit course

namespace Course

variable {pieces : List Piece} {p q : Passage σ} {exchanges : List Exchange}
  {outcome : Except Interruption Response}

/-! ### What is asked -/

/-- **The exchanges are about the pieces in order,** from the first on. -/
theorem planned (h : Course T pieces p exchanges outcome q) :
    exchanges.map Exchange.piece <+: pieces := by
  induction h with
  | done p => exact List.prefix_rfl
  | onward made moved counted later ih => exact List.prefix_cons_inj _ |>.2 ih
  | overrun made moved overran => exact ⟨_, rfl⟩
  | halted made failed => exact ⟨_, rfl⟩

/-- **A transfer ends when all pieces have been moved, or with the first that fails,** or when the
report runs over. -/
theorem ending (h : Course T pieces p exchanges outcome q) :
    (exchanges.map Exchange.piece = pieces ∧ (∀ e ∈ exchanges, e.response = .ok) ∧
        outcome = .ok .ok) ∨
      (∃ before last, exchanges = before ++ [last] ∧ (∀ e ∈ before, e.response = .ok) ∧
        last.response ≠ .ok ∧ outcome = .ok last.response.settled) ∨
      ((∀ e ∈ exchanges, e.response = .ok) ∧ outcome = .error .overflow) := by
  induction h with
  | done p => exact .inl ⟨rfl, nofun, rfl⟩
  | onward made moved counted later ih =>
      rcases ih with ⟨all, fine, answer⟩ | ⟨before, last, parts, fine, failed, answer⟩ |
        ⟨fine, answer⟩
      · exact .inl ⟨congrArg (_ :: ·) all, List.forall_mem_cons.2 ⟨moved, fine⟩, answer⟩
      · exact .inr (.inl ⟨_ :: before, last, congrArg (_ :: ·) parts,
          List.forall_mem_cons.2 ⟨moved, fine⟩, failed, answer⟩)
      · exact .inr (.inr ⟨List.forall_mem_cons.2 ⟨moved, fine⟩, answer⟩)
  | overrun made moved overran =>
      exact .inr (.inr ⟨List.forall_mem_cons.2 ⟨moved, nofun⟩, rfl⟩)
  | halted made failed => exact .inr (.inl ⟨[], _, rfl, nofun, failed, rfl⟩)

/-- A transfer changes the bytes of its transaction at most. -/
theorem resembles (h : Course T pieces p exchanges outcome q) : p.tx.Resembles q.tx := by
  induction h with
  | done p => exact .refl p.tx
  | onward made moved counted later ih =>
      rw [tx_count] at ih
      exact (resembles_turn _ _ _).trans ih
  | overrun made moved overran =>
      rw [tx_count]
      exact resembles_turn _ _ _
  | halted made failed => exact resembles_turn _ _ _

/-- A transfer raises no hope for a window. -/
theorem allowed (h : Course T pieces p exchanges outcome q) (hope : q.tx.directAllowed = true) :
    p.tx.directAllowed = true := by
  induction h with
  | done p => exact hope
  | onward made moved counted later ih =>
      have earlier := ih hope
      rw [tx_count] at earlier
      exact allowed_of_turn earlier
  | overrun made moved overran =>
      rw [tx_count] at hope
      exact allowed_of_turn hope
  | halted made failed => exact allowed_of_turn hope

/-- **The calls are those of the transaction as it was before the transfer:** no piece reaches into
the slice of a later one. -/
theorem asked (h : Course T pieces p exchanges outcome q) {tx : Transaction}
    {attributes : Attributes} (same : tx.Resembles p.tx)
    (known : p.station.attributes tx.owner tx.debug tx.exclusive = attributes)
    (ordered : pieces.Pairwise fun piece later => piece.offset + piece.length ≤ later.offset)
    (untouched : ∀ piece ∈ pieces, p.tx.data.slice piece.offset piece.length =
      tx.data.slice piece.offset piece.length) :
    ∀ e ∈ exchanges, ∃ range,
      AddressRange.ofSize e.piece.address e.piece.length = .ok range ∧
        e.call = tx.call attributes range e.piece := by
  have first {piece : Piece} {p : Passage σ} {range : AddressRange} (same : tx.Resembles p.tx)
      (known : p.station.attributes tx.owner tx.debug tx.exclusive = attributes)
      (untouched : p.tx.data.slice piece.offset piece.length =
        tx.data.slice piece.offset piece.length) :
      (p.exchange T range piece).call = tx.call attributes range piece := by
    rw [← same.call_eq untouched, ← known, ← same.owner_eq, ← same.debug_eq, ← same.exclusive_eq]
    rfl
  induction h with
  | done p => exact nofun
  | onward made moved counted later ih =>
      rename_i piece rest p q range exchanges outcome
      obtain ⟨apart, ordered⟩ := List.pairwise_cons.1 ordered
      obtain ⟨here, untouched⟩ := List.forall_mem_cons.1 untouched
      refine List.forall_mem_cons.2 ⟨⟨range, made, first same known here⟩, ih ?_ ?_ ordered ?_⟩
      · rw [tx_count]
        exact same.trans (resembles_turn p range piece)
      · rw [← known, Station.attributes, Station.attributes, config_count, config_turn]
      · intro other mem
        rw [tx_count, slice_turn_of_apart p range (apart other mem), untouched other mem]
  | overrun made moved overran =>
      obtain ⟨here, -⟩ := List.forall_mem_cons.1 untouched
      exact List.forall_mem_cons.2 ⟨⟨_, made, first same known here⟩, nofun⟩
  | halted made failed =>
      obtain ⟨here, -⟩ := List.forall_mem_cons.1 untouched
      exact List.forall_mem_cons.2 ⟨⟨_, made, first same known here⟩, nofun⟩

/-- **The target has given these answers to these calls.** -/
theorem answered (h : Course T pieces p exchanges outcome q) (moves : p.tx.command ≠ .ignore) :
    T.answers p.station.world (exchanges.map Exchange.call) =
      exchanges.map fun e => (e.response, e.bytes) := by
  have single {p : Passage σ} {range : AddressRange} {piece : Piece}
      (moves : p.tx.command ≠ .ignore) :
      T.answers p.station.world ([p.exchange T range piece].map Exchange.call) =
        [p.exchange T range piece].map fun e => (e.response, e.bytes) := by
    rw [List.map_singleton, List.map_singleton, Target.answers_cons,
      respond_exchange p range piece moves, Target.answers_nil]
  induction h with
  | done p => rfl
  | onward made moved counted later ih =>
      rename_i piece rest p q range exchanges outcome
      have next := ih (by rwa [tx_count, (resembles_turn p range piece).command_eq])
      rw [world_count] at next
      rw [List.map_cons, List.map_cons, Target.answers_cons, respond_exchange p range piece moves,
        next]
  | overrun made moved overran => exact single moves
  | halted made failed => exact single moves

/-- **They are all the calls of the transfer.** -/
theorem recorded {p q : Passage (List Target.Call × σ)}
    (h : Course T.noting pieces p exchanges outcome q) (moves : p.tx.command ≠ .ignore) :
    q.station.world.calls = p.station.world.calls ++ exchanges.map Exchange.call := by
  have noted {p : Passage (List Target.Call × σ)} {range : AddressRange} {piece : Piece}
      (moves : p.tx.command ≠ .ignore) : (p.turn T.noting range piece).2.station.world.calls =
        p.station.world.calls ++ [(p.exchange T.noting range piece).call] := by
    have asked := respond_exchange (T := T.noting) p range piece moves
    rw [Target.respond_noting] at asked
    exact (congrArg (fun answer => answer.2.2.calls) asked).symm
  induction h with
  | done p => exact (List.append_nil _).symm
  | onward made moved counted later ih =>
      rename_i piece rest p q range exchanges outcome
      rw [ih (by rwa [tx_count, (resembles_turn p range piece).command_eq]), world_count,
        noted moves, List.append_assoc]
      rfl
  | overrun made moved overran =>
      rw [world_count]
      exact noted moves
  | halted made failed => exact noted moves

/-! ### What is reported -/

/-- **The pieces that succeed are counted.** -/
theorem accesses_eq (h : Course T pieces p exchanges outcome q) : q.delivery.accesses =
    p.delivery.accesses + exchanges.countP fun e => e.response = .ok := by
  induction h with
  | done p => rfl
  | onward made moved counted later ih =>
      rw [ih, accesses_count, delivery_turn,
        List.countP_cons_of_pos (by exact decide_eq_true moved)]
      omega
  | overrun made moved overran =>
      rw [accesses_count, delivery_turn, List.countP_cons_of_pos (by exact decide_eq_true moved)]
      rfl
  | halted made failed =>
      rw [delivery_turn, List.countP_cons_of_neg (by exact mt of_decide_eq_true failed)]
      rfl

/-- **So are their bytes.** -/
theorem bytes_eq (h : Course T pieces p exchanges outcome q) : q.delivery.bytes =
    p.delivery.bytes +
      ((exchanges.filter fun e => e.response = .ok).map fun e => e.piece.length).sum := by
  induction h with
  | done p => rfl
  | onward made moved counted later ih =>
      rw [ih, bytes_count, delivery_turn, List.filter_cons_of_pos (by exact decide_eq_true moved),
        List.map_cons, List.sum_cons, Nat.add_assoc]
      rfl
  | overrun made moved overran =>
      rw [bytes_count, delivery_turn, List.filter_cons_of_pos (by exact decide_eq_true moved)]
      rfl
  | halted made failed =>
      rw [delivery_turn, List.filter_cons_of_neg (by exact mt of_decide_eq_true failed)]
      rfl

/-! ### What it costs -/

/-- **The report runs over exactly if a word cannot hold what it adds up.** -/
theorem overflow_iff (h : Course T pieces p exchanges outcome q) :
    outcome = .error .overflow ↔ UInt64.size ≤ p.delivery.cycles.toNat +
      p.station.cost p.tx (exchanges.countP fun e => e.response = .ok) := by
  induction h with
  | done p =>
      have := p.delivery.cycles.toNat_lt
      refine iff_of_false nofun ?_
      simp only [Station.cost, List.countP_nil, Nat.zero_mul, UInt64.size]
      omega
  | onward made moved counted later ih =>
      rename_i piece rest p q range exchanges outcome
      rw [ih, cost_turn, cycles_count counted, delivery_turn, fee_turn,
        List.countP_cons_of_pos (by exact decide_eq_true moved), Station.cost_succ]
      omega
  | overrun made moved overran =>
      rename_i piece rest p range
      have above := fst_count (p.turn T range piece).2 piece
      rw [overran, delivery_turn, fee_turn] at above
      split at above
      · cases above
      · next beyond =>
          rw [List.countP_cons_of_pos (by exact decide_eq_true moved)]
          simpa [Station.cost] using beyond
  | halted made failed =>
      rename_i piece rest p range
      have := p.delivery.cycles.toNat_lt
      refine iff_of_false nofun ?_
      rw [List.countP_cons_of_neg (by exact mt of_decide_eq_true failed), List.countP_nil,
        Station.cost, Nat.zero_mul, UInt64.size]
      omega

/-- **The report adds up what the pieces cost that succeed,** unless it runs over. -/
theorem cycles_eq (h : Course T pieces p exchanges outcome q) (fits : outcome ≠ .error .overflow) :
    q.delivery.cycles.toNat = p.delivery.cycles.toNat +
      p.station.cost p.tx (exchanges.countP fun e => e.response = .ok) := by
  induction h with
  | done p => simp [Station.cost]
  | onward made moved counted later ih =>
      rename_i piece rest p q range exchanges outcome
      rw [ih fits, cost_turn, cycles_count counted, delivery_turn, fee_turn,
        List.countP_cons_of_pos (by exact decide_eq_true moved), Station.cost_succ]
      omega
  | overrun made moved overran => exact absurd rfl fits
  | halted made failed =>
      rw [delivery_turn, List.countP_cons_of_neg (by exact mt of_decide_eq_true failed)]
      simp [Station.cost]

/-- **The clock is charged as much in any case,** and stops at the greatest word. -/
theorem clock_eq (h : Course T pieces p exchanges outcome q) :
    q.station.gate.clock.cycles.toNat =
      min (p.station.gate.clock.cycles.toNat +
        p.station.cost p.tx (exchanges.countP fun e => e.response = .ok)) (UInt64.size - 1) := by
  induction h with
  | done p =>
      have := p.station.gate.clock.cycles.toNat_lt
      simp only [Station.cost, List.countP_nil, Nat.zero_mul, UInt64.size]
      omega
  | onward made moved counted later ih =>
      rename_i piece rest p q range exchanges outcome
      rw [ih, cost_turn, clock_count, clock_turn, Clock.toNat_cycles_charge, fee_turn,
        List.countP_cons_of_pos (by exact decide_eq_true moved), Station.cost_succ]
      omega
  | overrun made moved overran =>
      rename_i piece rest p range
      rw [clock_count, clock_turn, Clock.toNat_cycles_charge, fee_turn,
        List.countP_cons_of_pos (by exact decide_eq_true moved), List.countP_nil,
        Station.cost_succ, Station.cost, Nat.zero_mul, Nat.zero_add]
  | halted made failed =>
      rename_i piece rest p range
      have := p.station.gate.clock.cycles.toNat_lt
      rw [clock_turn, List.countP_cons_of_neg (by exact mt of_decide_eq_true failed),
        List.countP_nil, Station.cost, UInt64.size]
      omega

/-! ### What is left behind -/

/-- **The buffer holds, slice by slice, what the target has left in it.** -/
theorem data_eq (h : Course T pieces p exchanges outcome q) :
    q.tx.data = p.tx.data.patch (exchanges.map fun e => (e.piece.offset, e.bytes)) := by
  induction h with
  | done p => rfl
  | onward made moved counted later ih =>
      rw [ih, tx_count, data_turn]
      rfl
  | overrun made moved overran =>
      rw [tx_count]
      exact data_turn _ _ _
  | halted made failed => exact data_turn _ _ _

theorem monitor_turn (p : Passage σ) (range : AddressRange) (piece : Piece) :
    (p.turn T range piece).2.station.gate.monitor =
      if p.tx.debug = false ∧ p.tx.exclusive = false ∧ p.tx.command = .write then
        p.station.gate.monitor.breakRange range else p.station.gate.monitor := by
  rw [station_turn, station_watch]
  rfl

/-- **A plain write leaves the reservations that meet none of its pieces.** -/
theorem reservations_eq (h : Course T pieces p exchanges outcome q) (plain : p.tx.debug = false)
    (shared : p.tx.exclusive = false) (write : p.tx.command = .write) :
    q.station.gate.monitor.reservations = p.station.gate.monitor.reservations.filter fun r =>
      exchanges.all fun e => !r.range.overlaps e.call.range := by
  have single {p : Passage σ} {range : AddressRange} {piece : Piece} (plain : p.tx.debug = false)
      (shared : p.tx.exclusive = false) (write : p.tx.command = .write) :
      (p.turn T range piece).2.station.gate.monitor.reservations =
        p.station.gate.monitor.reservations.filter fun r =>
          [p.exchange T range piece].all fun e => !r.range.overlaps e.call.range := by
    rw [monitor_turn, if_pos ⟨plain, shared, write⟩]
    refine List.filter_congr fun r _ => ?_
    rw [List.all_cons, exchange, Transaction.range_call, List.all_nil, Bool.and_true]
  induction h with
  | done p => exact (List.filter_eq_self.2 fun r _ => rfl).symm
  | onward made moved counted later ih =>
      rename_i piece rest p q range exchanges outcome
      have same := resembles_turn (T := T) p range piece
      rw [ih (by rwa [tx_count, same.debug_eq]) (by rwa [tx_count, same.exclusive_eq])
        (by rwa [tx_count, same.command_eq]), monitor_count, monitor_turn,
        if_pos ⟨plain, shared, write⟩, Monitor.breakRange, List.filter_filter]
      refine List.filter_congr fun r _ => ?_
      rw [List.all_cons, exchange, Transaction.range_call, Bool.and_comm]
  | overrun made moved overran =>
      rw [monitor_count]
      exact single plain shared write
  | halted made failed => exact single plain shared write

/-- **Every other transfer leaves the reservations as they are.** -/
theorem monitor_eq (h : Course T pieces p exchanges outcome q)
    (other : p.tx.debug = true ∨ p.tx.exclusive = true ∨ p.tx.command ≠ .write) :
    q.station.gate.monitor = p.station.gate.monitor := by
  have kept {p : Passage σ} {range : AddressRange} {piece : Piece}
      (other : p.tx.debug = true ∨ p.tx.exclusive = true ∨ p.tx.command ≠ .write) :
      (p.turn T range piece).2.station.gate.monitor = p.station.gate.monitor := by
    rw [monitor_turn, if_neg]
    rintro ⟨plain, shared, write⟩
    simp [plain, shared, write] at other
  induction h with
  | done p => rfl
  | onward made moved counted later ih =>
      rename_i piece rest p q range exchanges outcome
      have same := resembles_turn (T := T) p range piece
      rw [ih (by rwa [tx_count, same.debug_eq, same.exclusive_eq, same.command_eq]), monitor_count,
        kept other]
  | overrun made moved overran => rw [monitor_count, kept other]
  | halted made failed => exact kept other

end Course

end Passage

end Interconnect
