import Interconnect.Proofs.Gate.Transport

/-!
# What a gate asks of its target

A target that keeps a record of the calls to it answers as it would without, so the record of a
transaction tells what the gate asks of any target at all.

## Main Definitions

* `Target.Call`, `Target.noting` — a call, and a target that takes notes
* `Target.Over` — a target that answers as another does, in a world that holds more
* `Station.calls` — the calls that a transaction makes

## Main Statements

* `Station.submit_mapWorld` — the rest of the world makes no difference to a transaction
* `Station.transport_recorded` — neither does the record
* `Station.takes_of_mem_calls` — every call comes with a slice as long as its range
-/

namespace Interconnect

universe u v

variable {σ : Type u} {τ : Type v}

/-! ### Worlds that hold more -/

/-- **The target `T'` answers as `T` does,** and `f` is how the world of `T` is seen in that of
`T'`. -/
structure Target.Over (f : World τ → World σ) (T' : Target τ) (T : Target σ) : Prop where
  /-- So it does to reads. -/
  read : ∀ range attributes buffer w, T.read range attributes buffer (f w) =
    ((T'.read range attributes buffer w).1, (T'.read range attributes buffer w).2.1,
      f (T'.read range attributes buffer w).2.2)
  /-- So it does to writes. -/
  write : ∀ range attributes data w, T.write range attributes data (f w) =
    ((T'.write range attributes data w).1, f (T'.write range attributes data w).2)
  /-- So it does when it is asked for a window. -/
  window : ∀ range attributes w, T.window range attributes (f w) =
    ((T'.window range attributes w).1, f (T'.window range attributes w).2)

/-- A gate before another view of the world. -/
def Station.mapWorld (f : World τ → World σ) (s : Station τ) : Station σ :=
  ⟨s.gate, s.network, f s.world⟩

/-- A transaction in another view of the world. -/
def Passage.mapWorld (f : World τ → World σ) (p : Passage τ) : Passage σ :=
  ⟨p.tx, p.delivery, p.station.mapWorld f⟩

section MapWorld

variable {f : World τ → World σ} {T' : Target τ} {T : Target σ}

namespace Station

theorem withdraw_mapWorld (s : Station τ) (range : AddressRange) :
    (s.mapWorld f).withdraw range =
      (s.withdraw range).map fun outcome => (outcome.1, outcome.2.mapWorld f) := by
  unfold withdraw
  rw [Option.map_map]
  rfl

theorem offer_mapWorld (agrees : T'.Over f T) (access : Access) (s : Station τ) :
    (s.mapWorld f).offer T access =
      ((s.offer T' access).1, (s.offer T' access).2.mapWorld f) := by
  have grants : (s.mapWorld f).grants = s.grants := rfl
  cases known : (s.grants.lookup access.range access.command).1 with
  | some w =>
      simp only [offer, grants, known]
      rfl
  | none =>
      -- the target is asked for the same window as the other
      have asked := agrees.window access.range
        (s.attributes access.owner false access.exclusive) s.world
      cases answer : T'.window access.range (s.attributes access.owner false access.exclusive)
          s.world with
      | mk offered world =>
          rw [answer] at asked
          have same (c : WindowCache) : T.window access.range
              (((s.mapWorld f).setGrants c).attributes access.owner false access.exclusive)
              ((s.mapWorld f).setGrants c).world = (offered, f world) := asked
          have other (c : WindowCache) : T'.window access.range
              ((s.setGrants c).attributes access.owner false access.exclusive)
              (s.setGrants c).world = (offered, world) := answer
          simp only [offer, grants, known, same, other]
          cases offered with
          | some w => rfl
          | none => rfl

theorem grant_mapWorld (agrees : T'.Over f T) (access : Access) (s : Station τ) :
    (s.mapWorld f).grant T access =
      ((s.grant T' access).1, (s.grant T' access).2.mapWorld f) := by
  unfold grant
  rw [offer_mapWorld agrees, show (s.mapWorld f).gate = s.gate from rfl]
  split
  · rfl
  · rfl

end Station

namespace Passage

theorem prepare_mapWorld (range : AddressRange) (p : Passage τ) :
    (p.mapWorld f).prepare range = (p.prepare range).map (mapWorld f) := by
  unfold prepare
  simp only [show (p.mapWorld f).tx = p.tx from rfl,
    show (p.mapWorld f).station = p.station.mapWorld f from rfl,
    show (p.station.mapWorld f).gate = p.station.gate from rfl, Station.withdraw_mapWorld]
  split
  · rfl
  · split
    · split
      · rw [Option.map_map, Option.map_map]
        rfl
      · rfl
    · rfl

theorem admission_mapWorld (p : Passage τ) :
    (p.mapWorld f).admission = p.admission.map fun verdict => verdict.map (mapWorld f) := by
  unfold admission
  simp only [show (p.mapWorld f).tx = p.tx from rfl,
    show (p.mapWorld f).station.gate = p.station.gate from rfl]
  split
  · cases AddressRange.ofSize p.tx.address p.tx.width with
    | error e => rfl
    | ok range =>
        simp only [Except.map]
        cases p.station.gate.monitor.apply ⟨range, p.tx.command, p.tx.owner, true⟩ with
        | none => rfl
        | some monitor => rfl
  · rfl

theorem watch_mapWorld (range : AddressRange) (p : Passage τ) :
    (p.mapWorld f).watch range = (p.watch range).mapWorld f := by
  unfold watch
  simp only [show (p.mapWorld f).tx = p.tx from rfl,
    show (p.mapWorld f).station.gate = p.station.gate from rfl]
  split
  · rfl
  · split
    · rfl
    · rfl

theorem ask_mapWorld (agrees : T'.Over f T) (range : AddressRange) (piece : Piece) (p : Passage τ) :
    (p.mapWorld f).ask T range piece =
      ((p.ask T' range piece).1, (p.ask T' range piece).2.mapWorld f) := by
  unfold ask
  simp only [show (p.mapWorld f).tx = p.tx from rfl,
    show (p.mapWorld f).station.world = f p.station.world from rfl,
    show (p.mapWorld f).station.attributes = p.station.attributes from rfl,
    agrees.read, agrees.write]
  cases p.tx.command with
  | read => rfl
  | write => rfl
  | ignore => rfl

theorem count_mapWorld (piece : Piece) (p : Passage τ) :
    (p.mapWorld f).count piece = ((p.count piece).1, (p.count piece).2.mapWorld f) := by
  rw [count_eq, count_eq, show (p.mapWorld f).delivery = p.delivery from rfl,
    show (p.mapWorld f).station.fee (p.mapWorld f).tx = p.station.fee p.tx from rfl]
  split
  · rfl
  · rfl

theorem carry_mapWorld (agrees : T'.Over f T) (piece : Piece) (p : Passage τ) :
    (p.mapWorld f).carry T piece = ((p.carry T' piece).1, (p.carry T' piece).2.mapWorld f) := by
  unfold carry
  cases AddressRange.ofSize piece.address piece.length with
  | error e => rfl
  | ok range =>
      dsimp only
      rw [watch_mapWorld, ask_mapWorld agrees,
        show ((p.watch range).mapWorld f).tx = (p.watch range).tx from rfl]
      split
      · rfl
      · generalize (p.watch range).ask T' range piece = answer
        obtain ⟨response, q⟩ := answer
        cases response with
        | ok => exact count_mapWorld piece q
        | incomplete => rfl
        | addressError => rfl
        | commandError => rfl

theorem carryAll_mapWorld (agrees : T'.Over f T) (pieces : List Piece) (p : Passage τ) :
    (p.mapWorld f).carryAll T pieces =
      ((p.carryAll T' pieces).1, (p.carryAll T' pieces).2.mapWorld f) := by
  induction pieces generalizing p with
  | nil => rfl
  | cons piece rest ih =>
      rw [carryAll_cons, carryAll_cons, carry_mapWorld agrees]
      dsimp only
      split
      · exact ih _
      · rfl

theorem reward_mapWorld (agrees : T'.Over f T) (range : AddressRange) (p : Passage τ) :
    (p.mapWorld f).reward T range = (p.reward T' range).mapWorld f := by
  unfold reward
  simp only [show (p.mapWorld f).tx = p.tx from rfl,
    show (p.mapWorld f).station = p.station.mapWorld f from rfl, Station.grant_mapWorld agrees]
  split
  · rfl
  · rfl

theorem conclude_mapWorld (agrees : T'.Over f T) (p : Passage τ) :
    (p.mapWorld f).conclude T = ((p.conclude T').1, (p.conclude T').2.mapWorld f) := by
  unfold conclude
  simp only [show (p.mapWorld f).tx = p.tx from rfl]
  split
  · cases p.tx.range with
    | error e => rfl
    | ok range => exact Prod.ext rfl (reward_mapWorld agrees range p)
  · rfl

theorem perform_mapWorld (agrees : T'.Over f T) (range : AddressRange) (p : Passage τ) :
    (p.mapWorld f).perform T range =
      ((p.perform T' range).1, (p.perform T' range).2.mapWorld f) := by
  unfold perform
  rw [prepare_mapWorld]
  cases p.prepare range with
  | none => rfl
  | some q =>
      simp only [Option.map_some, admission_mapWorld]
      cases q.admission with
      | error e => rfl
      | ok verdict =>
          cases verdict with
          | none => rfl
          | some q =>
              have pieces : (q.mapWorld f).tx = q.tx := rfl
              simp only [Except.map, Option.map_some, pieces, carryAll_mapWorld agrees]
              generalize q.carryAll T' _ = ended
              obtain ⟨outcome, q⟩ := ended
              cases outcome with
              | error cause => rfl
              | ok response => exact conclude_mapWorld agrees (q.answer response)

end Passage

/-- **What else there is in the world makes no difference to a transaction.** -/
theorem Station.submit_mapWorld (agrees : T'.Over f T) (tx : Transaction) (s : Station τ) :
    (s.mapWorld f).submit T tx = ((s.submit T' tx).1, (s.submit T' tx).2.mapWorld f) := by
  unfold submit
  split
  · rfl
  · split
    · rfl
    · cases tx.range with
      | error e => rfl
      | ok range =>
          dsimp only
          split
          · rfl
          · rw [show (s.mapWorld f).gate = s.gate from rfl]
            split
            · exact Passage.perform_mapWorld agrees range (Passage.entering s tx)
            · rfl

end MapWorld

/-! ### The record of the calls -/

/-- **One call to a target.** -/
inductive Target.Call where
  /-- A read into a buffer. -/
  | read (range : AddressRange) (attributes : Attributes) (buffer : Bytes)
  /-- A write. -/
  | write (range : AddressRange) (attributes : Attributes) (data : Bytes)
  /-- A request for a window. -/
  | window (range : AddressRange) (attributes : Attributes)
deriving DecidableEq

namespace World

/-- A world in which calls have been recorded. -/
def withCalls (w : World σ) (calls : List Target.Call) : World (List Target.Call × σ) :=
  ⟨w.storage, calls, w.state⟩

/-- The calls that have been recorded. -/
def calls (w : World (List Target.Call × σ)) : List Target.Call := w.state.1

/-- The world without the record. -/
def forget (w : World (List Target.Call × σ)) : World σ := ⟨w.storage, w.state.2⟩

end World

/-- **The target that takes note of every call** and otherwise does what the other does. -/
def Target.noting (T : Target σ) : Target (List Target.Call × σ) where
  read range attributes buffer w :=
    let (response, bytes, world) := T.read range attributes buffer w.forget
    (response, bytes, world.withCalls (w.calls ++ [.read range attributes buffer]))
  write range attributes data w :=
    let (response, world) := T.write range attributes data w.forget
    (response, world.withCalls (w.calls ++ [.write range attributes data]))
  window range attributes w :=
    let (offered, world) := T.window range attributes w.forget
    (offered, world.withCalls (w.calls ++ [.window range attributes]))
  length_read range attributes buffer w := T.length_read range attributes buffer w.forget

/-- Taking notes changes no answer. -/
theorem Target.noting_over (T : Target σ) : T.noting.Over World.forget T where
  read _ _ _ _ := rfl
  write _ _ _ _ := rfl
  window _ _ _ := rfl

namespace Station

/-- A station whose target has not been called. -/
def recorded (s : Station σ) : Station (List Target.Call × σ) :=
  ⟨s.gate, s.network, s.world.withCalls []⟩

/-- **The calls to the target that a transaction makes,** in order. -/
def calls (T : Target σ) (tx : Transaction) (s : Station σ) : List Target.Call :=
  (s.recorded.transport T.noting tx).2.2.world.calls

/-- **The record is kept of the very transaction that is made:** without it, the same is reported
and left behind. -/
theorem transport_recorded (T : Target σ) (tx : Transaction) (s : Station σ) :
    s.transport T tx =
      ((s.recorded.transport T.noting tx).1, (s.recorded.transport T.noting tx).2.1,
        (s.recorded.transport T.noting tx).2.2.mapWorld World.forget) := by
  have same : s.submit T tx = ((s.recorded.submit T.noting tx).1,
      (s.recorded.submit T.noting tx).2.mapWorld World.forget) :=
    submit_mapWorld T.noting_over tx s.recorded
  rw [transport, same]
  rfl

end Station

/-! ### Slices -/

/-- **A call takes its slice of a transaction:** a read or a write is about a piece of the transfer,
whose slice is there and as long as the range. -/
def Target.Call.Takes (tx : Transaction) : Target.Call → Prop
  | .read range _ slice | .write range _ slice =>
      ∃ piece ∈ plan tx.address tx.data.length tx.streamingWidth tx.byteEnable,
        AddressRange.ofSize piece.address piece.length = .ok range ∧
        piece.offset + piece.length ≤ tx.data.length ∧ slice.length = range.size
  | .window _ _ => True

namespace Passage

variable {T : Target σ} {tx : Transaction} {range : AddressRange}

/-- The calls by which a target is asked about a piece. -/
def requests (range : AddressRange) (piece : Piece) (p : Passage σ) : List Target.Call :=
  let attributes := p.station.attributes p.tx.owner p.tx.debug p.tx.exclusive
  let slice := Bytes.slice p.tx.data piece.offset piece.length
  match p.tx.command with
  | .read => [.read range attributes slice]
  | .write => [.write range attributes slice]
  | .ignore => []

theorem calls_ask (p : Passage (List Target.Call × σ)) (range : AddressRange) (piece : Piece) :
    (p.ask T.noting range piece).2.station.world.calls =
      p.station.world.calls ++ p.requests range piece := by
  cases command : p.tx.command with
  | read =>
      simp only [ask, requests, command]
      rfl
  | write =>
      simp only [ask, requests, command]
      rfl
  | ignore =>
      simp only [ask, requests, command]
      exact (List.append_nil _).symm

/-- **One piece is one request at most,** and one exactly if its range exists and its slice is
there. -/
theorem calls_of_carry (p : Passage (List Target.Call × σ)) (piece : Piece) :
    (p.carry T.noting piece).2.station.world.calls = p.station.world.calls ∨
      ∃ range, AddressRange.ofSize piece.address piece.length = .ok range ∧
        (p.carry T.noting piece).2.station.world.calls =
          p.station.world.calls ++ (p.watch range).requests range piece := by
  have asked (range : AddressRange) :
      ((p.watch range).ask T.noting range piece).2.station.world.calls =
        p.station.world.calls ++ (p.watch range).requests range piece := by
    rw [calls_ask, (p.pending_watch range).world]
  rcases carry_cases T.noting p piece with ⟨cause, broken⟩ | ⟨range, made, ⟨cause, broken⟩ |
    ⟨-, moved⟩ | ⟨response, -, failed⟩⟩
  · rw [broken]
    exact .inl rfl
  · rw [broken]
    exact .inl (congrArg World.calls (p.pending_watch range).world)
  · rw [moved, world_count]
    exact .inr ⟨range, made, asked range⟩
  · rw [failed]
    exact .inr ⟨range, made, asked range⟩

/-- A request about a piece of a transaction takes its slice. -/
theorem takes_of_mem_requests {p : Passage σ} {piece : Piece} (same : tx.Resembles p.tx)
    (planned : piece ∈ plan tx.address tx.data.length tx.streamingWidth tx.byteEnable)
    (within : piece.offset + piece.length ≤ tx.data.length)
    (made : AddressRange.ofSize piece.address piece.length = .ok range)
    {call : Target.Call} (h : call ∈ p.requests range piece) : call.Takes tx := by
  have slice : (Bytes.slice p.tx.data piece.offset piece.length).length = range.size := by
    rw [Bytes.length_slice, same.length_eq, AddressRange.size_of_ofSize_eq_ok made]
    omega
  unfold requests at h
  dsimp only at h
  split at h
  · rw [List.mem_singleton.1 h]
    exact ⟨piece, planned, made, within, slice⟩
  · rw [List.mem_singleton.1 h]
    exact ⟨piece, planned, made, within, slice⟩
  · cases h

/-- **All calls of a transfer take their slices,** wherever it ends. -/
theorem takes_of_carryAll (spans : tx.range = .ok range) {pieces : List Piece}
    (planned : ∀ piece ∈ pieces,
      piece ∈ plan tx.address tx.data.length tx.streamingWidth tx.byteEnable)
    {p : Passage (List Target.Call × σ)} (same : tx.Resembles p.tx)
    (before : ∀ call ∈ p.station.world.calls, call.Takes tx) :
    ∀ call ∈ (p.carryAll T.noting pieces).2.station.world.calls, call.Takes tx := by
  induction pieces generalizing p with
  | nil => exact before
  | cons piece rest ih =>
      have first := planned piece List.mem_cons_self
      have carried : ∀ call ∈ (p.carry T.noting piece).2.station.world.calls, call.Takes tx := by
        intro call mem
        rcases calls_of_carry (T := T) p piece with uncalled | ⟨range', made, calls⟩
        · exact before call (uncalled ▸ mem)
        · rw [calls] at mem
          rcases List.mem_append.1 mem with earlier | now
          · exact before call earlier
          · exact takes_of_mem_requests (same.trans (p.pending_watch range').resembles) first
              (fits_of_mem_plan spans first).within made now
      rw [carryAll_cons]
      split
      · exact ih (fun other mem => planned other (List.mem_cons_of_mem _ mem))
          (same.trans (resembles_carry p piece)) carried
      · exact carried

/-- A reward takes no slice. -/
theorem takes_of_reward {p : Passage (List Target.Call × σ)}
    (before : ∀ call ∈ p.station.world.calls, call.Takes tx) :
    ∀ call ∈ (p.reward T.noting range).station.world.calls, call.Takes tx := by
  rcases reward_cases (T := T.noting) p range with ⟨-, kept⟩ | ⟨-, rewarded⟩
  · rw [kept]
    exact before
  · rw [rewarded]
    rcases Station.world_grant T.noting ⟨range, p.tx.command, p.tx.owner, p.tx.exclusive⟩
      p.station with unasked | asked
    · rw [unasked]
      exact before
    · rw [asked]
      intro call mem
      rcases List.mem_append.1 mem with earlier | now
      · exact before call earlier
      · rw [List.mem_singleton.1 now]
        trivial

/-- The end of a transfer takes no slice either. -/
theorem takes_of_conclude {p : Passage (List Target.Call × σ)}
    (before : ∀ call ∈ p.station.world.calls, call.Takes tx) :
    ∀ call ∈ (p.conclude T.noting).2.station.world.calls, call.Takes tx := by
  rcases conclude_cases T.noting p with kept | ⟨range, asked⟩
  · rw [kept]
    exact before
  · rw [asked]
    exact takes_of_reward before

/-- The target has not been called when a transaction is admitted. -/
theorem world_of_admission {p q : Passage σ} (h : p.admission = .ok (some q)) :
    q.station.world = p.station.world := by
  rcases admission_cases h with ⟨-, rfl⟩ | ⟨-, -, pulse, monitor, -, -, rfl⟩
  · rfl
  · rfl

end Passage

namespace Station

variable {T : Target σ} {s : Station σ} {tx : Transaction}

theorem calls_eq (T : Target σ) (tx : Transaction) (s : Station σ) :
    s.calls T tx = (s.recorded.submit T.noting tx).2.station.world.calls :=
  rfl

/-- **Every call comes with a slice as long as its range.** -/
theorem takes_of_mem_calls {call : Target.Call} (h : call ∈ s.calls T tx) : call.Takes tx := by
  have none : ∀ call ∈ s.recorded.world.calls, call.Takes tx := fun call mem => nomatch mem
  suffices all : ∀ call ∈ (s.recorded.submit T.noting tx).2.station.world.calls, call.Takes tx from
    all call h
  rcases submit_cases T.noting s.recorded tx with ⟨-, cause, faulty⟩ | ⟨-, -,
    ⟨response, -, -, -, answered⟩ | ⟨range, spans, -, -, performed⟩⟩
  · rw [faulty]
    exact none
  · rw [answered]
    exact none
  · rw [performed]
    rcases Passage.perform_cases T.noting (Passage.entering s.recorded tx) range with
      ⟨-, endless⟩ | ⟨prepared, preparation, outcomes⟩
    · rw [endless]
      exact none
    · have pending := (Passage.pending_prepare preparation).1
      have uncalled : ∀ call ∈ prepared.station.world.calls, call.Takes tx := by
        rw [pending.world]
        exact none
      rcases outcomes with ⟨e, -, broken⟩ | ⟨-, refused⟩ | ⟨admitted, outcome, carried, admission,
        moved, ends⟩
      · rw [broken]
        exact uncalled
      · rw [refused]
        exact uncalled
      · have entered : tx.Resembles (Passage.entering s.recorded tx).tx := ⟨rfl, rfl⟩
        have same := (entered.trans pending.resembles).trans
          (Passage.resembles_of_admission admission)
        have after : ∀ call ∈ carried.station.world.calls, call.Takes tx := by
          rw [← Passage.world_of_admission admission] at uncalled
          have takes := Passage.takes_of_carryAll (T := T) spans (fun _ mem => mem) same uncalled
          rw [same.plan_eq] at moved
          rwa [moved] at takes
        rcases ends with ⟨cause, -, broken⟩ | ⟨response, -, concluded⟩
        · rw [broken]
          exact after
        · rw [concluded]
          exact Passage.takes_of_conclude (p := carried.answer response) after

end Station

end Interconnect
