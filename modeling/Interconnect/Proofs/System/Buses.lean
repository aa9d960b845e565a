import Interconnect.Proofs.Bus.Map
import Interconnect.Proofs.System.Loss

/-!
# The buses of a system

A bus within a system shows what it would show by itself after the calls made to it.  Whatever the
other buses of the system are told, and whatever goes with the mappings that end, it keeps its map
as long as its user holds it.

## Main Definitions

* `System.attemptBus`, `System.runBuses` — calls to the buses of a system

## Main Statements

* `System.held_of_release` — what its user holds does not go with what is let go
* `System.of_attemptBus` — a call ends as it would on the bus by itself
* `System.eq_of_attemptBus_eq_error` — a call that fails leaves the whole system as it was
* `System.bus?_of_runBuses` — the bus after any calls is the one that its own calls make
* `System.exists_bus_runBuses` — its map is a partial function, and how a call to it ends
-/

namespace Interconnect

namespace System

/-! ### What a call leaves alone -/

theorem bus?_setBus (s : System) (id : TargetId) (b : Bus) (other : TargetId) :
    (s.setEndpoint id (.bus b)).bus? other = if other = id then some b else s.bus? other := by
  unfold bus?
  rw [endpoint?_setEndpoint]
  by_cases same : other = id
  · rw [if_pos same, if_pos same]
  · rw [if_neg same, if_neg same]

/-- A target that is given a handle becomes no bus, and a bus stays the same. -/
theorem bus?_attach (s : System) (id : TargetId) (handle : HandleId) (other : TargetId) :
    (s.attach id handle).bus? other = s.bus? other := by
  have replaced : ∀ e e' : Endpoint, s.world.endpoint? id = some e →
      (∀ b, e ≠ .bus b) → (∀ b, e' ≠ .bus b) →
      (s.setEndpoint id e').bus? other = s.bus? other := by
    intro e e' found old new
    unfold bus?
    rw [endpoint?_setEndpoint]
    by_cases same : other = id
    · subst same
      rw [if_pos rfl, found]
      cases e with
      | bus b => exact absurd rfl (old b)
      | _ =>
          cases e' with
          | bus b => exact absurd rfl (new b)
          | _ => rfl
    · rw [if_neg same]
  unfold attach
  split
  · next found => exact replaced _ _ found nofun nofun
  · next found => exact replaced _ _ found nofun nofun
  · next found => exact replaced _ _ found nofun nofun
  · rfl
  · rfl
  · rfl

theorem held_attach (s : System) (id : TargetId) (handle : HandleId) :
    (s.attach id handle).held = s.held := by
  unfold attach
  split <;> rfl

/-- **What its user holds does not go,** whatever is let go. -/
theorem held_of_release {s t : System} {id : TargetId} (released : s.release id = some t) :
    t.held = s.held ∧ ∀ other ∈ s.held, t.bus? other = s.bus? other := by
  refine collect_induction (P := fun t : System => t.held = s.held ∧
    ∀ other ∈ s.held, t.bus? other = s.bus? other) ?_ ?_ ⟨rfl, fun _ _ => rfl⟩ released
  · rintro u gone ⟨held, kept⟩ free
    refine ⟨held, fun other shown => ?_⟩
    rw [← kept other shown, bus?, bus?, endpoint?_eraseEndpoint, if_neg]
    rintro rfl
    rw [isHeld, List.contains_iff_mem.2 (held.symm ▸ shown), Bool.true_or, Bool.true_or] at free
    cases free
  · rintro u v m ⟨held, kept⟩ done
    obtain ⟨net, rfl, -⟩ := of_withdrawMemory done
    exact ⟨held, kept⟩

/-! ### Calls -/

/-- **A call to one of the buses of a system:** how it ends, and the system that is left. -/
def attemptBus (s : System) (id : TargetId) : BusOver.Call → Option (Except Fault Unit × System)
  | .map range offset target => some (s.map id range offset target)
  | .unmap range => s.unmap id range

/-- The system after some calls to its buses, also in vain. -/
def runBuses (s : System) (calls : List (TargetId × BusOver.Call)) : Option System :=
  calls.foldlM (fun s call => (s.attemptBus call.1 call.2).map Prod.snd) s

variable {s t : System} {id : TargetId} {b : Bus} {call : BusOver.Call}

/-- **A call fails as it would on the bus by itself, and leaves the whole system as it was.** -/
theorem attemptBus_of_error (known : s.bus? id = some b) {fault : Fault}
    (failed : (b.attempt call).1 = .error fault) :
    s.attemptBus id call = some (.error fault, s) := by
  have same := BusOver.attempt_of_error failed
  have whole := setEndpoint_of_endpoint?_eq_some (bus?_eq_some_iff.1 known)
  cases call with
  | map range offset target =>
      simp only [BusOver.attempt] at failed same
      simp only [attemptBus, map, known]
      split
      · next fault' b' made =>
          rw [made] at failed same
          cases failed
          cases same
          rw [whole]
      · next made =>
          rw [made] at failed
          cases failed
  | unmap range =>
      simp only [BusOver.attempt] at failed same
      simp only [attemptBus, unmap, known]
      split
      · next fault' b' ended =>
          rw [ended] at failed same
          cases failed
          cases same
          rw [whole]
      · next ended =>
          rw [ended] at failed
          cases failed

/-- **A call that succeeds on the bus by itself changes this bus,** and no other that is held. -/
theorem of_attemptBus_of_ok (known : s.bus? id = some b) {m : Mapping} {after : Bus}
    (succeeds : b.attempt call = (.ok m, after)) {outcome : Except Fault Unit}
    (done : s.attemptBus id call = some (outcome, t)) :
    outcome = .ok () ∧ t.held = s.held ∧
      ∀ other ∈ s.held, t.bus? other = if other = id then some after else s.bus? other := by
  cases call with
  | map range offset target =>
      simp only [BusOver.attempt] at succeeds
      simp only [attemptBus, map, known, succeeds] at done
      cases done
      refine ⟨rfl, held_attach _ target _, fun other _ => ?_⟩
      rw [bus?_setBus, bus?_attach]
      rfl
  | unmap range =>
      simp only [BusOver.attempt] at succeeds
      simp only [attemptBus, unmap, known, succeeds] at done
      obtain ⟨withdrawn, passed, released⟩ := Option.bind_eq_some_iff.1 done
      obtain ⟨⟨counts, net⟩, -, rfl⟩ := Option.map_eq_some_iff.1 passed
      obtain ⟨left, gone, same⟩ := Option.bind_eq_some_iff.1 released
      cases same
      obtain ⟨held, kept⟩ := held_of_release gone
      exact ⟨rfl, held, fun other shown => (kept other shown).trans (bus?_setBus s id after other)⟩

/-- **A call ends as it would on the bus by itself,** and of the buses that are held it changes this
one as it would be changed by itself. -/
theorem of_attemptBus (known : s.bus? id = some b) {outcome : Except Fault Unit}
    (done : s.attemptBus id call = some (outcome, t)) :
    outcome = (b.attempt call).1.map (fun _ => ()) ∧ t.held = s.held ∧
      ∀ other ∈ s.held,
        t.bus? other = if other = id then some (b.attempt call).2 else s.bus? other := by
  cases attempted : b.attempt call with
  | mk answer after =>
      cases answer with
      | ok m =>
          obtain ⟨answered, changed⟩ := of_attemptBus_of_ok known attempted done
          exact ⟨answered, changed⟩
      | error fault =>
          have kept := BusOver.attempt_of_error (congrArg Prod.fst attempted)
          rw [attempted] at kept
          rw [attemptBus_of_error known (congrArg Prod.fst attempted)] at done
          cases done
          refine ⟨rfl, rfl, fun other _ => ?_⟩
          split
          · next same => rw [same, known, kept]
          · rfl

/-- A call to what is no bus changes nothing. -/
theorem attemptBus_of_bus?_eq_none (absent : s.bus? id = none) (call : BusOver.Call) :
    s.attemptBus id call = some (.ok (), s) := by
  cases call with
  | map range offset target => simp only [attemptBus, map, absent]
  | unmap range => simp only [attemptBus, unmap, absent]

/-- **A call that fails leaves the whole system as it was:** every mapping of every bus, and the
handles and links that withdrawals take. -/
theorem eq_of_attemptBus_eq_error {fault : Fault}
    (failed : s.attemptBus id call = some (.error fault, t)) : t = s := by
  cases known : s.bus? id with
  | none =>
      rw [attemptBus_of_bus?_eq_none known] at failed
      cases failed
  | some b =>
      have reason := map_eq_error_iff.1 (of_attemptBus known failed).1.symm
      rw [attemptBus_of_error known reason] at failed
      cases failed
      rfl

/-- **A bus that is held heeds the calls made to it, and no other.** -/
theorem bus?_of_attemptBus (known : s.bus? id = some b) (held : id ∈ s.held) {place : TargetId}
    {outcome : Except Fault Unit} (done : s.attemptBus place call = some (outcome, t)) :
    t.held = s.held ∧ t.bus? id = some (if place = id then (b.attempt call).2 else b) := by
  cases found : s.bus? place with
  | none =>
      have other : place ≠ id := by
        rintro rfl
        rw [known] at found
        cases found
      rw [attemptBus_of_bus?_eq_none found] at done
      cases done
      exact ⟨rfl, by rw [if_neg other, known]⟩
  | some n =>
      obtain ⟨-, stays, buses⟩ := of_attemptBus found done
      refine ⟨stays, (buses id held).trans ?_⟩
      by_cases same : place = id
      · subst same
        cases found.symm.trans known
        rw [if_pos rfl, if_pos rfl]
      · rw [if_neg (Ne.symm same), if_neg same, known]

/-- The calls that are made to one bus. -/
def callsTo (id : TargetId) (calls : List (TargetId × BusOver.Call)) : List BusOver.Call :=
  (calls.filter fun call => call.1 = id).map Prod.snd

theorem callsTo_cons (id : TargetId) (call : TargetId × BusOver.Call)
    (rest : List (TargetId × BusOver.Call)) :
    callsTo id (call :: rest) =
      if call.1 = id then call.2 :: callsTo id rest else callsTo id rest := by
  unfold callsTo
  split
  · next same => rw [List.filter_cons_of_pos (by simpa using same), List.map_cons]
  · next other => rw [List.filter_cons_of_neg (by simpa using other)]

/-- The bus after some calls, from any state of it. -/
theorem bus?_foldlM_attemptBus (known : s.bus? id = some b) (held : id ∈ s.held)
    {calls : List (TargetId × BusOver.Call)} (ran : s.runBuses calls = some t) :
    t.held = s.held ∧
      t.bus? id = some ((callsTo id calls).foldl (fun b call => (b.attempt call).2) b) := by
  induction calls generalizing s b with
  | nil =>
      cases ran
      exact ⟨rfl, known⟩
  | cons call rest ih =>
      rw [runBuses, List.foldlM_cons] at ran
      obtain ⟨middle, first, later⟩ := Option.bind_eq_some_iff.1 ran
      obtain ⟨⟨outcome, u⟩, done, rfl⟩ := Option.map_eq_some_iff.1 first
      obtain ⟨stays, changed⟩ := bus?_of_attemptBus known held done
      obtain ⟨stays', after⟩ := ih changed (stays.symm ▸ held) later
      refine ⟨stays'.trans stays, after.trans ?_⟩
      rw [callsTo_cons]
      split
      · rfl
      · rfl

/-- **A bus within a system is, after any calls to any buses, the one that its own calls make.** -/
theorem bus?_of_runBuses {handle : HandleId} (fresh : s.bus? id = some (.ofHandle handle))
    (held : id ∈ s.held) {calls : List (TargetId × BusOver.Call)}
    (ran : s.runBuses calls = some t) :
    t.bus? id = some (.run (.sorted Mapping) handle (callsTo id calls)) :=
  (bus?_foldlM_attemptBus fresh held ran).2

/-! ### The map -/

/-- **After any calls to the buses of a system, the map of a bus is a partial function,** whatever
interval map the mappings are kept in: `BusOver.Charted` says when a call to the bus by itself
succeeds and what it changes.  Within the system the bus shows the same, and a call ends as it would
on the bus by itself.  One that fails leaves the whole system as it was, its mappings and the
handles and links for withdrawals included; and every call returns where withdrawals end. -/
theorem exists_bus_runBuses (I : IntervalMap Mapping) [I.Sound] {handle : HandleId}
    (fresh : s.bus? id = some (.ofHandle handle)) (held : id ∈ s.held)
    {calls : List (TargetId × BusOver.Call)} (ran : s.runBuses calls = some t) :
    ∃ b, t.bus? id = some b ∧
      let c := BusOver.run I handle (callsTo id calls)
      c.Charted ∧ b.mappings = c.mappings ∧ (∀ a, b.lookup a = c.lookup a) ∧
      ∀ call,
        (∀ outcome u, t.attemptBus id call = some (outcome, u) →
          outcome = (c.attempt call).1.map (fun _ => ()) ∧
            ∃ after, u.bus? id = some after ∧ after.mappings = (c.attempt call).2.mappings) ∧
        (∀ fault, (c.attempt call).1 = .error fault →
          t.attemptBus id call = some (.error fault, t)) ∧
        ((∀ h x, t.network.Ends h x) → ∃ outcome, t.attemptBus id call = some outcome) := by
  have known := bus?_of_runBuses fresh held ran
  have stays : id ∈ t.held := by
    rw [(bus?_foldlM_attemptBus fresh held ran).1]
    exact held
  have here := BusOver.ordered_run (I := .sorted Mapping) handle (callsTo id calls)
  have there := BusOver.ordered_run (I := I) handle (callsTo id calls)
  have same := BusOver.mappings_run_eq (.sorted Mapping) I handle (callsTo id calls)
  refine ⟨_, known, there.charted, same, fun a => ?_, fun call => ?_⟩
  · rw [BusOver.lookup, BusOver.lookup, here.find?_eq, there.find?_eq, same]
  · obtain ⟨answer, shown⟩ := here.attempt_congr there same call
    rw [← answer, ← shown]
    refine ⟨fun outcome u done => ?_, fun fault failed => attemptBus_of_error known failed,
      fun ends => ?_⟩
    · obtain ⟨answered, -, buses⟩ := of_attemptBus known done
      exact ⟨answered, _, (buses id stays).trans (if_pos rfl), rfl⟩
    · cases call with
      | map range offset target => exact ⟨_, rfl⟩
      | unmap range => exact exists_unmap ends id range

/-- The mapping of the last page of the address space. -/
def lastPage : Mapping := ⟨⟨0 - 0x1000, 0 - 1, by decide⟩, 0, 1, by decide, by decide⟩

/-- A page, a page that overlaps it, and the last page are mapped, and the first is unmapped. -/
def threePages : List (TargetId × BusOver.Call) := [
  (0, .map ⟨0x1000, 0x1fff, by decide⟩ 0 1),
  (0, .map ⟨0x1800, 0x27ff, by decide⟩ 0 1),
  (0, .map lastPage.range 0 1),
  (0, .unmap ⟨0x1000, 0x1fff, by decide⟩)]

/-- After that the last page alone is mapped.  It is in the way of a mapping of the whole address
space, and the page that was refused cannot be unmapped. -/
theorem exists_bus_of_last_page : ∃ (s t : System) (b : Bus),
    s.bus? 0 = some (.ofHandle 0) ∧ 0 ∈ s.held ∧ s.runBuses threePages = some t ∧
      t.bus? 0 = some b ∧ b.mappings = [lastPage] ∧
      b.lookup 0xffffffffffffffff = some lastPage.range ∧
      t.attemptBus 0 (.map .full 0 1) = some (.error (.mapConflict .full lastPage.range), t) ∧
      t.attemptBus 0 (.unmap ⟨0x1800, 0x27ff, by decide⟩) =
        some (.error (.notMapped ⟨0x1800, 0x27ff, by decide⟩), t) := by
  let s : System := (empty.newBus.2.newMemory [1, 2, 3, 4] false false none).2
  have fresh : s.bus? 0 = some (.ofHandle 0) := by decide +kernel
  have held : 0 ∈ s.held := by decide +kernel
  obtain ⟨t, ran⟩ : ∃ t, s.runBuses threePages = some t :=
    Option.isSome_iff_exists.1 (by decide +kernel)
  obtain ⟨b, known, charted, shown, looked, each⟩ :=
    exists_bus_runBuses (.sorted Mapping) fresh held ran
  have alone : (BusOver.run (.sorted Mapping) 0 (callsTo 0 threePages)).mappings = [lastPage] := by
    decide +kernel
  refine ⟨s, t, b, fresh, held, ran, known, shown.trans alone, ?_, (each _).2.1 _ ?_,
    (each _).2.1 _ ?_⟩
  · rw [looked]
    decide +kernel
  · decide +kernel
  · decide +kernel

end System

end Interconnect
