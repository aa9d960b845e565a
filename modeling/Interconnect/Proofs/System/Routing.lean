import Interconnect.Platform
import Interconnect.Proofs.Bus
import Interconnect.Proofs.Gate.Backing
import Interconnect.Proofs.Memory

/-!
# Memory behind buses

In a platform of memories and buses, where an access to an address ends up, and why the windows that
such a target offers lead to the same place.

## Main Definitions

* `World.Routes` — an address of one target leads to an address of another
* `World.Backs` — an address leads to a byte of memory that a host pointer points to
* `World.Plain` — the platform holds memories and well-ordered buses only

## Main Statements

* `Platform.honest_target` — the targets of a plain platform offer windows onto what backs them
-/

namespace Interconnect

namespace World

/-- **An access to address `a` of target `id` ends up at address `final` of target `other`,**
through the buses as they map their targets now. -/
inductive Routes (w : World Platform) : TargetId → UInt64 → TargetId → UInt64 → Prop
  /-- It stays where it is. -/
  | here (id : TargetId) (a : UInt64) : Routes w id a id a
  /-- A bus passes it on. -/
  | through {id : TargetId} {a : UInt64} {b : Bus} {m : Mapping} {place : UInt64}
      {other : TargetId} {final : UInt64} (bus : w.endpoint? id = some (.bus b))
      (routed : b.route (.single a) = some (m, .single place))
      (rest : Routes w m.target place other final) : Routes w id a other final

/-- **An access to address `a` of target `root` ends in a memory, at an address inside it, and `p`
points to that byte of its storage.**  A permission to write demands that the memory stores what is
written. -/
def Backs (w : World Platform) (root : TargetId) (a : UInt64) (q : Permission) (p : HostPointer) :
    Prop :=
  ∃ id o m extent, w.Routes root a id o ∧ w.endpoint? id = some (.memory m) ∧
    m.extent w.storage = some extent ∧ o ∈ extent ∧
    p = (HostPointer.toBlock m.block).advance o ∧
    (q.allows .write = true → m.readOnly = false ∧ m.discardWrites = false)

/-- **The platform holds memories and buses only,** and no bus shows two targets at one address. -/
structure Plain (w : World Platform) : Prop where
  /-- There are no other targets. -/
  kinds : ∀ id e, w.endpoint? id = some e → (∃ m, e = .memory m) ∨ ∃ b, e = .bus b
  /-- The mappings of a bus do not overlap. -/
  ordered : ∀ id b, w.endpoint? id = some (.bus b) → b.Ordered

/-- **What is backed at a memory is a place of it,** to which the pointer points. -/
theorem Backs.of_memory {w : World Platform} {root : TargetId} {a : UInt64} {q : Permission}
    {p : HostPointer} (h : w.Backs root a q p) {m : Memory}
    (found : w.endpoint? root = some (.memory m)) :
    a.toNat < (m.contents w.storage).length ∧ p = (HostPointer.toBlock m.block).advance a ∧
      (q.allows .write = true → m.readOnly = false ∧ m.discardWrites = false) := by
  obtain ⟨other, o, m', extent, routes, found', whole, inside, pointer, writable⟩ := h
  cases routes with
  | here =>
      rw [found] at found'
      cases found'
      exact ⟨(Memory.mem_extent_iff whole).1 inside, pointer, writable⟩
  | through bus _ _ =>
      rw [found] at bus
      cases bus

/-- What is backed at a bus is backed at the target that the bus shows there. -/
theorem Backs.of_bus {w : World Platform} {root : TargetId} {a : UInt64} {q : Permission}
    {p : HostPointer} (h : w.Backs root a q p) {b : Bus} (ordered : b.Ordered)
    (found : w.endpoint? root = some (.bus b)) :
    ∃ n ∈ b.mappings, a ∈ n.range ∧ w.Backs n.target (n.behind a) q p := by
  obtain ⟨other, o, m, extent, routes, found', backed⟩ := h
  cases routes with
  | here =>
      rw [found] at found'
      cases found'
  | through bus routed rest =>
      rw [found] at bus
      cases bus
      obtain ⟨shown, inside, place⟩ := ordered.route_single_eq_some_iff.1 routed
      cases (AddressRange.mk.inj place).1
      exact ⟨_, shown, inside, other, o, m, extent, rest, found', backed⟩

theorem Alike.endpoint? {w v : World Platform} (h : w.Alike v) (id : TargetId) :
    v.endpoint? id = w.endpoint? id := by
  simp only [World.endpoint?, h.state]

/-- Replacing the contents of a block by as many bytes changes bytes only. -/
theorem Alike.setContents {σ : Type} {base w : World σ} (h : base.Alike w) {block : StorageId}
    {bytes : Bytes} (same : bytes.length = (w.storage.contents block).length) :
    base.Alike { w with storage := w.storage.setContents block bytes } := by
  refine h.trans ⟨rfl, fun other => ?_⟩
  rw [StorageBank.contents_setContents]
  split
  · next here => rw [here, same]
  · rfl

end World

namespace Memory

/-- A write changes bytes only. -/
theorem alike_write {σ : Type} {base w : World σ} (h : base.Alike w) (m : Memory)
    (range : AddressRange) (debug : Bool) (data : Bytes) :
    base.Alike { w with storage := (m.write w.storage range debug data).2 } := by
  unfold write
  split
  · exact h
  · split
    · exact h
    · split
      · exact h
      · exact h.setContents (Bytes.length_overwrite _ _ _)

end Memory

namespace Platform

variable {base w : World Platform} {targets : TargetId → Target Platform}

/-! ### What is asked of which target -/

theorem read_answering_memory {id : TargetId} {m : Memory}
    (found : w.endpoint? id = some (.memory m)) (range : AddressRange) (attributes : Attributes)
    (buffer : Bytes) :
    (answering targets id).read range attributes buffer w =
      ((m.read w.storage range buffer).1, (m.read w.storage range buffer).2, w) := by
  simp [answering, found]

theorem write_answering_memory {id : TargetId} {m : Memory}
    (found : w.endpoint? id = some (.memory m)) (range : AddressRange) (attributes : Attributes)
    (data : Bytes) :
    (answering targets id).write range attributes data w =
      ((m.write w.storage range attributes.debug data).1,
        { w with storage := (m.write w.storage range attributes.debug data).2 }) := by
  simp [answering, found]

theorem window_answering_memory {id : TargetId} {m : Memory}
    (found : w.endpoint? id = some (.memory m)) (range : AddressRange) (attributes : Attributes) :
    (answering targets id).window range attributes w = (m.window w.storage range, w) := by
  simp [answering, found]

theorem read_answering_bus {id : TargetId} {b : Bus} (found : w.endpoint? id = some (.bus b))
    (range : AddressRange) (attributes : Attributes) (buffer : Bytes) :
    (answering targets id).read range attributes buffer w =
      (b.target targets).read range attributes buffer w := by
  simp [answering, found]

theorem write_answering_bus {id : TargetId} {b : Bus} (found : w.endpoint? id = some (.bus b))
    (range : AddressRange) (attributes : Attributes) (data : Bytes) :
    (answering targets id).write range attributes data w =
      (b.target targets).write range attributes data w := by
  simp [answering, found]

theorem window_answering_bus {id : TargetId} {b : Bus} (found : w.endpoint? id = some (.bus b))
    (range : AddressRange) (attributes : Attributes) :
    (answering targets id).window range attributes w =
      (b.target targets).window range attributes w := by
  simp [answering, found]

/-! ### Honest targets -/

/-- A bus in front of honest targets keeps the shape of the world, and what it offers is backed
through it. -/
theorem honest_bus {b : Bus} (ordered : b.Ordered) {id : TargetId}
    (found : base.endpoint? id = some (.bus b))
    (behind : ∀ other, (targets other).Honest base (base.Backs other)) :
    (b.target targets).Honest base (base.Backs id) where
  read := by
    intro range attributes buffer w same
    simp only [BusOver.target]
    split
    · exact (behind _).read _ _ _ _ same
    · exact same
  write := by
    intro range attributes data w same
    simp only [BusOver.target]
    split
    · exact (behind _).write _ _ _ _ same
    · exact same
  window := by
    intro range attributes w same
    simp only [BusOver.target]
    split
    · exact (behind _).window _ _ _ same
    · exact same
  offered := by
    intro range attributes w v after same offered a q ptr maps
    simp only [BusOver.target] at offered
    split at offered
    · next m place routed =>
        -- the window has been cut to what the mapping shows, so each address goes the same way
        obtain ⟨shown, -, -⟩ := BusOver.of_route_eq_some routed
        rw [Prod.mk.injEq, Option.bind_eq_some_iff] at offered
        obtain ⟨⟨below, asked, moved⟩, -⟩ := offered
        obtain ⟨inside, maps⟩ := (Mapping.maps_toBus_iff moved).1 maps
        obtain ⟨other, o, mem, extent, routes, backed⟩ :=
          (behind m.target).offered _ _ _ _ _ same (Prod.ext asked rfl) _ q ptr maps
        exact ⟨other, o, mem, extent,
          .through found (ordered.route_single_eq_some_iff.2 ⟨shown, inside, rfl⟩) routes, backed⟩
    · cases offered

/-- Nothing offers nothing. -/
theorem honest_silent {good : UInt64 → Permission → HostPointer → Prop} :
    (Target.silent Platform).Honest base good := by
  refine ⟨fun _ _ _ _ same => same, fun _ _ _ _ same => same, fun _ _ _ same => same, ?_⟩
  intro range attributes w v after same offered
  cases offered

/-- A memory changes only its bytes, and its window is backed by itself. -/
theorem honest_memory {id : TargetId} {m : Memory} (found : base.endpoint? id = some (.memory m)) :
    (answering targets id).Honest base (base.Backs id) := by
  have known : ∀ {w : World Platform}, base.Alike w → w.endpoint? id = some (.memory m) :=
    fun same => (same.endpoint? id).trans found
  refine ⟨?_, ?_, ?_, ?_⟩
  · intro range attributes buffer w same
    rw [read_answering_memory (known same)]
    exact same
  · intro range attributes data w same
    rw [write_answering_memory (known same)]
    exact m.alike_write same range attributes.debug data
  · intro range attributes w same
    rw [window_answering_memory (known same)]
    exact same
  · intro range attributes w v after same offered a q ptr maps
    rw [window_answering_memory (known same), Prod.mk.injEq] at offered
    obtain ⟨extent, whole, mapped⟩ := Memory.exists_maps_window_iff offered.1
    obtain ⟨inside, rfl, rfl⟩ := (mapped a q ptr).1 maps
    refine ⟨id, a, m, extent, .here id a, found, ?_, inside, rfl,
      Memory.allows_write_permission_iff.1⟩
    rw [← whole]
    exact Memory.extent_congr (same.length m.block).symm

/-- **The targets of a plain platform offer windows onto what backs them.** -/
theorem honest_target (plain : base.Plain) (depth : Nat) (id : TargetId) :
    (target depth id).Honest base (base.Backs id) := by
  -- the targets behind a bus are those of one round less
  induction depth generalizing id with
  | zero => exact honest_silent
  | succ depth ih =>
      rw [target_succ]
      have known : ∀ {w : World Platform}, base.Alike w → w.endpoint? id = base.endpoint? id :=
        fun same => same.endpoint? id
      cases found : base.endpoint? id with
      | none =>
          refine honest_silent.of_agree ?_ ?_ ?_
          · intro range attributes buffer w same
            simp [answering, known same, found, Target.silent]
          · intro range attributes data w same
            simp [answering, known same, found, Target.silent]
          · intro range attributes w same
            simp [answering, known same, found, Target.silent]
      | some e =>
          rcases plain.kinds id e found with ⟨m, rfl⟩ | ⟨b, rfl⟩
          · exact honest_memory found
          · refine (honest_bus (plain.ordered id b found) found ih).of_agree ?_ ?_ ?_
            · intro range attributes buffer w same
              exact read_answering_bus ((known same).trans found) range attributes buffer
            · intro range attributes data w same
              exact write_answering_bus ((known same).trans found) range attributes data
            · intro range attributes w same
              exact window_answering_bus ((known same).trans found) range attributes

end Platform

end Interconnect
