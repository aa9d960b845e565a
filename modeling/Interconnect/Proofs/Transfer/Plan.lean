import Interconnect.Transfer.Plan

/-!
# What a plan covers

The pieces of a transfer are the maximal runs of the bytes that take part, pulse by pulse: each such
byte lies in exactly one piece and no other byte lies in any, and between two pieces of one pulse
there is a byte that takes no part.

## Main Definitions

* `TakesPart` — the bytes of a pulse that a mask leaves
* `Enabled` — the enabled places of a row of flags
* `Piece.Covers` — the bytes of the buffer that a piece moves

## Main Statements

* `countP_inRun_runs`, `spec_of_mem_runs`, `pairwise_runs` — the runs of a row of flags
* `plan_covers_once` — the pieces of a transfer
-/

namespace Interconnect

/-! ### The bytes that take part -/

/-- **The byte at a place of a pulse takes part:** there is no mask, or one without a byte, or the
byte of the repeated mask is not zero there. -/
def TakesPart (byteEnable : Option Bytes) (place : Nat) : Prop :=
  ∀ mask, byteEnable = some mask → mask ≠ [] → mask[place % mask.length]? ≠ some 0

theorem isEnabled_eq_true_iff {byteEnable : Option Bytes} {place : Nat} :
    isEnabled byteEnable place = true ↔ TakesPart byteEnable place := by
  unfold TakesPart
  rcases byteEnable with - | - | ⟨b, mask⟩
  · simp [isEnabled]
  · simp [isEnabled]
  · have inside : place % (mask.length + 1) < (b :: mask).length := Nat.mod_lt _ (by simp)
    simp only [isEnabled, bne_iff_ne, Option.some.injEq, forall_eq', ne_eq, reduceCtorEq,
      not_false_eq_true, forall_const, List.length_cons, List.getD_eq_getElem?_getD,
      List.getElem?_eq_getElem inside, Option.getD_some]

instance (byteEnable : Option Bytes) (place : Nat) : Decidable (TakesPart byteEnable place) :=
  decidable_of_iff _ isEnabled_eq_true_iff

/-! ### The runs of a row of flags -/

/-- **A place is enabled** in a row of flags that starts at place `i`. -/
def Enabled (i : Nat) (flags : List Bool) (place : Nat) : Prop :=
  i ≤ place ∧ flags[place - i]? = some true

instance (i : Nat) (flags : List Bool) (place : Nat) : Decidable (Enabled i flags place) :=
  inferInstanceAs (Decidable (_ ∧ _))

/-- A run takes in a place. -/
def InRun (run : Nat × Nat) (place : Nat) : Prop := run.1 ≤ place ∧ place < run.1 + run.2

instance (run : Nat × Nat) (place : Nat) : Decidable (InRun run place) :=
  inferInstanceAs (Decidable (_ ∧ _))

@[simp] theorem not_enabled_nil (i place : Nat) : ¬ Enabled i [] place := by simp [Enabled]

theorem Enabled.le {i place : Nat} {flags : List Bool} (h : Enabled i flags place) : i ≤ place :=
  h.1

theorem enabled_cons_iff {i place : Nat} {flag : Bool} {flags : List Bool} :
    Enabled i (flag :: flags) place ↔
      (place = i ∧ flag = true) ∨ Enabled (i + 1) flags place := by
  unfold Enabled
  rcases Nat.lt_trichotomy place i with below | rfl | above
  · simp [Nat.not_le.2 below, Nat.ne_of_lt below, Nat.not_le.2 (Nat.lt_succ_of_lt below)]
  · simp [Nat.not_succ_le_self place]
  · rw [show place - i = place - (i + 1) + 1 by omega, List.getElem?_cons_succ]
    simp [Nat.le_of_lt above, Nat.succ_le_of_lt above, Nat.ne_of_gt above]

/-- No run starts before its row. -/
theorem le_of_mem_runs {i : Nat} {flags : List Bool} {run : Nat × Nat} (h : run ∈ runs i flags) :
    i ≤ run.1 := by
  induction flags generalizing i run with
  | nil => cases h
  | cons flag flags ih =>
      cases flag with
      | false => exact Nat.le_of_succ_le (ih h)
      | true =>
          rw [runs] at h
          split at h
          · exact Nat.le_of_eq (congrArg Prod.fst (List.mem_singleton.1 h)).symm
          · next first length rest found =>
              have later : ∀ run ∈ (first, length) :: rest, i ≤ run.1 :=
                fun run mem => Nat.le_of_succ_le (ih (found ▸ mem))
              split at h
              · rcases List.mem_cons.1 h with rfl | inRest
                · exact Nat.le_refl i
                · exact later run (List.mem_cons_of_mem _ inRest)
              · rcases List.mem_cons.1 h with rfl | inRest
                · exact Nat.le_refl i
                · exact later run inRest

/-- The first run of a row whose first place is enabled starts there. -/
theorem exists_runs_true (i : Nat) (flags : List Bool) :
    ∃ length rest, runs i (true :: flags) = (i, length) :: rest := by
  rw [runs]
  split
  · exact ⟨_, _, rfl⟩
  · split
    · exact ⟨_, _, rfl⟩
    · exact ⟨_, _, rfl⟩

/-- **An enabled place goes into the run right behind it,** and is a run of its own where the next
place is not enabled. -/
theorem runs_true_cases (i : Nat) (flags : List Bool) :
    (∃ length rest, runs (i + 1) flags = (i + 1, length) :: rest ∧
        runs i (true :: flags) = (i, length + 1) :: rest) ∨
      ¬ Enabled (i + 1) flags (i + 1) ∧
        runs i (true :: flags) = (i, 1) :: runs (i + 1) flags := by
  cases flags with
  | nil => exact .inr ⟨not_enabled_nil _ _, rfl⟩
  | cons flag flags =>
      cases flag with
      | false =>
          refine .inr ⟨by simp [Enabled], ?_⟩
          show runs i (true :: false :: flags) = (i, 1) :: runs (i + 1 + 1) flags
          rw [runs, runs_false]
          cases found : runs (i + 1 + 1) flags with
          | nil => rfl
          | cons run rest =>
              have later : i + 1 + 1 ≤ run.1 := le_of_mem_runs (found ▸ List.mem_cons_self)
              exact if_neg (by omega)
      | true =>
          obtain ⟨length, rest, found⟩ := exists_runs_true (i + 1) flags
          exact .inl ⟨length, rest, found, by rw [runs, found]; exact if_pos rfl⟩

/-- **Each enabled place is in exactly one run, and no other place is in any.** -/
theorem countP_inRun_runs (i : Nat) (flags : List Bool) (place : Nat) :
    ((runs i flags).countP fun run => InRun run place) =
      if Enabled i flags place then 1 else 0 := by
  induction flags generalizing i with
  | nil => simp
  | cons flag flags ih =>
      have rest := ih (i + 1)
      cases flag with
      | false => simpa [enabled_cons_iff] using rest
      | true =>
          have first : place = i → ¬ Enabled (i + 1) flags place := by
            rintro rfl enabled
            exact absurd enabled.le (Nat.not_succ_le_self _)
          simp only [enabled_cons_iff, and_true]
          rcases runs_true_cases i flags with ⟨length, tail, behind, joined⟩ | ⟨-, alone⟩
          · have grown : InRun (i, length + 1) place ↔ place = i ∨ InRun (i + 1, length) place := by
              simp only [InRun]
              omega
            have apart : place = i → ¬ InRun (i + 1, length) place := by
              simp only [InRun]
              omega
            rw [behind, List.countP_cons] at rest
            rw [joined, List.countP_cons]
            by_cases here : place = i
            · simp only [apart here, first here, decide_false, Bool.false_eq_true, if_false,
                Nat.add_zero] at rest
              rw [rest, decide_eq_true (grown.2 (.inl here)), if_pos rfl, if_pos (.inl here)]
            · simpa [grown, here] using rest
          · have single : InRun (i, 1) place ↔ place = i := by
              simp only [InRun]
              omega
            rw [alone, List.countP_cons, rest]
            by_cases here : place = i
            · rw [if_neg (first here), decide_eq_true (single.2 here), if_pos rfl,
                if_pos (.inl here)]
            · simp [single, here]

/-- What is in a run is enabled. -/
theorem enabled_of_inRun {i place : Nat} {flags : List Bool} {run : Nat × Nat}
    (h : run ∈ runs i flags) (inside : InRun run place) : Enabled i flags place := by
  refine Decidable.byContradiction fun disabled => ?_
  have none := countP_inRun_runs i flags place
  rw [if_neg disabled, List.countP_eq_zero] at none
  exact none run h (decide_eq_true inside)

/-- **A run is not empty, ends within the row, and the place behind it is not enabled.** -/
theorem spec_of_mem_runs {i : Nat} {flags : List Bool} {run : Nat × Nat} (h : run ∈ runs i flags) :
    0 < run.2 ∧ run.1 + run.2 ≤ i + flags.length ∧ ¬ Enabled i flags (run.1 + run.2) := by
  induction flags generalizing i run with
  | nil => cases h
  | cons flag flags ih =>
      -- what holds of a run in the rest of the row holds of one with the same end
      have later : ∀ {run whole : Nat × Nat}, run ∈ runs (i + 1) flags → 0 < whole.2 →
          whole.1 + whole.2 = run.1 + run.2 → 0 < whole.2 ∧
          whole.1 + whole.2 ≤ i + (flag :: flags).length ∧
          ¬ Enabled i (flag :: flags) (whole.1 + whole.2) := by
        intro run whole mem positive same
        have start := le_of_mem_runs mem
        obtain ⟨-, last, behind⟩ := ih mem
        refine ⟨positive, ?_, ?_⟩
        · rw [List.length_cons]
          omega
        · rw [enabled_cons_iff, same]
          rintro (⟨first, -⟩ | enabled)
          · omega
          · exact behind enabled
      cases flag with
      | false => exact later h (ih h).1 rfl
      | true =>
          rcases runs_true_cases i flags with ⟨length, tail, behind, joined⟩ | ⟨next, alone⟩
          · rw [joined] at h
            rcases List.mem_cons.1 h with rfl | inTail
            · exact later (behind ▸ List.mem_cons_self) (Nat.succ_pos length)
                (by dsimp only; omega)
            · have mem := behind ▸ List.mem_cons_of_mem _ inTail
              exact later mem (ih mem).1 rfl
          · rw [alone] at h
            rcases List.mem_cons.1 h with rfl | inRest
            · refine ⟨Nat.one_pos, by simp, ?_⟩
              rw [enabled_cons_iff]
              rintro (⟨first, -⟩ | enabled)
              · exact absurd first (Nat.succ_ne_self i)
              · exact next enabled
            · exact later inRest (ih inRest).1 rfl

/-- **Runs are in order, with a place between any two.** -/
theorem pairwise_runs (i : Nat) (flags : List Bool) :
    (runs i flags).Pairwise fun run later => run.1 + run.2 < later.1 := by
  induction flags generalizing i with
  | nil => exact List.Pairwise.nil
  | cons flag flags ih =>
      have rest := ih (i + 1)
      cases flag with
      | false => exact rest
      | true =>
          rcases runs_true_cases i flags with ⟨length, tail, behind, joined⟩ | ⟨next, alone⟩
          · rw [behind, List.pairwise_cons] at rest
            rw [joined, List.pairwise_cons]
            refine ⟨fun later mem => ?_, rest.2⟩
            have := rest.1 later mem
            dsimp only at this ⊢
            omega
          · rw [alone, List.pairwise_cons]
            refine ⟨fun later mem => ?_, rest⟩
            have start := le_of_mem_runs mem
            have other : later.1 ≠ i + 1 := by
              intro first
              refine next (enabled_of_inRun mem ⟨Nat.le_of_eq first, ?_⟩)
              have := (spec_of_mem_runs mem).1
              omega
            dsimp only
            omega

/-! ### The runs of a pulse -/

theorem enabled_pulse_iff {width : Nat} {byteEnable : Option Bytes} {place : Nat} :
    Enabled 0 ((List.range width).map (isEnabled byteEnable)) place ↔
      place < width ∧ TakesPart byteEnable place := by
  rw [← isEnabled_eq_true_iff]
  simp only [Enabled, Nat.zero_le, true_and, Nat.sub_zero, List.getElem?_map,
    Option.map_eq_some_iff]
  constructor
  · rintro ⟨k, found, enabled⟩
    obtain ⟨inside, rfl⟩ := List.getElem?_eq_some_iff.1 found
    rw [List.getElem_range] at enabled
    exact ⟨by simpa using inside, enabled⟩
  · rintro ⟨inside, enabled⟩
    exact ⟨place, by simp [inside], enabled⟩

/-- **A run of a pulse is not empty, ends within the pulse, and has a byte behind it that takes no
part, or none at all.** -/
theorem spec_of_mem_pulseRuns {width : Nat} {byteEnable : Option Bytes} {run : Nat × Nat}
    (h : run ∈ pulseRuns width byteEnable) :
    0 < run.2 ∧ run.1 + run.2 ≤ width ∧
      (run.1 + run.2 < width → ¬ TakesPart byteEnable (run.1 + run.2)) := by
  rw [pulseRuns_eq] at h
  obtain ⟨positive, inside, behind⟩ := spec_of_mem_runs h
  rw [enabled_pulse_iff] at behind
  exact ⟨positive, by simpa using inside, fun within takes => behind ⟨within, takes⟩⟩

/-! ### The pieces of a transfer -/

section Plan

variable {address : UInt64} {length : Nat} {streamingWidth : Option Nat} {byteEnable : Option Bytes}

/-- **A piece is a run of one of the whole pulses.** -/
theorem mem_plan_iff {piece : Piece} : piece ∈ plan address length streamingWidth byteEnable ↔
    ∃ k < length / pulseWidth length streamingWidth,
      ∃ run ∈ pulseRuns (pulseWidth length streamingWidth) byteEnable,
        ⟨address + UInt64.ofNat run.1, k * pulseWidth length streamingWidth + run.1, run.2⟩ =
          piece := by
  simp only [plan, List.mem_flatMap, List.mem_range, List.mem_map]

theorem pulseWidth_le (length : Nat) (streamingWidth : Option Nat) :
    pulseWidth length streamingWidth ≤ length := by
  unfold pulseWidth
  split
  · split
    · next short => exact Nat.le_of_lt short.2
    · exact Nat.le_refl length
  · exact Nat.le_refl length

/-- **A piece moves the byte at place `i` of the buffer.** -/
def Piece.Covers (piece : Piece) (i : Nat) : Prop :=
  piece.offset ≤ i ∧ i < piece.offset + piece.length

instance (piece : Piece) (i : Nat) : Decidable (piece.Covers i) :=
  inferInstanceAs (Decidable (_ ∧ _))

/-- A piece moves bytes of its own pulse only. -/
theorem div_eq_of_covers {width k i : Nat} {run : Nat × Nat}
    (h : run ∈ pulseRuns width byteEnable)
    (covers : Piece.Covers ⟨address, k * width + run.1, run.2⟩ i) : i / width = k := by
  obtain ⟨positive, inside, -⟩ := spec_of_mem_pulseRuns h
  obtain ⟨first, last⟩ := covers
  dsimp only at first last
  rw [Nat.div_eq_iff (by omega)]
  omega

/-- A piece belongs to the pulse that it starts in. -/
theorem div_offset_eq {width k : Nat} {run : Nat × Nat} (h : run ∈ pulseRuns width byteEnable) :
    (k * width + run.1) / width = k := by
  have own : Piece.Covers ⟨0, k * width + run.1, run.2⟩ (k * width + run.1) :=
    ⟨Nat.le_refl _, Nat.lt_add_of_pos_right (spec_of_mem_pulseRuns h).1⟩
  exact div_eq_of_covers h own

/-- Within its pulse a byte is in a piece where it is in the run. -/
theorem covers_pulse_iff {width i : Nat} {run : Nat × Nat} :
    Piece.Covers ⟨address, i / width * width + run.1, run.2⟩ i ↔ InRun run (i % width) := by
  have parts := Nat.div_add_mod' i width
  simp only [Piece.Covers, InRun]
  omega

/-- A byte is in one piece of its own pulse if it takes part there, and in no piece of another. -/
theorem countP_covers_pulse (width k i : Nat) :
    (((pulseRuns width byteEnable).map fun run =>
      (⟨address + UInt64.ofNat run.1, k * width + run.1, run.2⟩ : Piece)).countP fun piece =>
        piece.Covers i) =
      if k = i / width then if i % width < width ∧ TakesPart byteEnable (i % width) then 1 else 0
        else 0 := by
  rw [List.countP_map]
  split
  · next own =>
      subst own
      simp only [Function.comp_def, covers_pulse_iff, pulseRuns_eq, countP_inRun_runs,
        enabled_pulse_iff]
  · next other =>
      rw [List.countP_eq_zero]
      intro run mem covers
      exact other (div_eq_of_covers mem (of_decide_eq_true covers)).symm

/-- What is counted in the part `q` of a row only is counted if the row reaches there. -/
private theorem countP_flatMap_range {α : Type} {f : Nat → List α} {p : α → Bool} {q c : Nat}
    (parts : ∀ k, (f k).countP p = if k = q then c else 0) (n : Nat) :
    ((List.range n).flatMap f).countP p = if q < n then c else 0 := by
  induction n with
  | zero => simp
  | succ n ih =>
      rw [List.range_succ, List.flatMap_append, List.countP_append, ih, List.flatMap_singleton,
        parts]
      by_cases last : n = q
      · simp [last]
      · have : q < n + 1 ↔ q < n := by omega
        simp [last, this]

/-- **Each byte that takes part lies in exactly one piece, and no other byte lies in any.** -/
theorem countP_covers_plan (i : Nat) :
    ((plan address length streamingWidth byteEnable).countP fun piece => piece.Covers i) =
      if i < length / pulseWidth length streamingWidth * pulseWidth length streamingWidth ∧
        TakesPart byteEnable (i % pulseWidth length streamingWidth) then 1 else 0 := by
  simp only [plan]
  generalize pulseWidth length streamingWidth = width
  rw [countP_flatMap_range fun k => countP_covers_pulse width k i]
  rcases Nat.eq_zero_or_pos width with rfl | positive
  · simp
  · simp only [Nat.mod_lt i positive, true_and, Nat.div_lt_iff_lt_mul positive]
    by_cases whole : i < length / width * width
    · simp [whole]
    · simp [whole]

/-- **A piece is not empty, lies within a pulse, and starts at the address of its place in the
pulse.** -/
theorem spec_of_mem_plan {piece : Piece}
    (h : piece ∈ plan address length streamingWidth byteEnable) :
    0 < piece.length ∧
      piece.offset % pulseWidth length streamingWidth + piece.length ≤
        pulseWidth length streamingWidth ∧
      piece.offset + piece.length ≤
        length / pulseWidth length streamingWidth * pulseWidth length streamingWidth ∧
      piece.address = address + UInt64.ofNat (piece.offset % pulseWidth length streamingWidth) := by
  obtain ⟨k, whole, run, mem, rfl⟩ := mem_plan_iff.1 h
  generalize pulseWidth length streamingWidth = width at whole mem ⊢
  obtain ⟨positive, inside, -⟩ := spec_of_mem_pulseRuns mem
  have place : (k * width + run.1) % width = run.1 := by
    rw [Nat.mul_add_mod', Nat.mod_eq_of_lt (by omega)]
  have pulses : (k + 1) * width ≤ length / width * width := Nat.mul_le_mul_right width whole
  rw [Nat.succ_mul] at pulses
  dsimp only
  rw [place]
  exact ⟨positive, inside, by omega, rfl⟩

/-- **Pieces are in order, and between two of one pulse there is a byte that takes no part.** -/
theorem pairwise_plan : (plan address length streamingWidth byteEnable).Pairwise
    fun piece later => piece.offset + piece.length ≤ later.offset ∧
      (piece.offset / pulseWidth length streamingWidth =
          later.offset / pulseWidth length streamingWidth →
        ∃ place, piece.offset + piece.length ≤ place ∧ place < later.offset ∧
          ¬ TakesPart byteEnable (place % pulseWidth length streamingWidth)) := by
  simp only [plan]
  generalize pulseWidth length streamingWidth = width
  refine List.pairwise_flatMap.2 ⟨fun k whole => ?_, ?_⟩
  · -- within one pulse the byte right behind the first piece takes no part
    rw [List.pairwise_map, pulseRuns_eq]
    refine (pairwise_runs 0 _).imp_of_mem fun {run later} mem memLater before => ?_
    rw [← pulseRuns_eq] at mem memLater
    obtain ⟨-, -, behind⟩ := spec_of_mem_pulseRuns mem
    obtain ⟨-, inside, -⟩ := spec_of_mem_pulseRuns memLater
    dsimp only
    refine ⟨by omega, fun _ => ⟨k * width + run.1 + run.2, Nat.le_refl _, by omega, ?_⟩⟩
    rw [Nat.add_assoc, Nat.mul_add_mod', Nat.mod_eq_of_lt (by omega)]
    exact behind (by omega)
  · -- pieces of different pulses are those of pulses in order
    refine List.pairwise_lt_range.imp fun {k later} before => ?_
    simp only [List.mem_map, forall_exists_index, and_imp, forall_apply_eq_imp_iff₂]
    intro run mem run' mem'
    rw [div_offset_eq mem, div_offset_eq mem']
    obtain ⟨-, inside, -⟩ := spec_of_mem_pulseRuns mem
    have pulses : (k + 1) * width ≤ later * width := Nat.mul_le_mul_right width before
    rw [Nat.succ_mul] at pulses
    exact ⟨by omega, fun same => absurd same (Nat.ne_of_lt before)⟩

/-- **Without a mask each pulse is one piece.** -/
theorem plan_of_unmasked (unmasked : byteEnable = none ∨ byteEnable = some []) :
    plan address length streamingWidth byteEnable =
      (List.range (length / pulseWidth length streamingWidth)).map fun k =>
        ⟨address, k * pulseWidth length streamingWidth, pulseWidth length streamingWidth⟩ := by
  simp only [plan]
  generalize pulseWidth length streamingWidth = width
  have whole : pulseRuns width byteEnable = if width = 0 then [] else [(0, width)] := by
    rcases unmasked with rfl | rfl
    · rfl
    · rfl
  rcases Nat.eq_zero_or_pos width with rfl | positive
  · simp
  · simp [whole, Nat.ne_of_gt positive, List.map_eq_flatMap]

/-- **The pieces of a transfer are the maximal runs of the bytes that take part.**  Each such byte
of a whole pulse lies in exactly one piece and no other byte lies in any; pieces are not empty, come
in order, stay within a pulse and start at the address of their place there; between two pieces of
one pulse there is a byte that takes no part; and without a mask each pulse is one piece. -/
theorem plan_covers_once (address : UInt64) (length : Nat) (streamingWidth : Option Nat)
    (byteEnable : Option Bytes) :
    let width := pulseWidth length streamingWidth
    let pieces := plan address length streamingWidth byteEnable
    (∀ i, pieces.countP (fun piece => piece.Covers i) =
        if i < length / width * width ∧ TakesPart byteEnable (i % width) then 1 else 0) ∧
      (∀ piece ∈ pieces, 0 < piece.length ∧
        (∀ k, k * width ≤ piece.offset ∨ piece.offset + piece.length ≤ k * width) ∧
        piece.address.toNat = (address.toNat + piece.offset % width) % UInt64.size) ∧
      pieces.Pairwise (fun piece later => piece.offset + piece.length ≤ later.offset ∧
        (piece.offset / width = later.offset / width →
          ∃ place, piece.offset + piece.length ≤ place ∧ place < later.offset ∧
            ¬ TakesPart byteEnable (place % width))) ∧
      (byteEnable = none ∨ byteEnable = some [] →
        pieces = (List.range (length / width)).map fun k => ⟨address, k * width, width⟩) := by
  refine ⟨countP_covers_plan, fun piece mem => ?_, pairwise_plan, plan_of_unmasked⟩
  obtain ⟨positive, inside, -, start⟩ := spec_of_mem_plan mem
  generalize pulseWidth length streamingWidth = width at inside start ⊢
  have parts := Nat.div_add_mod' piece.offset width
  refine ⟨positive, fun k => ?_, ?_⟩
  · rcases Nat.lt_or_ge (piece.offset / width) k with above | below
    · have : (piece.offset / width + 1) * width ≤ k * width := Nat.mul_le_mul_right width above
      rw [Nat.succ_mul] at this
      omega
    · have : k * width ≤ piece.offset / width * width := Nat.mul_le_mul_right width below
      omega
  · rw [start, UInt64.toNat_add, UInt64.toNat_ofNat', UInt64.size]
    omega

end Plan

end Interconnect
