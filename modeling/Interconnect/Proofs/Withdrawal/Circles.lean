import Mathlib.Data.FinEnum
import Mathlib.Data.Set.Card
import Mathlib.Order.WellFounded
import Interconnect.Proofs.Withdrawal.Exact

/-!
# Withdrawals that go round

Handles may pass withdrawals on in a circle, for only a link from a handle to itself is refused.  A
withdrawal on a circle ends if some rebase drops what is left of it, and goes round for ever if not.
There are finitely many handles and ranges, so one that goes round for ever comes back to a handle
with the range that it had there.

## Main Definitions

* `Network.Returns` — a withdrawal comes back to a handle as it was
* `Network.Rounds` — an address stands, further on, for another one of the same handle

## Main Statements

* `Network.ends_iff_exists_withdraw?` — a withdrawal that ends has an outcome, and no other
* `Network.ends_iff_not_returns` — it ends exactly if it nowhere comes back as it was
* `Network.ends_iff_not_rounds` — and exactly if none of its addresses comes back to itself
* `Network.withdraw_ends_iff` — all of this about the outcome
* `Network.not_forall_withdraw_ends` — not every withdrawal has one

### Ranges and addresses

A range that comes back as it was holds exactly what its own addresses stand for after one round, so
each of them has one before it that stands for it.  There are finitely many, so going back from one
to the other some address is met again, and that one stands for itself.
-/

namespace Interconnect

/-- There are finitely many ranges. -/
instance : Finite AddressRange :=
  .of_injective (fun r : AddressRange => (r.start, r.last)) fun _ _ same =>
    AddressRange.ext (congrArg Prod.fst same) (congrArg Prod.snd same)

/-- What arrives of a range that holds an address holds one too. -/
theorem Link.exists_mem_image {link : Link} (fits : link.Fits) {range image : AddressRange}
    (moved : link.image range = some image) (holds : ∃ a, a ∈ range) : ∃ b, b ∈ image := by
  unfold Link.image at moved
  cases plain : link.rebase with
  | none =>
      rw [plain] at moved
      cases moved
      exact holds
  | some r =>
      rw [plain] at moved
      obtain ⟨part, met, -⟩ := Option.bind_eq_some_iff.1 moved
      obtain ⟨a, shown, withdrawn⟩ : ∃ a, a ∈ r.visible ∧ a ∈ range := by
        by_contra apart
        rw [AddressRange.intersect_eq_none_iff.2 fun a shown withdrawn =>
          apart ⟨a, shown, withdrawn⟩] at met
        cases met
      obtain ⟨other, arrived, inside⟩ :=
        (Rebase.exists_mem_image_iff (fits r plain)).2 ⟨a, withdrawn, shown, rfl⟩
      obtain rfl : other = image := Option.some.inj (arrived.symm.trans moved)
      exact ⟨_, inside⟩

namespace Network

variable {net base : Network} {id other : HandleId} {range image final : AddressRange}

/-! ### Outcomes -/

/-- If there is an outcome for all links together, there is one for each. -/
private theorem exists_withdraw?_of_foldlM {depth : Nat} (links : List Link)
    {state outcome : Nat × Network} (same : state.2.handles = base.handles)
    (h : links.foldlM (withdrawLink depth range) state = some outcome) :
    ∀ link ∈ links, ∀ image, link.image range = some image →
      ∃ (net : Network) (next : Nat × Network),
        net.handles = base.handles ∧ net.withdraw? depth link.listener image = some next := by
  induction links generalizing state with
  | nil => exact fun _ absent => absurd absent List.not_mem_nil
  | cons link rest ih =>
      rw [List.foldlM_cons, Option.bind_eq_bind, Option.bind_eq_some_iff] at h
      obtain ⟨next, first, h⟩ := h
      intro other member image moved
      unfold withdrawLink at first
      split at first
      · next unmoved =>
          cases first
          rcases List.mem_cons.1 member with rfl | later
          · exact absurd moved (by simp [unmoved])
          · exact ih same h other later image moved
      · next image' moved' =>
          obtain ⟨⟨count, after⟩, withdrawn, rfl⟩ := Option.map_eq_some_iff.1 first
          rcases List.mem_cons.1 member with rfl | later
          · rw [moved] at moved'
            cases moved'
            exact ⟨_, _, same, withdrawn⟩
          · have sheds := (clears_of_withdraw? same withdrawn).1
            exact ih (sheds.handles.trans same) h other later image moved

/-- **A withdrawal with an outcome ends.** -/
theorem ends_of_withdraw? {depth : Nat} {outcome : Nat × Network}
    (same : net.handles = base.handles) (h : net.withdraw? depth id range = some outcome) :
    base.Ends id range := by
  induction depth generalizing net id range outcome with
  | zero => cases h
  | succ depth ih =>
      rw [withdraw?_succ] at h
      have cut : (net.cutBound id range).2.handles = base.handles :=
        (handles_cutBound net id range).trans same
      refine .intro fun link member image moved => ?_
      rw [← handle_of_handles_eq same] at member
      obtain ⟨net', next, same', withdrawn⟩ :=
        exists_withdraw?_of_foldlM _ cut h link member image moved
      exact ih same' withdrawn

theorem ends_iff_exists_withdraw? :
    net.Ends id range ↔ ∃ depth outcome, net.withdraw? depth id range = some outcome := by
  constructor
  · intro ends
    exact ⟨_, Option.isSome_iff_exists.1 (isSome_withdraw?_of_ends ends)⟩
  · rintro ⟨depth, outcome, done⟩
    exact ends_of_withdraw? rfl done

/-- **A withdrawal has no outcome exactly if it never ends.** -/
theorem withdraw_eq_none_iff : net.withdraw id range = none ↔ ¬ net.Ends id range := by
  constructor
  · intro none ends
    obtain ⟨outcome, done⟩ := exists_withdraw_of_ends ends
    rw [none] at done
    cases done
  · intro endless
    cases done : net.withdraw id range with
    | none => rfl
    | some outcome => exact absurd (ends_of_withdraw? rfl done) endless

/-! ### Ranges that come back -/

/-- **A withdrawal of `range` at `id` comes back as it was.** -/
def Returns (net : Network) (id : HandleId) (range : AddressRange) : Prop :=
  ∃ link ∈ (net.handle id).links, ∃ image, link.image range = some image ∧
    net.Reaches link.listener image id range

/-- A withdrawal that ends does so wherever it comes. -/
theorem Ends.of_reaches (ends : net.Ends id range) (reached : net.Reaches id range other final) :
    net.Ends other final := by
  induction reached with
  | here => exact ends
  | along member moved _ ih =>
      obtain ⟨onward⟩ := ends
      exact ih (onward _ member _ moved)

/-- The places to which a withdrawal comes and from which links lead on. -/
def ahead (net : Network) (id : HandleId) (range : AddressRange) : Set (HandleId × AddressRange) :=
  {place | net.Reaches id range place.1 place.2 ∧ (net.handle place.1).links ≠ []}

theorem finite_ahead (net : Network) (id : HandleId) (range : AddressRange) :
    (net.ahead id range).Finite := by
  have places : (net.handles.keys.toFinset ×ˢ Set.univ : Set (HandleId × AddressRange)).Finite :=
    net.handles.keys.toFinset.finite_toSet.prod Set.finite_univ
  refine places.subset ?_
  rintro ⟨other, final⟩ ⟨-, onward⟩
  exact ⟨List.mem_toFinset.2 (mem_keys_of_links onward), Set.mem_univ _⟩

/-- A link leads on to fewer places, since the withdrawal does not come back. -/
theorem ncard_ahead_lt {link : Link} (stays : ¬ net.Returns id range)
    (member : link ∈ (net.handle id).links) (moved : link.image range = some image) :
    (net.ahead link.listener image).ncard < (net.ahead id range).ncard := by
  refine Set.ncard_lt_ncard (Set.ssubset_iff_of_subset ?_ |>.2 ⟨(id, range), ?_, ?_⟩)
    (net.finite_ahead id range)
  · exact fun place further => ⟨.along member moved further.1, further.2⟩
  · exact ⟨.here id range, List.ne_nil_of_mem member⟩
  · exact fun back => stays ⟨link, member, image, moved, back.1⟩

/-- **A withdrawal ends exactly if it nowhere comes back as it was.** -/
theorem ends_iff_not_returns : net.Ends id range ↔
    ∀ other final, net.Reaches id range other final → ¬ net.Returns other final := by
  constructor
  · rintro ends other final reached ⟨link, member, image, moved, back⟩
    exact not_reaches_of_ends (ends.of_reaches reached) link member image moved back
  · intro stays
    induction left : (net.ahead id range).ncard using Nat.strong_induction_on generalizing id range
      with
    | _ n ih =>
        subst left
        refine .intro fun link member image moved => ?_
        refine ih _ (ncard_ahead_lt (stays id range (.here id range)) member moved) ?_ rfl
        exact fun other final reached => stays other final (.along member moved reached)

/-! ### Addresses that come back -/

/-- **Address `a` of a handle stands, further on, for address `b` of the same handle.** -/
def Rounds (net : Network) (id : HandleId) (a b : UInt64) : Prop :=
  ∃ link ∈ (net.handle id).links, ∃ m, link.Moves a m ∧ net.Leads link.listener m id b

theorem Leads.trans {middle : HandleId} {a m b : UInt64} (first : net.Leads id a middle m)
    (second : net.Leads middle m other b) : net.Leads id a other b := by
  induction first with
  | here => exact second
  | along member moves _ ih => exact .along member moves (ih second)

theorem Rounds.trans {a b c : UInt64} (first : net.Rounds id a b) (second : net.Rounds id b c) :
    net.Rounds id a c := by
  obtain ⟨link, member, m, moves, leads⟩ := first
  obtain ⟨link', member', m', moves', leads'⟩ := second
  exact ⟨link, member, m, moves, leads.trans (.along member' moves' leads')⟩

/-- A round may start one link later. -/
theorem Rounds.rotate {link : Link} {a m : UInt64} (member : link ∈ (net.handle id).links)
    (moves : link.Moves a m) (back : net.Leads link.listener m id a) :
    net.Rounds link.listener m m := by
  cases back with
  | here => exact ⟨link, member, _, moves, .here _ _⟩
  | along further onward rest =>
      exact ⟨_, further, _, onward, rest.trans (.along member moves (.here _ _))⟩

/-- An address that comes back to itself keeps a withdrawal from ending. -/
theorem not_rounds_of_ends (fits : net.Fits) (ends : net.Ends id range) :
    ∀ a ∈ range, ¬ net.Rounds id a a := by
  induction ends with
  | intro _ ih =>
      rintro a withdrawn ⟨link, member, middle, moves, back⟩
      obtain ⟨image, moved, held⟩ :=
        (Link.exists_mem_image_iff (fits _ link member)).2 ⟨a, withdrawn, moves⟩
      exact ih link member image moved middle held (.rotate member moves back)

/-- A withdrawal that holds an address does so wherever it comes. -/
theorem exists_mem_of_reaches (fits : net.Fits) (reached : net.Reaches id range other final)
    (holds : ∃ a, a ∈ range) : ∃ b, b ∈ final := by
  induction reached with
  | here => exact holds
  | along member moved _ ih => exact ih (Link.exists_mem_image (fits _ _ member) moved holds)

/-- **Of a range that comes back as it was, some address comes back to itself.** -/
theorem exists_rounds_of_returns (fits : net.Fits) (returns : net.Returns id range)
    (holds : ∃ a, a ∈ range) : ∃ a ∈ range, net.Rounds id a a := by
  by_contra never
  have before : ∀ b ∈ range, ∃ a ∈ range, net.Rounds id a b := by
    intro b inside
    obtain ⟨link, member, image, moved, back⟩ := returns
    obtain ⟨m, held, leads⟩ := (exists_reaches_iff fits).1 ⟨range, back, inside⟩
    obtain ⟨a, withdrawn, moves⟩ :=
      (Link.exists_mem_image_iff (fits id link member)).1 ⟨image, moved, held⟩
    exact ⟨a, withdrawn, link, member, m, moves, leads⟩
  -- rounds within the range would be an order, and its least address has one before it
  have transitive : IsTrans {a // a ∈ range} fun a b => net.Rounds id a b :=
    ⟨fun _ _ _ first second => first.trans second⟩
  have irreflexive : Std.Irrefl fun a b : {a // a ∈ range} => net.Rounds id a b :=
    ⟨fun a round => never ⟨a, a.2, round⟩⟩
  have founded := Finite.wellFounded_of_trans_of_irrefl
    fun a b : {a // a ∈ range} => net.Rounds id a b
  obtain ⟨any, inside⟩ := holds
  obtain ⟨⟨least, there⟩, -, first⟩ := founded.has_min Set.univ ⟨⟨any, inside⟩, trivial⟩
  obtain ⟨a, withdrawn, rounds⟩ := before least there
  exact first ⟨a, withdrawn⟩ trivial rounds

/-- **A withdrawal that holds an address ends exactly if no address that it comes to stands for
itself further on.** -/
theorem ends_iff_not_rounds (fits : net.Fits) (holds : ∃ a, a ∈ range) : net.Ends id range ↔
    ∀ a ∈ range, ∀ other b, net.Leads id a other b → ¬ net.Rounds other b b := by
  constructor
  · intro ends a withdrawn other b leads
    obtain ⟨final, reached, inside⟩ := (exists_reaches_iff fits).2 ⟨a, withdrawn, leads⟩
    exact not_rounds_of_ends fits (ends.of_reaches reached) b inside
  · intro stays
    refine ends_iff_not_returns.2 fun other final reached returns => ?_
    obtain ⟨b, inside, rounds⟩ :=
      exists_rounds_of_returns fits returns (exists_mem_of_reaches fits reached holds)
    obtain ⟨a, withdrawn, leads⟩ := (exists_reaches_iff fits).1 ⟨final, reached, inside⟩
    exact stays a withdrawn other b leads rounds

/-- **When a withdrawal has an outcome:** exactly if it nowhere comes back as it was, so always
without circles; and exactly if none of its addresses stands for one that stands for itself further
on, provided that it holds an address and that every shown address has a place. -/
theorem withdraw_ends_iff (net : Network) (id : HandleId) (range : AddressRange) :
    ((∃ depth outcome, net.withdraw? depth id range = some outcome) ↔
      ∀ other final, net.Reaches id range other final → ¬ net.Returns other final) ∧
    (net.Acyclic → ∃ depth outcome, net.withdraw? depth id range = some outcome) ∧
    (net.Fits → range.isEmpty = false →
      ((∃ depth outcome, net.withdraw? depth id range = some outcome) ↔
        ∀ a ∈ range, ∀ other b, net.Leads id a other b → ¬ net.Rounds other b b)) := by
  rw [← ends_iff_exists_withdraw?]
  refine ⟨ends_iff_not_returns, fun acyclic => acyclic.ends id range, fun fits holds => ?_⟩
  rw [AddressRange.isEmpty_eq_false_iff] at holds
  exact ends_iff_not_rounds fits ⟨range.start, UInt64.le_refl _, holds⟩

/-- A handle and one that passes back to it what it hears, sixteen addresses further up, for as long
as that is below the end of what it shows. -/
def climb : Network :=
  (Network.empty.addHandle.2.rebased 0 ⟨⟨0, 0xff, by decide⟩, 0x10⟩).2.forward 0 1

/-- A withdrawal climbs this circle to the end of what is shown, so no address comes back. -/
theorem not_rounds_on_climb : climb.Passes 0 1 ∧ climb.Passes 1 0 ∧
    climb.Fits ∧ (⟨0, 0xf, by decide⟩ : AddressRange).isEmpty = false ∧
      ∀ a ∈ (⟨0, 0xf, by decide⟩ : AddressRange), ∀ other b,
        climb.Leads 0 a other b → ¬ climb.Rounds other b b := by
  have built : climb.Built :=
    ((Built.caches Table.empty).addHandle.rebased 0 ⟨by decide, by decide⟩).forward 0 1
  have done : ∃ depth outcome, climb.withdraw? depth 0 ⟨0, 0xf, by decide⟩ = some outcome :=
    ⟨34, Option.isSome_iff_exists.1 (by decide +kernel)⟩
  refine ⟨⟨⟨1, none⟩, by decide, rfl⟩,
    ⟨⟨0, some ⟨⟨0, 0xff, by decide⟩, 0x10⟩⟩, by decide, rfl⟩, built.fits, rfl, ?_⟩
  exact ((withdraw_ends_iff climb 0 ⟨0, 0xf, by decide⟩).2.2 built.fits rfl).1 done

/-- Two handles, each of which passes on to the other what it withdraws. -/
def mirrors : Network :=
  (Network.empty.addHandle.2.addHandle.2.forward 0 1).forward 1 0

/-- **Not every withdrawal has an outcome:** between these two it goes round for ever. -/
theorem not_forall_withdraw_ends :
    ¬ ∀ net : Network, net.Built → ∀ id range,
      ∃ depth outcome, net.withdraw? depth id range = some outcome := by
  intro always
  have built : mirrors.Built :=
    ((Built.caches Table.empty).addHandle.addHandle.forward 0 1).forward 1 0
  have there : (⟨1, none⟩ : Link) ∈ (mirrors.handle 0).links := by decide
  have back : (⟨0, none⟩ : Link) ∈ (mirrors.handle 1).links := by decide
  have ends : mirrors.Ends 0 (.single 0) := ends_iff_exists_withdraw?.2 (always _ built _ _)
  exact not_reaches_of_ends ends _ there _ rfl (.along back rfl (.here _ _))

end Network

end Interconnect
