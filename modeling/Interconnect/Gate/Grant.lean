import Interconnect.Gate.Basic

/-!
# Granting direct windows

A gate hands out windows that its target offers.  It remembers every offer in its grant cache, so
the target is asked only when no remembered window serves, and before a window leaves the gate the
monitor carves the reserved addresses out of it.

## Main Definitions

* `Station.offer` — a window from the grant cache or from the target
* `Station.grant` — the same without reserved addresses
-/

namespace Interconnect

universe u

namespace Station

variable {σ : Type u}

/-- **A window for an access, from the grant cache or else from the target,** whose offer the cache
then remembers. -/
def offer (T : Target σ) (access : Access) (s : Station σ) : Option DirectWindow × Station σ :=
  let (known, grants) := s.grants.lookup access.range access.command
  let s := s.setGrants grants
  match known with
  | some w => (some w, s)
  | none =>
    let (offered, world) :=
      T.window access.range (s.attributes access.owner false access.exclusive) s.world
    let s := s.setWorld world
    match offered with
    | some w => (some w, s.setGrants (s.grants.insert w))
    | none => (none, s)

/-- **A window that an initiator may use for an access,** free of reserved addresses. -/
def grant (T : Target σ) (access : Access) (s : Station σ) : Option DirectWindow × Station σ :=
  if s.gate.config.allowDirect then
    let (offered, s) := s.offer T access
    (offered.bind (s.gate.monitor.carve access), s)
  else (none, s)

@[simp] theorem gate_offer (T : Target σ) (access : Access) (s : Station σ) :
    (s.offer T access).2.gate = s.gate := by
  unfold offer
  dsimp only
  split
  · rfl
  · split <;> rfl

@[simp] theorem gate_grant (T : Target σ) (access : Access) (s : Station σ) :
    (s.grant T access).2.gate = s.gate := by
  unfold grant
  split
  · exact gate_offer T access s
  · rfl

end Station

end Interconnect
