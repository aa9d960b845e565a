import Interconnect.Window.Cache
import Interconnect.Withdrawal.Rebase

/-!
# Withdrawal of direct windows

A target that has handed out direct windows must be able to take them back.  It does so through a
handle: caches are bound to handles, and a handle may pass what it withdraws on to others, as it is
or rebased into the addresses of a router.

## Main Definitions

* `Network` — the caches and the handles between them
* `bind`, `forward`, `rebased` — how the network grows
* `withdraw` — cuts a range out of every cache that a handle reaches

### Handles that reach themselves

Nothing keeps handles from passing withdrawals on in a circle.  Such a withdrawal goes round until
some rebase drops the range, and never ends if none does, so `withdraw?` takes the number of handles
that it may pass one after the other and has no result when they do not suffice.  `depthBound` is a
number that suffices whenever any does: a chain that passes more handles than that meets some handle
twice with the same range.  So `withdraw` has no result exactly where the withdrawal never ends.
-/

namespace Interconnect

/-- The number of a cache. -/
abbrev CacheId := Nat

/-- The number of a handle. -/
abbrev HandleId := Nat

/-- A handle that hears of withdrawals, and how ranges are rebased on the way to it. -/
structure Link where
  /-- The handle that hears. -/
  listener : HandleId
  /-- The change of addresses, if there is one. -/
  rebase : Option Rebase
deriving DecidableEq

/-- The range that arrives at the other end of a link. -/
def Link.image (link : Link) (range : AddressRange) : Option AddressRange :=
  match link.rebase with
  | some rebase => rebase.image range
  | none => some range

/-- **What a handle reaches by itself:** the caches bound to it, and the handles that hear of what
it withdraws. -/
structure Handle where
  /-- The caches bound here, in order of binding. -/
  caches : List CacheId
  /-- The links onwards, in the order in which they were made. -/
  links : List Link
deriving DecidableEq

/-- **The caches of an interconnect and the handles that withdraw windows from them.** -/
structure Network where
  /-- The caches. -/
  caches : Table WindowCache
  /-- The handles. -/
  handles : Table Handle

namespace Network

/-- The network without caches and handles. -/
def empty : Network := ⟨Table.empty, Table.empty⟩

/-- The cache with a given number. -/
def cache (net : Network) (id : CacheId) : WindowCache :=
  (net.caches.find? id).getD WindowCache.empty

/-- Replaces a cache. -/
def setCache (net : Network) (id : CacheId) (c : WindowCache) : Network :=
  { net with caches := net.caches.insert id c }

/-- A new cache with the given limit. -/
def addCache (net : Network) (limit : Option Nat) : CacheId × Network :=
  (net.caches.fresh, net.setCache net.caches.fresh (WindowCache.withLimit limit))

/-- The handle with a given number. -/
def handle (net : Network) (id : HandleId) : Handle := (net.handles.find? id).getD ⟨[], []⟩

/-- Replaces a handle. -/
def setHandle (net : Network) (id : HandleId) (h : Handle) : Network :=
  { net with handles := net.handles.insert id h }

/-! ### Growth -/

/-- A new handle to which nothing is bound. -/
def addHandle (net : Network) : HandleId × Network :=
  (net.handles.fresh, net.setHandle net.handles.fresh ⟨[], []⟩)

/-- A new handle that passes on to `id` what it withdraws, rebased. -/
def rebased (net : Network) (id : HandleId) (rebase : Rebase) : HandleId × Network :=
  (net.handles.fresh, net.setHandle net.handles.fresh ⟨[], [⟨id, some rebase⟩]⟩)

/-- Binds a cache to a handle, once. -/
def bind (net : Network) (id : HandleId) (cache : CacheId) : Network :=
  let h := net.handle id
  if h.caches.contains cache then net
  else net.setHandle id { h with caches := h.caches ++ [cache] }

/-- Undoes a binding. -/
def unbind (net : Network) (id : HandleId) (cache : CacheId) : Network :=
  let h := net.handle id
  net.setHandle id { h with caches := h.caches.filter fun c => c != cache }

/-- **Passes on to `listener` whatever `id` withdraws.**  A handle does not hear from itself, and a
second plain link between the same two handles adds nothing. -/
def forward (net : Network) (id listener : HandleId) : Network :=
  let h := net.handle id
  if id = listener || h.links.contains ⟨listener, none⟩ then net
  else net.setHandle id { h with links := h.links ++ [⟨listener, none⟩] }

/-! ### Withdrawal -/

/-- Cuts `range` out of the given caches and counts those that it touched. -/
def cutCaches (range : AddressRange) (ids : List CacheId) (net : Network) : Nat × Network :=
  ids.foldl (fun state id =>
    if (state.2.cache id).touches range then
      (state.1 + 1, state.2.setCache id ((state.2.cache id).cut range))
    else state) (0, net)

/-- Cuts `range` out of the caches bound to one handle and counts those that it touched. -/
def cutBound (net : Network) (id : HandleId) (range : AddressRange) : Nat × Network :=
  cutCaches range (net.handle id).caches net

/-- **Cuts a range out of every cache that a handle reaches,** first those bound to it and then,
link by link, those reached through the handles that hear from it.  Gives how often a cache was
touched, or nothing if a chain of more than `depth` handles is met. -/
def withdraw? : (depth : Nat) → Network → HandleId → AddressRange → Option (Nat × Network)
  | 0, _, _, _ => none
  | depth + 1, net, id, range =>
    (net.handle id).links.foldlM (fun state link =>
      match link.image range with
      | none => some state
      | some image =>
        (withdraw? depth state.2 link.listener image).map fun next =>
          (state.1 + next.1, next.2)) (net.cutBound id range)

/-- A depth that suffices for every withdrawal that ends: as many handles as there are pairs of a
handle and a range. -/
def depthBound (net : Network) : Nat := net.handles.entries.length * (UInt64.size * UInt64.size) + 1

/-- **The outcome of a withdrawal.**  One that goes round for ever has none. -/
def withdraw (net : Network) (id : HandleId) (range : AddressRange) : Option (Nat × Network) :=
  net.withdraw? net.depthBound id range

/-- Withdraws a range through several handles, one after the other, and gives the count of each. -/
def withdrawThrough (net : Network) (ids : List HandleId) (range : AddressRange) :
    Option (List Nat × Network) :=
  ids.foldlM (fun state id =>
    (state.2.withdraw id range).map fun next => (state.1 ++ [next.1], next.2)) ([], net)

/-- Withdraws several ranges, one after the other, through several handles. -/
def withdrawAll (net : Network) (ids : List HandleId) (ranges : List AddressRange) :
    Option Network :=
  ranges.foldlM (fun net range => (net.withdrawThrough ids range).map Prod.snd) net

/-! ### The network seen through its caches and handles -/

@[simp] theorem cache_setCache (net : Network) (id : CacheId) (c : WindowCache) (other : CacheId) :
    (net.setCache id c).cache other = if other = id then c else net.cache other := by
  simp only [cache, setCache, Table.find?_insert]
  split <;> rfl

@[simp] theorem handle_setCache (net : Network) (id : CacheId) (c : WindowCache)
    (other : HandleId) : (net.setCache id c).handle other = net.handle other := rfl

@[simp] theorem cache_setHandle (net : Network) (id : HandleId) (h : Handle) (other : CacheId) :
    (net.setHandle id h).cache other = net.cache other := rfl

@[simp] theorem handle_setHandle (net : Network) (id : HandleId) (h : Handle) (other : HandleId) :
    (net.setHandle id h).handle other = if other = id then h else net.handle other := by
  simp only [handle, setHandle, Table.find?_insert]
  split <;> rfl

@[simp] theorem cache_bind (net : Network) (id : HandleId) (c other : CacheId) :
    (net.bind id c).cache other = net.cache other := by
  unfold bind
  dsimp only
  split <;> simp

@[simp] theorem cache_forward (net : Network) (id listener : HandleId) (other : CacheId) :
    (net.forward id listener).cache other = net.cache other := by
  unfold forward
  dsimp only
  split <;> simp

end Network

end Interconnect
