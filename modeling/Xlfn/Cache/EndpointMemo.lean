import Xlfn.Lib.Machine
import Xlfn.Lib.Table
import Xlfn.Kernel.Quota

/-!
# Xlfn — endpoint resolution and its thread-local memo

`CacheRegistry::resolve_cache` and `cache/endpoint_cache.rs`. A registry owns one boxed cache for
each endpoint; every thread memoizes the pointers it resolved, keyed on the identity of the registry.
The memo does not own what it points to and is never told that a registry is gone.

* Registries live at addresses (`slot`) that are used again after a move or a drop; so are the
  addresses of the boxed caches. Identities come from a counter that stops the process before it
  would wrap.
* A resolution that the memo does not answer goes on in steps, and resolutions of other threads and
  the life of other registries interleave with them. While it runs it borrows its registry.
* `set_index` hashes standard metadata; the hash is a parameter.
* Reading a box that was freed gives `dangling`.
-/

namespace Xlfn.Cache.Endpoint

open Xlfn.Lib Xlfn.Kernel

variable {T W : Type}

-- ---- Endpoints and the memo.

/-- A `&'static str`: equal strings may sit at different addresses. -/
structure StaticStr where
  address : Nat
  content : String

/-- `CacheEndpoint`. The type identifies `(Marker, K, V)`; a weigher is a function pointer. -/
structure CacheEndpoint (T W : Type) where
  typeId  : T
  id      : StaticStr
  weigher : Option W

/-- `CacheEndpoint::key`. Strings compare by content. -/
def CacheEndpoint.key (endpoint : CacheEndpoint T W) : T × String :=
  (endpoint.typeId, endpoint.id.content)

structure ResolvedEndpoint (T : Type) where
  registry : Nat
  key      : T × String
  pointer  : Nat

def setCount : Nat := 32

def ways : Nat := 2

/-- `EndpointCache`, the memo of one thread. -/
structure EndpointCache (T : Type) where
  sets    : Fin setCount → Fin ways → Option (ResolvedEndpoint T)
  victims : Fin setCount → Fin ways

/-- `EndpointCache::new`. -/
def EndpointCache.new : EndpointCache T where
  sets    := fun _ _ => none
  victims := fun _ => ⟨0, Nat.two_pos⟩

/-- The hasher of `set_index`, fed with the type, the identity, and the address and length of the
string. -/
abbrev SetHash (T : Type) := T → Nat → Nat → Nat → Nat

variable [DecidableEq T] [DecidableEq W] (hash : SetHash T)

/-- `set_index`. -/
def setIndex (registry : Nat) (endpoint : CacheEndpoint T W) : Fin setCount :=
  ⟨hash endpoint.typeId registry endpoint.id.address endpoint.id.content.utf8ByteSize % setCount,
    Nat.mod_lt _ (Nat.zero_lt_succ 31)⟩

/-- An entry answers for its registry and its whole key. -/
def ResolvedEndpoint.answer (entry : ResolvedEndpoint T) (registry : Nat) (key : T × String) :
    Option Nat :=
  if entry.registry = registry ∧ entry.key = key then some entry.pointer else none

/-- `EndpointCache::lookup`. -/
def EndpointCache.lookup (memo : EndpointCache T) (registry : Nat) (endpoint : CacheEndpoint T W) :
    Option Nat :=
  (List.finRange ways).findSome? fun way =>
    (memo.sets (setIndex hash registry endpoint) way).bind (·.answer registry endpoint.key)

/-- `EndpointCache::remember`: the ways of a set are replaced in turn. -/
def EndpointCache.remember (memo : EndpointCache T) (registry : Nat) (endpoint : CacheEndpoint T W)
    (pointer : Nat) : EndpointCache T :=
  let index := setIndex hash registry endpoint
  let victim := memo.victims index
  { sets    := Function.update memo.sets index
      (Function.update (memo.sets index) victim (some ⟨registry, endpoint.key, pointer⟩))
    victims := Function.update memo.victims index
      ⟨(victim.val + 1) % ways, Nat.mod_lt _ Nat.two_pos⟩ }

-- ---- Registries.

/-- A boxed `StoredCache`, as far as resolution reads it. -/
structure StoredCache (T W : Type) where
  typeId  : T
  weigher : Option W

/-- `CacheRegistry`: its map from keys to boxes, and the holder of `insertions`. -/
structure CacheRegistry (T : Type) where
  identity   : Nat
  caches     : Table (T × String) Nat
  insertions : Option Nat

/-- The registry owns the box at an address. -/
def CacheRegistry.owns (registry : CacheRegistry T) (pointer : Nat) : Bool :=
  registry.caches.entries.any fun entry => entry.2 == pointer

inductive ResolveError
  | cacheType
  | weigherConflict
  | dangling
deriving DecidableEq

abbrev Heap (T W : Type) := Nat → Option (StoredCache T W)

/-- `downcast_cache`. -/
def downcastCache (heap : Heap T W) (endpoint : CacheEndpoint T W) (pointer : Nat) :
    Except ResolveError Nat :=
  match heap pointer with
  | none => .error .dangling
  | some stored => if stored.typeId = endpoint.typeId then .ok pointer else .error .cacheType

/-- `check_weigher`. -/
def checkWeigher (heap : Heap T W) (endpoint : CacheEndpoint T W) (pointer : Nat) :
    Except ResolveError Nat :=
  match heap pointer with
  | none => .error .dangling
  | some stored =>
    if endpoint.weigher = stored.weigher then .ok pointer else .error .weigherConflict

/-- What `resolve_cache_uncached`, then `check_weigher`, gives for an endpoint the registry has;
`none` for one it would have to create. -/
def CacheRegistry.resolveUncached (registry : CacheRegistry T) (heap : Heap T W)
    (endpoint : CacheEndpoint T W) : Option (Except ResolveError Nat) :=
  (registry.caches.lookup endpoint.key).map fun pointer =>
    match downcastCache heap endpoint pointer with
    | .ok pointer => checkWeigher heap endpoint pointer
    | .error error => .error error

-- ---- The system.

/-- Where a resolution the memo did not answer stands. -/
inductive Stage
  /-- Before the read of the map. -/
  | probing
  /-- Not found; before `insertions` is taken. -/
  | locking
  /-- Holding `insertions`; before its box is allocated. -/
  | allocating
  /-- Before `get_or_insert` of its own box. -/
  | inserting (box : Nat)
  /-- Resolved; before `remember`. -/
  | resolved (pointer : Nat)

structure Call (T W : Type) where
  slot     : Nat
  endpoint : CacheEndpoint T W
  stage    : Stage

/-- A resolution that returned. -/
structure Returned (T W : Type) where
  thread   : Nat
  slot     : Nat
  endpoint : CacheEndpoint T W
  result   : Except ResolveError Nat

structure System (T W : Type) where
  nextIdentity : Nat
  stopped      : Bool
  registries   : Nat → Option (CacheRegistry T)
  heap         : Heap T W
  memos        : Nat → Option (EndpointCache T)
  calls        : Table Nat (Call T W)
  returned     : List (Returned T W)

/-- Nothing has run; `NEXT_REGISTRY_IDENTITY` starts at one. -/
def System.init : System T W where
  nextIdentity := 1
  stopped      := false
  registries   := fun _ => none
  heap         := fun _ => none
  memos        := fun _ => none
  calls        := ∅
  returned     := []

inductive Action (T W : Type)
  /-- `CacheRegistry::new`, its value placed at `slot`. -/
  | create (slot : Nat)
  /-- The value of a registry moves. -/
  | move (source target : Nat)
  | drop (slot : Nat)
  /-- `clear`, its snapshot under `insertions`. -/
  | clear (slot : Nat)
  /-- A thread begins to have a memo. -/
  | spawn (thread : Nat)
  /-- The memo of a thread is torn down. -/
  | teardown (thread : Nat)
  /-- `resolve_cache`, up to the answer of the memo. -/
  | resolve (thread slot : Nat) (endpoint : CacheEndpoint T W)
  /-- The next step of a resolution; a box is allocated at `address`. -/
  | advance (thread address : Nat)

namespace System

variable (s : System T W)

/-- Somebody is resolving through the registry at `slot`. -/
def borrowed (slot : Nat) : Bool := s.calls.entries.any fun call => call.2.slot == slot

def setRegistry (slot : Nat) (registry : CacheRegistry T) : System T W :=
  { s with registries := Function.update s.registries slot (some registry) }

def setStage (thread : Nat) (call : Call T W) (stage : Stage) : System T W :=
  { s with calls := s.calls.insert thread { call with stage } }

/-- The end of a resolution. -/
def complete (thread : Nat) (call : Call T W) (result : Except ResolveError Nat) : System T W :=
  { s with calls    := s.calls.erase thread
           returned := ⟨thread, call.slot, call.endpoint, result⟩ :: s.returned }

/-- `CacheRegistry::new`. -/
def stepCreate (slot : Nat) : Option (System T W) :=
  match s.registries slot with
  | some _ => none
  | none =>
    match checkedIncrement s.nextIdentity with
    | none => some { s with stopped := true }
    | some next =>
      some <| { s with nextIdentity := next }.setRegistry slot ⟨s.nextIdentity, ∅, none⟩

/-- A move needs the registry unborrowed. -/
def stepMove (source target : Nat) : Option (System T W) :=
  match s.registries source, s.registries target with
  | some registry, none =>
    if s.borrowed source then none
    else
      some { s with registries := Function.update (Function.update s.registries source none) target
                      (some registry) }
  | _, _ => none

/-- Dropping a registry drops its boxes. -/
def stepDrop (slot : Nat) : Option (System T W) :=
  match s.registries slot with
  | none => none
  | some registry =>
    if s.borrowed slot then none
    else
      some { s with registries := Function.update s.registries slot none
                    heap       := fun p => if registry.owns p then none else s.heap p }

/-- `clear` keeps every entry of the map. -/
def stepClear (slot : Nat) : Option (System T W) :=
  match s.registries slot with
  | none => none
  | some registry => if registry.insertions.isSome then none else some s

/-- The memo answers, or the resolution goes on without it. -/
def stepResolve (thread slot : Nat) (endpoint : CacheEndpoint T W) : Option (System T W) :=
  match s.registries slot, s.calls.lookup thread with
  | some registry, none =>
    let call := ⟨slot, endpoint, .probing⟩
    match (s.memos thread).bind (·.lookup hash registry.identity endpoint) with
    | some pointer => some (s.complete thread call (checkWeigher s.heap endpoint pointer))
    | none => some { s with calls := s.calls.insert thread call }
  | _, _ => none

/-- What `downcast_cache` does with the entry that was found or inserted. -/
def found (thread : Nat) (call : Call T W) (pointer : Nat) : System T W :=
  match downcastCache s.heap call.endpoint pointer with
  | .ok pointer => s.setStage thread call (.resolved pointer)
  | .error error => s.complete thread call (.error error)

/-- `get_or_insert`: an entry that is there wins, and the box is dropped. The lock is released. -/
def publish (thread : Nat) (call : Call T W) (registry : CacheRegistry T) (box : Nat) :
    System T W :=
  match registry.caches.lookup call.endpoint.key with
  | some pointer =>
    { s.setRegistry call.slot { registry with insertions := none } with
      heap := Function.update s.heap box none }.found thread call pointer
  | none =>
    (s.setRegistry call.slot
      { registry with caches := registry.caches.insert call.endpoint.key box
                      insertions := none }).found thread call box

/-- `remember`, unless the memo is torn down, then `check_weigher`. -/
def finish (thread : Nat) (call : Call T W) (registry : CacheRegistry T) (pointer : Nat) :
    System T W :=
  let memo := (s.memos thread).map fun memo =>
    memo.remember hash registry.identity call.endpoint pointer
  { s with memos := Function.update s.memos thread memo }.complete thread call
    (checkWeigher s.heap call.endpoint pointer)

/-- The next step of a resolution that the memo did not answer. -/
def stepAdvance (thread address : Nat) : Option (System T W) := do
  let call ← s.calls.lookup thread
  let registry ← s.registries call.slot
  match call.stage with
  | .probing =>
    match registry.caches.lookup call.endpoint.key with
    | some pointer => some (s.found thread call pointer)
    | none => some (s.setStage thread call .locking)
  | .locking =>
    match registry.insertions with
    | some _ => none
    | none =>
      some ((s.setRegistry call.slot { registry with insertions := some thread }).setStage thread
        call .allocating)
  | .allocating =>
    match s.heap address with
    | some _ => none
    | none =>
      some ({ s with heap := Function.update s.heap address
                      (some ⟨call.endpoint.typeId, call.endpoint.weigher⟩) }.setStage thread call
        (.inserting address))
  | .inserting box => some (s.publish thread call registry box)
  | .resolved pointer => some (finish hash s thread call registry pointer)

/-- One step, of a process that has not stopped. -/
def step (action : Action T W) : Option (System T W) :=
  if s.stopped then none
  else
    match action with
    | .create slot => s.stepCreate slot
    | .move source target => s.stepMove source target
    | .drop slot => s.stepDrop slot
    | .clear slot => s.stepClear slot
    | .spawn thread =>
      some { s with memos := Function.update s.memos thread (some .new) }
    | .teardown thread => some { s with memos := Function.update s.memos thread none }
    | .resolve thread slot endpoint => stepResolve hash s thread slot endpoint
    | .advance thread address => stepAdvance hash s thread address

end System

end Xlfn.Cache.Endpoint
