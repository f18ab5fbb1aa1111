import Xlfn.Lib.Machine
import Xlfn.Lib.Table

/-!
# Xlfn — the calculation cache and its single flights

`CalculationCache` answers a request from its resident index, or lets one of the
requests for a versioned key, the leader of its flight, compute the value for all
of them. This module is the machine of `get`, `get_or_try_insert_with`,
`get_or_try_insert_borrowed` and `clear`: each step is one access of a request or
of a clear to what they share, and the accesses of different threads interleave
freely.

* A request sits at one `Pc`; the constructors follow the source from the first
  lookup to the drop of the initialisation guard, with the unwind path of
  `LeaderGuard` beside the completed one.
* User code answers through `Input`: what `compute` returned, what the weigher
  measured, or that one of the callbacks (compute, weigher, key hashing, equality
  or cloning) unwound.
* Calls nest. A request made from inside a callback of another one runs on the
  same thread and returns before the outer one goes on, so only the last
  unfinished request of a thread moves (`running`). `ACTIVE_CACHE_INITIALIZATION_DEPTH`
  is shared with the initialisers of other caches on the thread (`elsewhere`).
* The pin word of a node and the reclamation of nodes are the subject of the pin
  protocol; here the answer of `try_acquire_pin`, together with the residency
  checks around it, is the input `pinned`. The index evicts whatever it likes when
  an entry is inserted (`evicting`).

Flights and nodes are named by their place in the order of allocation. `leader`,
`creator` and `computes` are history.
-/

namespace Xlfn.Cache

open Lib

-- ---- Keys, flights and nodes.

structure VersionedKey (K : Type) where
  epoch : Nat
  key   : K
deriving DecidableEq

/-- `FlightState`: a finished flight has the node its anchor pins, or the error. -/
inductive FlightState (E : Type) where
  | pending
  | finished (result : Except E Nat)
  | retry

/-- `LeaderGuard::drop` leaves a finished flight as it is. -/
def FlightState.abandoned {E : Type} : FlightState E → FlightState E
  | .pending => .retry
  | state => state

/-- `Flight`, with the requests that wait on `changed`. -/
structure Flight (K E : Type) where
  key     : VersionedKey K
  hash    : UInt64
  state   : FlightState E
  waiters : List Nat
  leader  : Nat

/-- `Mutex<FlightSet>`: the flights registered with one shard. -/
structure FlightShard where
  lock    : Option Nat
  entries : List Nat

def flightCoordinationShards : Nat := 32

/-- `FlightRegistry::shard_index`: both halves of the hash are folded. -/
def shardIndex (hash : UInt64) : Fin flightCoordinationShards :=
  Fin.ofNat 32 ((hash ^^^ (hash >>> 32)) &&& 31).toNat

/-- `FlightRegistry`, with every flight ever allocated. -/
structure FlightRegistry (K E : Type) where
  shards : Fin flightCoordinationShards → FlightShard
  heap   : List (Flight K E)

namespace FlightRegistry

variable {K E : Type} [DecidableEq K]

def new : FlightRegistry K E where
  shards := fun _ => ⟨none, []⟩
  heap   := []

section

variable (reg : FlightRegistry K E)

def shard (hash : UInt64) : FlightShard :=
  reg.shards (shardIndex hash)

def setShard (hash : UInt64) (shard : FlightShard) : FlightRegistry K E :=
  { reg with shards := Function.update reg.shards (shardIndex hash) shard }

def setLock (hash : UInt64) (holder : Option Nat) : FlightRegistry K E :=
  reg.setShard hash { reg.shard hash with lock := holder }

def setFlight (f : Nat) (flight : Flight K E) : FlightRegistry K E :=
  { reg with heap := reg.heap.set f flight }

/-- `FlightSet::get`: the table is searched by hash, then by key equality. -/
def get (hash : UInt64) (key : VersionedKey K) : Option Nat :=
  (reg.shard hash).entries.find? fun f =>
    reg.heap[f]?.any fun flight => flight.hash = hash ∧ flight.key = key

/-- `FlightSet::insert_unique` of a new flight; the lock is dropped with it. -/
def insertUnique (hash : UInt64) (key : VersionedKey K) (leader : Nat) : FlightRegistry K E :=
  { reg.setShard hash ⟨none, (reg.shard hash).entries ++ [reg.heap.length]⟩ with
    heap := reg.heap ++ [⟨key, hash, .pending, [], leader⟩] }

/-- `FlightSet::remove`, by identity, under the lock of the shard. -/
def remove (f : Nat) : Option (FlightRegistry K E) :=
  match reg.heap[f]? with
  | some flight =>
    if (reg.shard flight.hash).lock = none then
      some (reg.setShard flight.hash ⟨none, (reg.shard flight.hash).entries.erase f⟩)
    else none
  | none => none

end

end FlightRegistry

/-- `CacheNode`, less what the pin protocol owns. -/
structure CacheNode (K V : Type) where
  value      : V
  published  : Bool
  weight     : Nat
  generation : Nat
  creator    : Nat
  key        : VersionedKey K

-- ---- Where a request is.

/-- The places `get_at_epoch` is called from. The last one is the repeated lookup
under the lock of the shard of `hash`. -/
inductive LookupSite where
  | get
  | borrowed
  | outer
  | locked (hash : UInt64)

inductive Outcome (E : Type) where
  | lease (node : Nat)
  | absent
  | failed (error : E)
  | reentrant
  | unwound

inductive Pc (V E : Type) where
  /-- About to enter the read domain and ask the index. -/
  | lookup (site : LookupSite)
  /-- Holds a pointer the index gave under the read permit. -/
  | observed (site : LookupSite) (node : Nat)
  | reentryCheck
  | hashing
  | lockShard (hash : UInt64)
  /-- Under the lock of the shard, after the second miss. -/
  | enroll (hash : UInt64)
  /-- Still under it, after the table had no flight for the key. -/
  | register (hash : UInt64)
  | follow (flight : Nat)
  | parked (flight : Nat)
  | pin (flight node : Nat)
  | enterActive (flight : Nat)
  | takeCompute (flight : Nat)
  | compute (flight : Nat)
  | weigh (flight : Nat) (value : V)
  | allocate (flight : Nat) (value : V) (measured : Nat)
  | insertResident (flight node : Nat)
  | recheck (flight node : Nat)
  | discard (flight node : Nat)
  | complete (flight : Nat) (result : Except E Nat)
  | notify (flight : Nat) (result : Except E Nat)
  | remove (flight : Nat) (result : Except E Nat)
  | leave (result : Except E Nat)
  /-- `LeaderGuard::drop`: remove, then invite a retry, then wake. -/
  | abandonRemove (flight : Nat)
  | abandonRetry (flight : Nat)
  | abandonNotify (flight : Nat)
  | abandonLeave
  /-- An initialisation of another cache on this thread. -/
  | enterElsewhere
  | elsewhere
  | done (outcome : Outcome E)

def Pc.isDone {V E : Type} : Pc V E → Bool
  | .done _ => true
  | _ => false

structure Request (K V E : Type) where
  thread     : Nat
  /-- The key, with the epoch loaded when the request started. -/
  key        : VersionedKey K
  /-- `compute_opt.is_some()` -/
  computeOpt : Bool
  /-- How often the request ran its `compute`. -/
  computes   : Nat
  pc         : Pc V E

/-- The operations of the cache, and an initialisation of another cache on the same
thread, whose key is of no concern here. -/
inductive Operation where
  | get
  | getOrTryInsertWith
  | getOrTryInsertBorrowed
  | elsewhere

def Operation.takesCompute : Operation → Bool
  | .getOrTryInsertWith | .getOrTryInsertBorrowed => true
  | .get | .elsewhere => false

/-- The first access of each operation is the load of the generation. -/
def Operation.startPc {V E : Type} : Operation → Pc V E
  | .get => .lookup .get
  | .getOrTryInsertWith => .lookup .outer
  | .getOrTryInsertBorrowed => .lookup .borrowed
  | .elsewhere => .enterElsewhere

/-- `lease` or the error, as the leader returns it. -/
def Outcome.ofResult {E : Type} : Except E Nat → Outcome E
  | .ok node => .lease node
  | .error e => .failed e

-- ---- What the requests share.

structure CalculationCache (K V E : Type) where
  weightBudget : Nat
  /-- `CacheGeneration`, an `AtomicU64`. -/
  epoch        : Nat
  flights      : FlightRegistry K E
  index        : List (VersionedKey K × Nat)
  clearLock    : Option Nat
  nodes        : List (CacheNode K V)
  /-- `ACTIVE_CACHE_INITIALIZATION_DEPTH` of each thread. -/
  active       : Nat → Nat

namespace CalculationCache

variable {K V E : Type} [DecidableEq K]

def withWeigher (weightBudget : Nat) : CalculationCache K V E where
  weightBudget
  epoch     := 0
  flights   := .new
  index     := []
  clearLock := none
  nodes     := []
  active    := fun _ => 0

section

variable (c : CalculationCache K V E)

def withFlights (flights : FlightRegistry K E) : CalculationCache K V E :=
  { c with flights }

def setActive (thread depth : Nat) : CalculationCache K V E :=
  { c with active := Function.update c.active thread depth }

/-- `ResidentIndex::get` -/
def indexGet (key : VersionedKey K) : Option Nat :=
  (c.index.find? (·.1 = key)).map (·.2)

/-- `ResidentIndex::insert_resident`: the entry replaces the one under its key, and
the policy may drop any entries, the new one included. -/
def insertResident (key : VersionedKey K) (node : Nat)
    (evicted : List (VersionedKey K)) : CalculationCache K V E :=
  { c with index := ((key, node) :: c.index.filter (·.1 ≠ key)).filter (·.1 ∉ evicted) }

/-- `ResidentIndex::invalidate` -/
def invalidate (key : VersionedKey K) : CalculationCache K V E :=
  { c with index := c.index.filter (·.1 ≠ key) }

/-- `ResidentIndex::invalidate_before` -/
def invalidateBefore (epoch : Nat) : CalculationCache K V E :=
  { c with index := c.index.filter (epoch ≤ ·.1.epoch) }

/-- `CacheGeneration::epoch.increment()`, which wraps. -/
def increment : CalculationCache K V E :=
  { c with epoch := (c.epoch + 1) % 2 ^ 64 }

/-- `Box::new(CacheNode { .. })` by the leader of a flight for `key`. -/
def allocate (key : VersionedKey K) (value : V) (measured : Nat)
    (published : Bool) (creator : Nat) : CalculationCache K V E :=
  { c with nodes := c.nodes ++ [
      { value, published, weight := max measured 1, generation := key.epoch, creator, key }] }

end

end CalculationCache

-- ---- The accesses of a request.

namespace Request

variable {K V E : Type} [DecidableEq K]

def goto (q : Request K V E) (pc : Pc V E) : Request K V E := { q with pc }

/-- Where a request goes on when the lookup at `site` gives nothing. -/
def missed (q : Request K V E) : LookupSite → Request K V E
  | .get => q.goto (.done .absent)
  | .borrowed => q.goto (.lookup .outer)
  | .outer => q.goto .reentryCheck
  | .locked hash => q.goto (.enroll hash)

/-- Leave `get_at_epoch` for good: the shard lock of the second lookup is dropped. -/
def leaveSite (c : CalculationCache K V E) : LookupSite → CalculationCache K V E
  | .locked hash => c.withFlights (c.flights.setLock hash none)
  | _ => c

/-- `FlightState` as a follower finds it under the lock of the flight. -/
def followed (q : Request K V E) (c : CalculationCache K V E) (r f : Nat)
    (flight : Flight K E) : CalculationCache K V E × Request K V E :=
  match flight.state with
  | .pending =>
    (c.withFlights (c.flights.setFlight f { flight with waiters := r :: flight.waiters }),
      q.goto (.parked f))
  | .finished (.ok node) => (c, q.goto (.pin f node))
  | .finished (.error e) => (c, q.goto (.done (.failed e)))
  | .retry => (c, q.goto (.lookup .outer))

/-- The next access of request `r`, where user code has no say. -/
def go (flightHash : VersionedKey K → UInt64) (c : CalculationCache K V E) (r : Nat)
    (q : Request K V E) : Option (CalculationCache K V E × Request K V E) :=
  match q.pc with
  | .lookup site =>
    match c.indexGet q.key with
    | some node => some (c, q.goto (.observed site node))
    | none => some (c, q.missed site)
  | .reentryCheck =>
    if c.active q.thread = 0 then some (c, q.goto .hashing)
    else some (c, q.goto (.done .reentrant))
  | .hashing => some (c, q.goto (.lockShard (flightHash q.key)))
  | .lockShard hash =>
    if (c.flights.shard hash).lock = none then
      some (c.withFlights (c.flights.setLock hash (some r)), q.goto (.lookup (.locked hash)))
    else none
  | .enroll hash =>
    match c.flights.get hash q.key with
    | some f => some (c.withFlights (c.flights.setLock hash none), q.goto (.follow f))
    | none => some (c, q.goto (.register hash))
  | .register hash =>
    some (c.withFlights (c.flights.insertUnique hash q.key r),
      q.goto (.enterActive c.flights.heap.length))
  | .follow f => c.flights.heap[f]?.map (q.followed c r f)
  | .parked f =>
    match c.flights.heap[f]? with
    | some flight => if r ∈ flight.waiters then none else some (c, q.goto (.follow f))
    | none => none
  | .enterActive f =>
    if c.active q.thread = 0 then some (c.setActive q.thread 1, q.goto (.takeCompute f))
    else some (c, q.goto (.done .reentrant))
  | .takeCompute f =>
    if q.computeOpt then
      some (c, { q with computeOpt := false, computes := q.computes + 1, pc := .compute f })
    else some (c, q.goto (.abandonRemove f))
  | .allocate f value measured =>
    let publish : Bool :=
      c.weightBudget ≠ 0 ∧ measured ≤ c.weightBudget ∧ c.epoch = q.key.epoch
    let node := c.nodes.length
    some (c.allocate q.key value measured publish r,
      q.goto (if publish then .insertResident f node else .complete f (.ok node)))
  | .recheck f node =>
    if c.epoch ≠ q.key.epoch then some (c, q.goto (.discard f node))
    else some (c, q.goto (.complete f (.ok node)))
  | .discard f node =>
    some (c.invalidate q.key, q.goto (.complete f (.ok node)))
  | .complete f result =>
    c.flights.heap[f]?.map fun flight =>
      (c.withFlights (c.flights.setFlight f { flight with state := .finished result }),
        q.goto (.notify f result))
  | .notify f result =>
    c.flights.heap[f]?.map fun flight =>
      (c.withFlights (c.flights.setFlight f { flight with waiters := [] }),
        q.goto (.remove f result))
  | .remove f result =>
    (c.flights.remove f).map fun reg => (c.withFlights reg, q.goto (.leave result))
  | .leave result => some (c.setActive q.thread 0, q.goto (.done (.ofResult result)))
  | .abandonRemove f =>
    (c.flights.remove f).map fun reg => (c.withFlights reg, q.goto (.abandonRetry f))
  | .abandonRetry f =>
    c.flights.heap[f]?.map fun flight =>
      (c.withFlights (c.flights.setFlight f { flight with state := flight.state.abandoned }),
        q.goto (.abandonNotify f))
  | .abandonNotify f =>
    c.flights.heap[f]?.map fun flight =>
      (c.withFlights (c.flights.setFlight f { flight with waiters := [] }), q.goto .abandonLeave)
  | .abandonLeave => some (c.setActive q.thread 0, q.goto (.done .unwound))
  | .enterElsewhere =>
    if c.active q.thread = 0 then some (c.setActive q.thread 1, q.goto .elsewhere)
    else some (c, q.goto (.done .reentrant))
  | .elsewhere => some (c.setActive q.thread 0, q.goto (.done .absent))
  | _ => none

/-- The answer of `try_acquire_pin` and of the residency checks around it. -/
def pinned (c : CalculationCache K V E) (q : Request K V E) (acquired : Bool) :
    Option (CalculationCache K V E × Request K V E) :=
  match q.pc with
  | .observed site node =>
    match c.nodes[node]? with
    | some n =>
      if n.generation = q.key.epoch ∧ acquired then
        some (leaveSite c site, q.goto (.done (.lease node)))
      else some (c, q.missed site)
    | none => none
  | .pin _ node =>
    if acquired then some (c, q.goto (.done (.lease node)))
    else some (c, q.goto (.lookup .outer))
  | _ => none

/-- The callback the request is in unwinds. A leader leaves through
`LeaderGuard::drop`; the lock of a shard is dropped on the way out. -/
def unwind (c : CalculationCache K V E) (q : Request K V E) :
    Option (CalculationCache K V E × Request K V E) :=
  match q.pc with
  | .lookup site => some (leaveSite c site, q.goto (.done .unwound))
  | .hashing => some (c, q.goto (.done .unwound))
  | .enroll hash =>
    some (c.withFlights (c.flights.setLock hash none), q.goto (.done .unwound))
  | .compute f => some (c, q.goto (.abandonRemove f))
  | .weigh f _ => some (c, q.goto (.abandonRemove f))
  | .insertResident f _ => some (c, q.goto (.abandonRemove f))
  | .recheck f _ => some (c, q.goto (.abandonRemove f))
  | .discard f _ => some (c, q.goto (.abandonRemove f))
  | _ => none

end Request

/-- What the environment of a request decides. -/
inductive Input (K V E : Type) where
  | go
  | pinned (acquired : Bool)
  | returned (result : Except E V)
  | measured (weight : Nat)
  | evicting (keys : List (VersionedKey K))
  | unwind

/-- One access of request `r`. -/
def Request.access {K V E : Type} [DecidableEq K] (flightHash : VersionedKey K → UInt64)
    (c : CalculationCache K V E) (r : Nat) (q : Request K V E) :
    Input K V E → Option (CalculationCache K V E × Request K V E)
  | .go => q.go flightHash c r
  | .pinned acquired => q.pinned c acquired
  | .returned result =>
    match q.pc, result with
    | .compute f, .ok value => some (c, q.goto (.weigh f value))
    | .compute f, .error e => some (c, q.goto (.complete f (.error e)))
    | _, _ => none
  | .measured weight =>
    match q.pc with
    | .weigh f value => some (c, q.goto (.allocate f value weight))
    | _ => none
  | .evicting keys =>
    match q.pc with
    | .insertResident f node =>
      some (c.insertResident q.key node keys, q.goto (.recheck f node))
    | _ => none
  | .unwind => q.unwind c

-- ---- Clears.

/-- One call of `CalculationCache::clear` (which locks first), or the part of
`CacheRegistry::clear` for this cache (which advances the generation before
`invalidate_before` locks). -/
inductive Clear where
  | lockFirst
  | increment (locked : Bool)
  | snapshot (locked : Bool)
  | lock (epoch : Nat)
  | sweep (epoch : Nat)
  | quiesce
  | done
deriving DecidableEq

def Clear.step {K V E : Type} (c : CalculationCache K V E) (k : Nat) :
    Clear → Option (CalculationCache K V E × Clear)
  | .lockFirst =>
    if c.clearLock = none then some ({ c with clearLock := some k }, .increment true) else none
  | .increment locked => some (c.increment, .snapshot locked)
  | .snapshot true => some (c, .sweep c.epoch)
  | .snapshot false => some (c, .lock c.epoch)
  | .lock epoch =>
    if c.clearLock = none then some ({ c with clearLock := some k }, .sweep epoch) else none
  | .sweep epoch => some (c.invalidateBefore epoch, .quiesce)
  | .quiesce => some ({ c with clearLock := none }, .done)
  | .done => none

-- ---- The machine.

structure CacheSystem (K V E : Type) where
  cache    : CalculationCache K V E
  requests : List (Request K V E)
  clears   : List Clear

inductive Action (K V E : Type) where
  | start (thread : Nat) (operation : Operation) (key : K)
  | request (r : Nat) (input : Input K V E)
  | clear (throughRegistry : Bool)
  | clearStep (k : Nat)

namespace CacheSystem

variable {K V E : Type} [DecidableEq K]

def new (weightBudget : Nat) : CacheSystem K V E where
  cache    := .withWeigher weightBudget
  requests := []
  clears   := []

/-- No request that started later on the thread of `r` is unfinished. -/
def running (s : CacheSystem K V E) (r thread : Nat) : Bool :=
  (s.requests.drop (r + 1)).all fun q => q.thread ≠ thread || q.pc.isDone

def newRequest (s : CacheSystem K V E) (thread : Nat) (operation : Operation) (key : K) :
    Request K V E where
  thread
  key        := ⟨s.cache.epoch, key⟩
  computeOpt := operation.takesCompute
  computes   := 0
  pc         := operation.startPc

def step (flightHash : VersionedKey K → UInt64) (s : CacheSystem K V E) :
    Action K V E → Option (CacheSystem K V E)
  | .start thread operation key =>
    some { s with requests := s.requests ++ [s.newRequest thread operation key] }
  | .request r input =>
    match s.requests[r]? with
    | some q =>
      if s.running r q.thread then
        (q.access flightHash s.cache r input).map fun (c, q') =>
          { s with cache := c, requests := s.requests.set r q' }
      else none
    | none => none
  | .clear throughRegistry =>
    some { s with clears := s.clears ++ [if throughRegistry then .increment false else .lockFirst] }
  | .clearStep k =>
    match s.clears[k]? with
    | some clear =>
      (clear.step s.cache k).map fun (c, clear') =>
        { s with cache := c, clears := s.clears.set k clear' }
    | none => none

end CacheSystem

end Xlfn.Cache
