import Mathlib.Logic.Function.Basic
import Xlfn.Lib.Machine

/-!
# Xlfn — the preparation of a handle

A formula that returns a handle prepares it: it takes over a topic that is there, waits for the
call that makes it, or makes it itself. It then creates the object, binds it to a token,
inserts a provisional topic, has it observed and commits it, with user code in between. What it
made is undone by guards, in the order in which they are dropped.

* A call makes at most one marker, one binding and one publication, so all of them are known by
  the number of the call; so is the token.
* `Service.run` — one step of a call. Calls of one thread are nested, and those of others come
  between any two steps.
* `step` — the same with the end of topics and the closing of the service.

Observers are not modelled: an observer and a generation of lifetimes only select the topics
that end.
-/

namespace Xlfn.Handle

open Function

namespace Preparation

-- ---- Calls.

inductive PublishedTopicState where
  | provisional
  | live
  | stale
  | closing
deriving DecidableEq

inductive PrepareError where
  | closing
  | staleHandle
  | reentrantCall
  | topicCollision
  /-- An error of user code or of the store. -/
  | failed
deriving DecidableEq

inductive Outcome where
  | published
  | reused (token : Nat)
  | error (error : PrepareError)
  | panicked
deriving DecidableEq

def Outcome.isFailure : Outcome → Bool
  | .error _ | .panicked => true
  | _ => false

/-- What the guards do: `ProvisionalPublication` the first two, `TopicReservation` the others. -/
inductive Cleanup where
  | removeTopic
  | removeBinding
  | finishInitialization
  | complete
deriving DecidableEq

def provisional : List Cleanup := [.removeTopic, .removeBinding]

def reservation : List Cleanup := [.finishInitialization, .complete]

/-- Where `prepare_observed_object` is. -/
inductive Pc where
  | entering
  | warm
  | warmObserving (publication : Nat)
  | warmObserved (publication : Nat)
  | deciding
  | waiting (initialization : Nat)
  /-- On the condition variable. -/
  | parked (initialization : Nat)
  | existingObserving (token : Nat)
  | existingObserved (token : Nat)
  | creating
  | inserting
  | provisioning
  | checking
  | observing
  | observed
  | committing
  | committed
  | unwinding (todo : List Cleanup) (outcome : Outcome)
  | done (outcome : Outcome)
deriving DecidableEq

/-- User code runs. -/
def Pc.isUserCode : Pc → Bool
  | .warmObserving _ | .existingObserving _ | .creating | .observing => true
  | _ => false

def Pc.isDone : Pc → Bool
  | .done _ => true
  | _ => false

variable {K L : Type}

structure Call (K : Type) where
  thread     : Nat
  key        : K
  generation : Nat
  pc         : Pc

/-- `notify_all` for an initialization. -/
def Call.notify (initialization : Nat) (c : Call K) : Call K :=
  if c.pc = .parked initialization then { c with pc := .waiting initialization } else c

/-- How user code ends, and other steps that may fail. -/
inductive Choice where
  | ok
  | error
  | panic
deriving DecidableEq

def Choice.elim (choice : Choice) (ok : Pc) (failed : Outcome → Pc) : Pc :=
  match choice with
  | .ok => ok
  | .error => failed (.error .failed)
  | .panic => failed .panicked

-- ---- The topic table and the store.

/-- Where `seal` is. -/
inductive Closing where
  | none
  | admission
  | registry
  | topics
deriving DecidableEq

structure Service (K L : Type) where
  byKey         : K → Option Nat
  byLifetimeKey : L → Option K
  initializing  : K → Option Nat
  generation    : Nat
  closed        : Bool
  published     : K → Option Nat
  /-- The states of publications. -/
  states        : Nat → PublishedTopicState
  /-- `owner_done` of markers. -/
  ownerDone     : Nat → Bool
  bindings      : List Nat
  /-- The phase of the registry is `Open`. -/
  isOpen        : Bool
  /-- `prepares` lets calls in. -/
  admission     : Bool
  /-- The read domain lets readers in. -/
  reading       : Bool
  calls         : List (Call K)
  /-- The tokens of removed topics whose bindings are still to be removed. -/
  removals      : List Nat
  sealing       : Closing

variable [DecidableEq K] [DecidableEq L] (lifetimeKey : K → L)

namespace Service

def new : Service K L where
  byKey         := fun _ => none
  byLifetimeKey := fun _ => none
  initializing  := fun _ => none
  generation    := 1
  closed        := false
  published     := fun _ => none
  states        := fun _ => .provisional
  ownerDone     := fun _ => false
  bindings      := []
  isOpen        := true
  admission     := true
  reading       := true
  calls         := []
  removals      := []
  sealing       := .none

def goto (s : Service K L) (i : Nat) (c : Call K) (pc : Pc) : Service K L :=
  { s with calls := s.calls.set i { c with pc } }

inductive Decision where
  | existing (token : Nat)
  | wait (initialization : Nat)
  | begin
deriving DecidableEq

section

variable (s : Service K L)

/-- `prepare_decision`, at the lock under which it decides. -/
def prepareDecision (key : K) (owner : Nat) : Except PrepareError Decision :=
  if s.closed then .error .closing
  else
    match s.initializing key with
    | some i =>
      if (s.calls[i]?).any (·.thread = owner) then .error .reentrantCall else .ok (.wait i)
    | none =>
      match s.byKey key with
      | some token => .ok (.existing token)
      | none => .ok .begin

def isCurrent (key : K) (generation token : Nat) : Except PrepareError Unit :=
  if s.closed ∨ s.generation ≠ generation then .error .closing
  else if s.byKey key = some token then .ok ()
  else .error .staleHandle

def insertProvisional (key : K) (generation publication : Nat) :
    Except PrepareError (Service K L) :=
  if s.closed ∨ s.generation ≠ generation then .error .closing
  else if (s.byKey key).isSome ∨ (s.byLifetimeKey (lifetimeKey key)).isSome then
    .error .topicCollision
  else
    .ok { s with
      byKey         := update s.byKey key (some publication)
      byLifetimeKey := update s.byLifetimeKey (lifetimeKey key) (some key) }

def commitPublication (key : K) (generation initialization publication : Nat) :
    Except PrepareError (Service K L) :=
  if s.closed ∨ s.generation ≠ generation then .error .closing
  else if s.initializing key ≠ some initialization then .error .staleHandle
  else if s.byKey key ≠ some publication then .error .staleHandle
  else
    .ok { s with
      states       := update s.states publication .live
      published    := update s.published key (some publication)
      initializing := update s.initializing key none }

def removeTopicLocked (key : K) : Service K L :=
  match s.byKey key with
  | none => s
  | some publication =>
    { s with
      states        := update s.states publication .stale
      published     := update s.published key none
      byKey         := update s.byKey key none
      byLifetimeKey := update s.byLifetimeKey (lifetimeKey key) none }

def removeTopicIfToken (key : K) (token : Nat) : Service K L :=
  if s.byKey key = some token then s.removeTopicLocked lifetimeKey key else s

/-- `remove_and_drop`. The phase may have been read before it changed. -/
def removeBinding (token : Nat) (choice : Choice) : Service K L :=
  if choice ≠ .ok ∧ s.isOpen = false then s
  else { s with bindings := s.bindings.filter (· ≠ token) }

def finishInitialization (key : K) (initialization : Nat) : Service K L :=
  if s.initializing key = some initialization then
    { s with initializing := update s.initializing key none }
  else s

def notify (initialization : Nat) : Service K L :=
  { s with calls := s.calls.map (Call.notify initialization) }

def complete (initialization : Nat) : Service K L :=
  { s with ownerDone := update s.ownerDone initialization true }.notify initialization

-- ---- One step of a call.

def cleanup (i : Nat) (key : K) (choice : Choice) : Cleanup → Service K L
  | .removeTopic => s.removeTopicIfToken lifetimeKey key i
  | .removeBinding => s.removeBinding i choice
  | .finishInitialization => s.finishInitialization key i
  | .complete => s.complete i

/-- `prepare_warm` up to the observation. -/
def prepareWarm (key : K) : Pc :=
  if s.reading = false then .done (.error .closing)
  else
    match s.published key with
    | some p => if s.states p = .live then .warmObserving p else .deciding
    | none => .deciding

/-- The rest of it. -/
def warmOutcome (publication : Nat) : Outcome :=
  match s.states publication with
  | .live => .reused publication
  | .closing => .error .closing
  | _ => .error .staleHandle

def run (i : Nat) (c : Call K) (choice : Choice) : Option (Service K L) :=
  match c.pc with
  | .entering => some (s.goto i c (if s.admission then .warm else .done (.error .closing)))
  | .warm => some (s.goto i c (s.prepareWarm c.key))
  | .warmObserving p => some (s.goto i c (choice.elim (.warmObserved p) .done))
  | .warmObserved p => some (s.goto i c (.done (s.warmOutcome p)))
  | .deciding =>
    match s.prepareDecision c.key c.thread with
    | .error error => some (s.goto i c (.done (.error error)))
    | .ok (.wait j) => some (s.goto i c (.waiting j))
    | .ok (.existing token) =>
      some (s.goto i { c with generation := s.generation } (.existingObserving token))
    | .ok .begin =>
      some { s.goto i { c with generation := s.generation } .creating with
        initializing := update s.initializing c.key (some i) }
  | .waiting j =>
    some (s.goto i c (if s.ownerDone j ∨ s.closed then .deciding else .parked j))
  | .parked _ => none
  | .existingObserving token => some (s.goto i c (choice.elim (.existingObserved token) .done))
  | .existingObserved token =>
    some (s.goto i c (.done (match s.isCurrent c.key c.generation token with
      | .ok () => .reused token
      | .error error => .error error)))
  | .creating => some (s.goto i c (choice.elim .inserting (.unwinding reservation)))
  | .inserting =>
    match choice with
    | .ok => some { s.goto i c .provisioning with bindings := i :: s.bindings }
    | choice => some (s.goto i c (choice.elim .provisioning (.unwinding reservation)))
  | .provisioning =>
    match s.insertProvisional lifetimeKey c.key c.generation i with
    | .ok s => some (s.goto i c .checking)
    | .error error => some (s.goto i c (.unwinding (provisional ++ reservation) (.error error)))
  | .checking =>
    match s.isCurrent c.key c.generation i with
    | .ok () => some (s.goto i c .observing)
    | .error error => some (s.goto i c (.unwinding (provisional ++ reservation) (.error error)))
  | .observing =>
    some (s.goto i c (choice.elim .observed (.unwinding (provisional ++ reservation))))
  | .observed =>
    match s.isCurrent c.key c.generation i with
    | .ok () => some (s.goto i c .committing)
    | .error error => some (s.goto i c (.unwinding (provisional ++ reservation) (.error error)))
  | .committing =>
    -- `commit` has moved both guards to locals, which are dropped in reverse order.
    match s.commitPublication c.key c.generation i i with
    | .ok s => some (s.goto i c .committed)
    | .error error => some (s.goto i c (.unwinding (reservation ++ provisional) (.error error)))
  | .committed => some ((s.complete i).goto i c (.done .published))
  | .unwinding [] outcome => some (s.goto i c (.done outcome))
  | .unwinding (first :: todo) outcome =>
    some ((s.cleanup lifetimeKey i c.key choice first).goto i c (.unwinding todo outcome))
  | .done _ => none

-- ---- The service.

/-- No call of the thread, or user code of its innermost call, runs. -/
def userCode (thread : Nat) : Bool :=
  match (s.calls.filter fun c => c.thread = thread && !c.pc.isDone).getLast? with
  | none => true
  | some c => c.pc.isUserCode

/-- Call `i` is the innermost of its thread. -/
def innermost (i thread : Nat) : Bool :=
  (s.calls.drop (i + 1)).all fun c => c.thread ≠ thread || c.pc.isDone

/-- `HandleInitializationGuard::enter`, with the keys of the calls of the thread. -/
def enter (thread : Nat) (key : K) : Service K L :=
  { s with
    calls := s.calls ++ [⟨thread, key, 0,
      if s.calls.any fun c => c.thread = thread && !c.pc.isDone && c.key = key then
        .done (.error .reentrantCall)
      else .entering⟩] }

/-- A topic ends. Its binding is removed in a step of its own. -/
def removeTopic (key : K) : Service K L :=
  match s.byKey key with
  | none => s
  | some token =>
    { s.removeTopicLocked lifetimeKey key with removals := token :: s.removals }

/-- `TopicGeneration`, a `NonZeroU64`. -/
def nextGeneration (generation : Nat) : Nat :=
  if generation < 0xFFFFFFFFFFFFFFFF then generation + 1 else generation

/-- `close` of the topic table. -/
def close : Service K L :=
  { s with
    closed        := true
    generation    := nextGeneration s.generation
    published     := fun _ => none
    states        := fun i =>
      if (s.calls[i]?).any fun c => s.byKey c.key = some i then .closing else s.states i
    byKey         := fun _ => none
    byLifetimeKey := fun _ => none
    initializing  := fun _ => none }

/-- No call is inside `prepares`. -/
def isIdle : Bool := s.calls.all fun c => c.pc.isDone || c.pc = .entering

/-- The steps of `seal`, which another `seal` may repeat. -/
def sealNext : Option (Service K L) :=
  match s.sealing with
  | .none => some { s with admission := false, sealing := .admission }
  | .admission => some { s with isOpen := false, sealing := .registry }
  | .registry => some { s.close with sealing := .topics }
  | .topics =>
    if s.isIdle then some { s with reading := false, bindings := [], sealing := .none } else none

inductive Action (K : Type) where
  | call (thread : Nat) (key : K)
  | run (i : Nat) (choice : Choice)
  | removeTopic (key : K)
  | removeBinding (token : Nat) (choice : Choice)
  | sealNext
  /-- `notify_closed` for an initialization that was there. -/
  | notifyClosed (initialization : Nat)

def step : Action K → Option (Service K L)
  | .call thread key => if s.userCode thread then some (s.enter thread key) else none
  | .run i choice => do
    let c ← s.calls[i]?
    if s.innermost i c.thread then s.run lifetimeKey i c choice else none
  | .removeTopic key => some (s.removeTopic lifetimeKey key)
  | .removeBinding token choice =>
    if token ∈ s.removals then some (s.removeBinding token choice) else none
  | .sealNext => s.sealNext
  | .notifyClosed i => if s.closed then some (s.notify i) else none

end

end Service

end Preparation

end Xlfn.Handle
