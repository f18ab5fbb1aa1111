import Xlfn.Lib.Machine
import Xlfn.Lib.Table
import Xlfn.Kernel.Quota
import Xlfn.Subscription.Budget

/-!
# Xlfn — the control stream of a multiplexed source

`subscription/multiplex.rs` runs many subscriptions on one producer. The producer
learns of them through a stream of control events: a `Subscribe` when a subscription is
registered and an `Unsubscribe` when it goes. A subscription holds one permit of the
source's budget; on its removal the permit moves into the `Unsubscribe` event and is
given back when the producer reads the event.

The machine below has one step for each critical section of the shared state and for
each permit that is given back outside of it.

* A subscription is named by its place in `subscriptions`; the topic and the sender an
  event or an active entry carries are those of the subscription with that place.
* `try_reserve` on the event queue and on the active map answer through inputs.
* A `recv_timeout` looks at the state under its lock until an event is there, the source
  is closed, or its time is up.
* `stop` and `complete` take what is there out of the state and drop it outside the
  lock, one registration and one event at a time.
* `issued`, `queued`, `delivered` and `ended` are history.

`aborted` is set where the budget would be released below zero, `underflow` where the
removals counter would wrap, and `grew` where an event is pushed on a full queue.
-/

namespace Xlfn.Subscription

open Lib Kernel

namespace Multiplex

-- ---- The shared state.

inductive SourceError where
  | closing
  | overloaded
  | other
deriving DecidableEq

/-- `ControlEvent`. -/
inductive ControlEvent where
  | subscribe (id subscriber : Nat)
  | unsubscribe (id : Nat)
deriving DecidableEq

namespace ControlEvent

def id : ControlEvent → Nat
  | .subscribe id _ | .unsubscribe id => id

/-- The id of a `Subscribe`. -/
def subscribed : ControlEvent → Option Nat
  | .subscribe id _ => some id
  | .unsubscribe _ => none

def isUnsubscribe : ControlEvent → Bool
  | .subscribe _ _ => false
  | .unsubscribe _ => true

end ControlEvent

/-- `State`. `eventsCapacity` is the capacity of the event queue's storage. -/
structure State where
  events         : List ControlEvent
  eventsCapacity : Nat
  active         : Table Nat Nat
  removals       : Nat
  nextId         : Nat
  closed         : Bool
  stopping       : Bool

def State.new : State where
  events         := []
  eventsCapacity := 0
  active         := ∅
  removals       := 0
  nextId         := 0
  closed         := false
  stopping       := false

/-- `usize::checked_mul`. -/
def checkedMul (a b : Nat) : Option Nat := if a * b ≤ usizeMax then some (a * b) else none

/-- `u64::checked_add` of one. -/
def checkedNext (id : Nat) : Option Nat := if id + 1 ≤ u64Max then some (id + 1) else none

/-- `VecDeque::try_reserve`: the capacity after it, where it succeeds. `grown` is the
capacity the allocator would give. -/
def tryReserve (capacity length additional : Nat) (grown : Option Nat) : Option Nat :=
  if length + additional ≤ capacity then some capacity
  else grown.filter fun capacity => length + additional ≤ capacity

/-- The events `register` reserves storage for. -/
def State.controls (s : State) : Option Nat := do
  let used ← checkedAdd s.active.size s.removals
  let used ← checkedAdd used 1
  checkedMul used 2

-- ---- Who works on it.

/-- A `subscribe` call and the subscription it gives. `failing` and `releasing` still hold
the permit. -/
inductive SubscriptionPc where
  | attached
  | failing (error : SourceError)
  | refused (error : SourceError)
  | live (id : Nat)
  | removed (id : Nat)
  | releasing (id : Nat)
  | released (id : Nat)
deriving DecidableEq

/-- A call of `recv_timeout`. `returning` has read an `Unsubscribe` and still holds its
permit. -/
inductive RecvPc where
  | waiting
  | returning (id : Nat)
  | returned (event : Option ControlEvent)
  | failed
deriving DecidableEq

/-- What becomes of a registration the source still had when it closed. -/
inductive Ending where
  | cancelled
  | completed (error : Option SourceError)
deriving DecidableEq

/-- A call of `stop` or `complete` after its critical section. -/
structure Closer where
  ending : Ending
  active : List Nat
  events : List ControlEvent

structure MultiplexedSource where
  permits       : Nat
  state         : State
  subscriptions : List SubscriptionPc
  receivers     : List RecvPc
  closers       : List Closer
  aborted       : Bool
  underflow     : Bool
  grew          : Bool
  issued        : List Nat
  queued        : List ControlEvent
  delivered     : List ControlEvent
  ended         : List (Nat × Ending)
  reports       : List SourceError

namespace MultiplexedSource

def new : MultiplexedSource where
  permits       := 0
  state         := .new
  subscriptions := []
  receivers     := []
  closers       := []
  aborted       := false
  underflow     := false
  grew          := false
  issued        := []
  queued        := []
  delivered     := []
  ended         := []
  reports       := []

/-- The allocator's answers to a `register`. -/
structure Input where
  grown    : Option Nat
  reserved : Bool

inductive Action where
  | attach
  | abandon (sub : Nat) (error : SourceError)
  | register (sub : Nat) (input : Input)
  | unregister (sub : Nat)
  | drop (sub : Nat)
  | recv
  | poll (receiver : Nat) (timedOut : Bool)
  | giveBack (receiver : Nat)
  | stop
  | complete (error : Option SourceError)
  | terminate (closer : Nat)
  | discard (closer : Nat)

section

variable (p : MultiplexedSource)

def goto (sub : Nat) (pc : SubscriptionPc) : MultiplexedSource :=
  { p with subscriptions := p.subscriptions.set sub pc }

/-- `SubscriptionPermit::drop`. -/
def release : MultiplexedSource :=
  match checkedSub p.permits 1 with
  | none => { p with aborted := true }
  | some permits => { p with permits }

/-- `push_back` on the event queue. -/
def push (event : ControlEvent) : MultiplexedSource :=
  { p with
    state  := { p.state with events := p.state.events ++ [event] }
    grew   := p.grew || p.state.eventsCapacity ≤ p.state.events.length
    queued := p.queued ++ [event] }

/-- `register` once the storage is there: the registration becomes visible. -/
def enroll (sub id : Nat) : MultiplexedSource :=
  ({ p with
      state  := { p.state with nextId := id, active := p.state.active.insert id sub }
      issued := p.issued ++ [id] }.push (.subscribe id sub)).goto sub (.live id)

/-- `Shared::register`. -/
def register (sub : Nat) (input : Input) : MultiplexedSource :=
  if p.state.closed then
    p.goto sub (.failing .closing)
  else
    match checkedNext p.state.nextId, p.state.controls with
    | some id, some controls =>
      let additional := controls - p.state.events.length
      match tryReserve p.state.eventsCapacity p.state.events.length additional input.grown with
      | some eventsCapacity =>
        let p := { p with state := { p.state with eventsCapacity } }
        if input.reserved then p.enroll sub id else p.goto sub (.failing .overloaded)
      | none => p.goto sub (.failing .overloaded)
    | _, _ => p.goto sub (.failing .overloaded)

/-- `Shared::unregister`. -/
def unregister (sub id : Nat) : MultiplexedSource :=
  let p := { p with state := { p.state with active := p.state.active.erase id } }
  if p.state.closed then
    p.goto sub (.releasing id)
  else
    ({ p with state := { p.state with removals := p.state.removals + 1 } }.push
      (.unsubscribe id)).goto sub (.removed id)

/-- The step of `recv_timeout` under the lock. -/
def poll (receiver : Nat) (timedOut : Bool) : Option MultiplexedSource :=
  if p.state.closed then
    some { p with receivers := p.receivers.set receiver .failed }
  else
    match p.state.events with
    | [] =>
      if timedOut then some { p with receivers := p.receivers.set receiver (.returned none) }
      else none
    | .subscribe id sub :: events =>
      some { p with
        state     := { p.state with events }
        receivers := p.receivers.set receiver (.returned (some (.subscribe id sub)))
        delivered := p.delivered ++ [.subscribe id sub] }
    | .unsubscribe id :: events =>
      match checkedSub p.state.removals 1 with
      | none => some { p with underflow := true }
      | some removals =>
        some { p with
          state     := { p.state with events, removals }
          receivers := p.receivers.set receiver (.returning id)
          delivered := p.delivered ++ [.unsubscribe id] }

/-- The critical section of `stop` and `complete`. -/
def close (ending : Ending) (stopping : Bool) : MultiplexedSource :=
  { p with
    state   := { p.state with
      closed         := true
      stopping       := p.state.stopping || stopping
      removals       := 0
      active         := ∅
      events         := []
      eventsCapacity := 0 }
    closers := p.closers ++ [⟨ending, p.state.active.keys, p.state.events⟩] }

/-- `Shared::stop`. -/
def stop : MultiplexedSource := p.close .cancelled true

/-- `Shared::complete`. An error nobody is left to see is reported, except the one a
stopped producer returns. -/
def complete (error : Option SourceError) : MultiplexedSource :=
  let p' := p.close (.completed error) false
  match error with
  | some error =>
    if p.state.active.keys.isEmpty && !(p.state.stopping && error = .closing) then
      { p' with reports := p.reports ++ [error] }
    else
      p'
  | none => p'

/-- `stop` or `complete` ends the next registration it took. -/
def terminate (closer : Nat) : Option MultiplexedSource := do
  let call ← p.closers[closer]?
  match call.active with
  | [] => none
  | id :: active =>
    some { p with
      closers := p.closers.set closer { call with active }
      ended   := p.ended ++ [(id, call.ending)] }

/-- `stop` or `complete` drops the next event it took. -/
def discard (closer : Nat) : Option MultiplexedSource := do
  let call ← p.closers[closer]?
  match call.active, call.events with
  | [], .subscribe _ _ :: events =>
    some { p with closers := p.closers.set closer { call with events } }
  | [], .unsubscribe _ :: events =>
    some { p.release with closers := p.closers.set closer { call with events } }
  | _, _ => none

/-- One step of the system. -/
def step (action : Action) : Option MultiplexedSource :=
  if p.aborted || p.underflow then
    none
  else
    match action with
    | .attach =>
      some { p with permits := p.permits + 1, subscriptions := p.subscriptions ++ [.attached] }
    | .abandon sub error =>
      if p.subscriptions[sub]? = some .attached then some (p.goto sub (.failing error)) else none
    | .register sub input =>
      if p.subscriptions[sub]? = some .attached then some (p.register sub input) else none
    | .unregister sub =>
      match p.subscriptions[sub]? with
      | some (.live id) => some (p.unregister sub id)
      | _ => none
    | .drop sub =>
      match p.subscriptions[sub]? with
      | some (.failing error) => some (p.release.goto sub (.refused error))
      | some (.releasing id) => some (p.release.goto sub (.released id))
      | _ => none
    | .recv => some { p with receivers := p.receivers ++ [.waiting] }
    | .poll receiver timedOut =>
      if p.receivers[receiver]? = some .waiting then p.poll receiver timedOut else none
    | .giveBack receiver =>
      match p.receivers[receiver]? with
      | some (.returning id) =>
        some { p.release with
          receivers := p.receivers.set receiver (.returned (some (.unsubscribe id))) }
      | _ => none
    | .stop => some p.stop
    | .complete error => some (p.complete error)
    | .terminate closer => p.terminate closer
    | .discard closer => p.discard closer

end

end MultiplexedSource

end Multiplex

end Xlfn.Subscription
