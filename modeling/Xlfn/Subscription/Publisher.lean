import Xlfn.Subscription.Channel

/-!
# Xlfn — the shared publisher of a generation

All channels of a generation share one `PublisherQueue` and one publisher thread
(`subscription/channel.rs`). `Channel` follows one channel; here any number of them
compete for the thread's turns.

A channel is marked `scheduled` under its state lock, and its entry in the ready queue is
pushed after that lock is released, so a call may stand between the two (`enqueuing`). A
single send even releases the state lock between the admission of its value and the
decision to schedule (`waking`). A turn takes one entry off the ready queue, publishes one
batch, and decides, again under the state lock, whether its channel goes back.

* A channel is attached in two steps, its sink first and then its scheduler, after which
  the attaching call schedules it.
* `grant` stands for the answers of the budgets and of the allocator, as in `Channel`.
* `turns` is history: the batch each completed turn gave to the sink, and whether the turn
  decided to put its channel back.
-/

namespace Xlfn.Subscription

open Xlfn.Lib

namespace Publisher

-- ---- Channels on one queue.

/-- `start_publisher`, up to its call of `schedule`. -/
inductive AttachStage where
  | created
  | sinkSet
  | attached
deriving DecidableEq

/-- A channel of the generation. `waking` counts the calls that have released the state
lock and are about to schedule the channel, `finishing` the calls of `finish` that wait for
the publication lock. -/
structure SharedChannel (V E F : Type) where
  delivery    : RtdDelivery
  state       : ChannelState V E
  attach      : AttachStage
  publication : Publication F
  waking      : Nat
  finishing   : Nat

/-- The stages of `publish_batch`. The publication lock is held from `locked` to
`failed`. -/
inductive TurnPc (V E : Type) where
  | starting
  | locked
  | taken (batch : List (Delivered V E))
  | publishing
  | failed
  | released

/-- The publisher thread. `handed` is the batch the sink was called with in this turn. -/
inductive WorkerPc (V E : Type) where
  | waiting
  | turn (channel : Nat) (pc : TurnPc V E) (handed : List (Delivered V E))
  | requeue (channel : Nat)
  | exited

structure Turn (V E : Type) where
  channel  : Nat
  handed   : List (Delivered V E)
  requeued : Bool

end Publisher

open Publisher

/-- `PublisherQueue`, its channels and its thread. -/
structure PublisherQueue (V E F : Type) where
  channels  : List (SharedChannel V E F)
  ready     : List Nat
  stopping  : Bool
  enqueuing : List Nat
  worker    : Publisher.WorkerPc V E
  turns     : List (Turn V E)

namespace Publisher

variable {V E F : Type}

def SharedChannel.new (delivery : RtdDelivery) : SharedChannel V E F where
  delivery    := delivery
  state       := .new
  attach      := .created
  publication := ⟨false, none⟩
  waking      := 0
  finishing   := 0

/-- `reserve_schedule`. -/
def SharedChannel.reserveSchedule (ch : SharedChannel V E F) : SharedChannel V E F × Bool :=
  if ch.attach = .attached then
    let (state, reserved) := ch.state.reserveSchedule
    ({ ch with state }, reserved)
  else
    (ch, false)

/-- The turn holds the publication lock. -/
def TurnPc.locks : TurnPc V E → Bool
  | .starting | .released => false
  | .locked | .taken _ | .publishing | .failed => true

/-- The publication lock of a channel is free. -/
def WorkerPc.unlocked (channel : Nat) : WorkerPc V E → Bool
  | .turn c pc _ => c ≠ channel || !pc.locks
  | .waiting | .requeue _ | .exited => true

end Publisher

namespace PublisherQueue

variable {V E F : Type}

def new : PublisherQueue V E F where
  channels  := []
  ready     := []
  stopping  := false
  enqueuing := []
  worker    := .waiting
  turns     := []

inductive Action (V E F : Type) where
  | create (delivery : RtdDelivery)
  | setSink (channel : Nat)
  | setScheduler (channel : Nat)
  | send (channel : Nat) (grant : Bool) (value : V)
  | sendBatch (channel : Nat) (grant : Bool) (values : List V)
  /-- A call that has released the state lock calls `schedule`. -/
  | wake (channel : Nat)
  /-- A call that reserved a turn pushes the channel. -/
  | enqueue (channel : Nat)
  | complete (channel : Nat) (failed : Bool) (policy : RtdProducerErrorPolicy E)
  /-- `request_cancel`, `cancel` of a sender, or the drop of the channel. -/
  | close (channel : Nat)
  | finishClose (channel : Nat)
  | finishRevoke (channel : Nat)
  | work
  /-- The sink returns; a panic of it is a failure. -/
  | sinkReturns (result : Option F)
  | stop

def update (q : PublisherQueue V E F) (channel : Nat) (ch : SharedChannel V E F) :
    PublisherQueue V E F :=
  { q with channels := q.channels.set channel ch }

/-- `PublisherQueue::push`. -/
def push (q : PublisherQueue V E F) (channel : Nat) : PublisherQueue V E F :=
  if q.stopping then q else { q with ready := q.ready ++ [channel] }

/-- `reserve_schedule` under the state lock; a call that reserved a turn still has to push
the channel. -/
def schedule (q : PublisherQueue V E F) (channel : Nat) (ch : SharedChannel V E F) :
    PublisherQueue V E F :=
  match ch.reserveSchedule with
  | (ch, true) => { (q.update channel ch) with enqueuing := q.enqueuing ++ [channel] }
  | (ch, false) => q.update channel ch

section

variable (valueBytes : V → Nat)

/-- `try_send_pending`. -/
def trySend (q : PublisherQueue V E F) (channel : Nat)
    (ch : SharedChannel V E F) (grant : Bool) (value : V) : PublisherQueue V E F :=
  match ch.state.trySendPending ch.delivery valueBytes grant value with
  | (state, .ok, wake) =>
    q.update channel { ch with state, waking := if wake then ch.waking + 1 else ch.waking }
  | _ => q

/-- `try_send_pending_batch`. -/
def trySendBatch (q : PublisherQueue V E F) (channel : Nat)
    (ch : SharedChannel V E F) (grant : Bool) : List V → PublisherQueue V E F
  | [] => q
  | first :: rest =>
    match ch.state.trySendPendingBatch ch.delivery valueBytes grant first rest with
    | (state, .ok, wasEmpty) =>
      if wasEmpty then q.schedule channel { ch with state } else q.update channel { ch with state }
    | _ => q

/-- The next section of `publish_batch`. -/
def stepTurn (q : PublisherQueue V E F) (channel : Nat)
    (ch : SharedChannel V E F) (handed : List (Delivered V E)) :
    TurnPc V E → Option (PublisherQueue V E F)
  | .starting => some { q with worker := .turn channel .locked handed }
  | .locked =>
    if ch.publication.sink then
      let (state, batch) := ch.state.takeBatch valueBytes
      some { (q.update channel { ch with state }) with worker := .turn channel (.taken batch) handed }
    else
      some { q with worker := .turn channel .released handed }
  | .taken batch => some { q with worker := .turn channel .publishing batch }
  | .publishing => none
  | .failed =>
    some { (q.update channel { ch with state := ch.state.close }) with
      worker := .turn channel .released handed }
  | .released =>
    let (ch, requeue) :=
      { ch with state := { ch.state with scheduled := false } }.reserveSchedule
    some { (q.update channel ch) with
      worker := if requeue then .requeue channel else .waiting
      turns  := q.turns ++ [⟨channel, handed, requeue⟩] }

/-- One step of `PublisherQueue::run`. -/
def work (q : PublisherQueue V E F) : Option (PublisherQueue V E F) :=
  match q.worker with
  | .waiting =>
    if q.stopping then
      some { q with worker := .exited }
    else
      match q.ready with
      | [] => none
      | channel :: ready => some { q with ready, worker := .turn channel .starting [] }
  | .turn channel pc handed => do
    let ch ← q.channels[channel]?
    q.stepTurn valueBytes channel ch handed pc
  | .requeue channel => some { (q.push channel) with worker := .waiting }
  | .exited => none

/-- The sink returns from a batch. -/
def sinkReturns (q : PublisherQueue V E F) (result : Option F) : Option (PublisherQueue V E F) :=
  match q.worker with
  | .turn channel .publishing handed => do
    let ch ← q.channels[channel]?
    match result with
    | none => some { q with worker := .turn channel .released handed }
    | some error =>
      some { (q.update channel { ch with publication := ⟨false, some error⟩ }) with
        worker := .turn channel .failed handed }
  | _ => none

/-- `PublisherQueue::stop`. -/
def stop (q : PublisherQueue V E F) : PublisherQueue V E F :=
  { q with stopping := true, ready := [] }

/-- A section of a call on one channel. -/
def stepChannel (q : PublisherQueue V E F) (channel : Nat)
    (ch : SharedChannel V E F) : Action V E F → Option (PublisherQueue V E F)
  | .setSink _ =>
    if ch.attach = .created then
      some (q.update channel { ch with attach := .sinkSet, publication := ⟨true, none⟩ })
    else
      none
  | .setScheduler _ =>
    if ch.attach = .sinkSet then
      some (q.update channel { ch with attach := .attached, waking := ch.waking + 1 })
    else
      none
  | .send _ grant value => some (q.trySend valueBytes channel ch grant value)
  | .sendBatch _ grant values => some (q.trySendBatch valueBytes channel ch grant values)
  | .wake _ =>
    if 0 < ch.waking then some (q.schedule channel { ch with waking := ch.waking - 1 }) else none
  | .complete _ failed policy =>
    some (q.update channel
      { ch with state := ch.state.producerCompleted failed policy, waking := ch.waking + 1 })
  | .close _ => some (q.update channel { ch with state := ch.state.close })
  | .finishClose _ =>
    if ch.attach = .attached then
      some (q.update channel { ch with state := ch.state.close, finishing := ch.finishing + 1 })
    else
      none
  | .finishRevoke _ =>
    if 0 < ch.finishing ∧ q.worker.unlocked channel = true then
      some (q.update channel
        { ch with publication := ⟨false, none⟩, finishing := ch.finishing - 1 })
    else
      none
  | .create _ | .enqueue _ | .work | .sinkReturns _ | .stop => none

/-- One step of the system. -/
def step (q : PublisherQueue V E F) (action : Action V E F) : Option (PublisherQueue V E F) :=
  match action with
  | .create delivery => some { q with channels := q.channels ++ [.new delivery] }
  | .enqueue channel =>
    if channel ∈ q.enqueuing then
      some ({ q with enqueuing := q.enqueuing.erase channel }.push channel)
    else
      none
  | .work => q.work valueBytes
  | .sinkReturns result => q.sinkReturns result
  | .stop => some q.stop
  | .setSink channel | .setScheduler channel | .send channel _ _ | .sendBatch channel _ _
  | .wake channel | .complete channel _ _ | .close channel | .finishClose channel
  | .finishRevoke channel => do
    let ch ← q.channels[channel]?
    q.stepChannel valueBytes channel ch action

end

end PublisherQueue

end Xlfn.Subscription
