import Xlfn.Lib.Machine
import Xlfn.Subscription.Catalog

/-!
# Xlfn — the RTD channel

`subscription/channel.rs`: the queue between the sender clones of a producer and the
shared publisher. A channel has two locks. The state lock guards the queue and its
flags; every sender, the completion of the producer, `close` and two sections of a
turn take it. The publication lock guards the sink; a turn holds it from its start
until the sink has returned, and `finish` takes it to revoke the sink. A step is one
section under the state lock, or what happens between two of them.

`V` are the stored values, `E` the Excel errors and `F` the failures of a sink. What
the budgets and the allocator answer is part of a sender's action (`grant`); the
budgets themselves are in `Budget`. The atomic copies of `accepting` and `stopping`
are written in the same sections; reading `accepting` before the lock is taken only
refuses earlier, without any effect.

The channel is attached: it has its sink and its publisher queue. The generation has
one publisher thread, so turns do not overlap. `accepted`, `handed` and `finished`
are not in the source: the values for which a send returned success, the batches the
sink was called with, and that a `finish` is past its last access to the channel.
-/

namespace Xlfn.Subscription

open Xlfn.Lib

inductive RtdDelivery where
  | fifo (capacity : NonZeroUsize)
  | latest
deriving DecidableEq

inductive RtdProducerErrorPolicy (E : Type) where
  | retainLastValue
  | publishError (error : E)
deriving DecidableEq

/-- What a send returns. A refused payload goes back to the caller. -/
inductive SendResult where
  | ok
  | full
  | closed
deriving DecidableEq

/-- A value of a batch. The terminal error is stored as any other value; the model
keeps apart where it comes from. -/
inductive Delivered (V E : Type) where
  | value (v : V)
  | terminal (error : E)
deriving DecidableEq

-- ---- The state lock.

structure ChannelState (V E : Type) where
  values        : List V
  buffered      : BufferLedger
  terminalError : Option E
  accepting     : Bool
  stopping      : Bool
  scheduled     : Bool
deriving DecidableEq

namespace ChannelState

variable {V E : Type}

def new : ChannelState V E where
  values        := []
  buffered      := ⟨0, 0⟩
  terminalError := none
  accepting     := true
  stopping      := false
  scheduled     := false

/-- `buffered.try_push` and `push_back`, once the budgets have granted it. -/
def push (state : ChannelState V E) (bytes : Nat) (value : V) : ChannelState V E :=
  { state with
    values   := state.values ++ [value]
    buffered := ⟨state.buffered.values + 1, state.buffered.bytes + bytes⟩ }

/-- `back_mut` and `resize`. -/
def replaceLast (state : ChannelState V E) (bytes : Nat) (value : V) : ChannelState V E :=
  { state with
    values   := state.values.dropLast ++ [value]
    buffered := { state.buffered with bytes := bytes } }

/-- The section of `try_send_pending`; the flag is `wake_publisher`. -/
def trySendPending (delivery : RtdDelivery) (valueBytes : V → Nat) (grant : Bool) (value : V)
    (state : ChannelState V E) : ChannelState V E × SendResult × Bool :=
  if !state.accepting then (state, .closed, false)
  else
    match delivery with
    | .latest =>
      if state.values ≠ [] then
        if valueBytes value > state.buffered.bytes ∧ !grant then (state, .full, false)
        else (state.replaceLast (valueBytes value) value, .ok, false)
      else if !grant then (state, .full, false)
      else (state.push (valueBytes value) value, .ok, true)
    | .fifo capacity =>
      if state.values.length ≥ capacity.get then (state, .full, false)
      else if !grant then (state, .full, false)
      else (state.push (valueBytes value) value, .ok, state.values = [])

/-- The section of `try_send_pending_batch` for a batch that is not empty; the flag
is `was_empty`. -/
def trySendPendingBatch (delivery : RtdDelivery) (valueBytes : V → Nat) (grant : Bool)
    (first : V) (rest : List V) (state : ChannelState V E) :
    ChannelState V E × SendResult × Bool :=
  if !state.accepting then (state, .closed, false)
  else
    match delivery with
    | .latest =>
      let last := (first :: rest).getLast (List.cons_ne_nil _ _)
      if state.values ≠ [] then
        if valueBytes last > state.buffered.bytes ∧ !grant then (state, .full, false)
        else (state.replaceLast (valueBytes last) last, .ok, false)
      else if !grant then (state, .full, false)
      else (state.push (valueBytes last) last, .ok, true)
    | .fifo capacity =>
      let batch := first :: rest
      if state.values.length + batch.length > capacity.get then (state, .full, false)
      else if !grant then (state, .full, false)
      else
        ({ state with
            values   := state.values ++ batch
            buffered := ⟨state.buffered.values + batch.length,
              state.buffered.bytes + (batch.map valueBytes).sum⟩ }, .ok, state.values = [])

/-- `reserve_schedule`. -/
def reserveSchedule (state : ChannelState V E) : ChannelState V E × Bool :=
  if state.stopping || state.scheduled || (state.values.isEmpty && state.terminalError.isNone) then
    (state, false)
  else ({ state with scheduled := true }, true)

/-- The loop of `publish_batch`, with the batch so far. -/
def takeLoop : Nat → ChannelState V E → List (Delivered V E) →
    ChannelState V E × List (Delivered V E)
  | 0, state, batch => (state, batch)
  | n + 1, state, batch =>
    match state.values with
    | value :: values => takeLoop n { state with values := values } (batch ++ [.value value])
    | [] =>
      match state.terminalError with
      | some error =>
        takeLoop n { state with terminalError := none } (batch ++ [.terminal error])
      | none => (state, batch)

/-- The section of `publish_batch` that takes the batch and splits the ledger. -/
def takeBatch (valueBytes : V → Nat) (state : ChannelState V E) :
    ChannelState V E × List (Delivered V E) :=
  if state.stopping then (state, [])
  else
    let (taken, batch) := takeLoop 32 state []
    let values := state.values.take (state.values.length - taken.values.length)
    ({ taken with
        buffered := ⟨state.buffered.values - values.length,
          state.buffered.bytes - (values.map valueBytes).sum⟩ }, batch)

/-- The section of `producer_completed`. -/
def producerCompleted (failed : Bool) (policy : RtdProducerErrorPolicy E)
    (state : ChannelState V E) : ChannelState V E :=
  match policy with
  | .publishError error =>
    if failed && !state.stopping then
      { state with accepting := false, terminalError := some error }
    else { state with accepting := false }
  | .retainLastValue => { state with accepting := false }

def close (state : ChannelState V E) : ChannelState V E :=
  { state with
    values        := []
    buffered      := ⟨0, 0⟩
    terminalError := none
    accepting     := false
    stopping      := true }

end ChannelState

-- ---- The machine.

/-- Where the publisher's turn is. It holds the publication lock in all stages but
the last. -/
inductive TurnStage (V E : Type) where
  | locked
  /-- The batch is out of the queue and the sink is about to be called. -/
  | taken (batch : List (Delivered V E))
  | publishing
  /-- The sink failed and is revoked; the channel is about to be closed. -/
  | failed
  | released
deriving DecidableEq

/-- `Publication`; the flag is that there is a sink. -/
structure Publication (F : Type) where
  sink   : Bool
  result : Option F
deriving DecidableEq

structure Channel (V E F : Type) where
  state       : ChannelState V E
  publication : Publication F
  /-- Calls that have released the state lock and are about to schedule the channel. -/
  waking      : Nat
  /-- The entries of this channel in the publisher's queue. -/
  ready       : Nat
  turn        : Option (TurnStage V E)
  /-- Calls of `finish` that have closed the channel and wait for the publication lock. -/
  finishing   : Nat
  completed   : Bool
  accepted    : List V
  handed      : List (List (Delivered V E))
  finished    : Bool
deriving DecidableEq

namespace Channel

variable {V E F : Type}

def new : Channel V E F where
  state       := .new
  publication := ⟨true, none⟩
  waking      := 0
  ready       := 0
  turn        := none
  finishing   := 0
  completed   := false
  accepted    := []
  handed      := []
  finished    := false

/-- `schedule`. -/
def schedule (c : Channel V E F) : Channel V E F :=
  match c.state.reserveSchedule with
  | (state, true) => { c with state := state, ready := c.ready + 1 }
  | (_, false) => c

/-- A send that returns success. -/
def accept (c : Channel V E F) (state : ChannelState V E) (values : List V) : Channel V E F :=
  { c with state := state, accepted := c.accepted ++ values }

/-- `try_send_pending`; scheduling is a section of its own. -/
def trySend (delivery : RtdDelivery) (valueBytes : V → Nat) (c : Channel V E F) (grant : Bool)
    (value : V) : Channel V E F :=
  match c.state.trySendPending delivery valueBytes grant value with
  | (state, .ok, wake) =>
    let c := c.accept state [value]
    if wake then { c with waking := c.waking + 1 } else c
  | _ => c

/-- `try_send_pending_batch`; scheduling is part of the section. -/
def trySendBatch (delivery : RtdDelivery) (valueBytes : V → Nat) (c : Channel V E F)
    (grant : Bool) : List V → Channel V E F
  | [] => c
  | first :: rest =>
    match c.state.trySendPendingBatch delivery valueBytes grant first rest with
    | (state, .ok, wasEmpty) =>
      let c := c.accept state (first :: rest)
      if wasEmpty then c.schedule else c
    | _ => c

/-- The publication lock is free. -/
def unlocked (c : Channel V E F) : Bool :=
  match c.turn with
  | none => true
  | some .released => true
  | _ => false

inductive Action (V E F : Type) where
  | send (grant : Bool) (value : V)
  | sendBatch (grant : Bool) (values : List V)
  /-- A call that has released the state lock schedules the channel. -/
  | schedule
  /-- The publisher takes the channel from its queue and locks its publication. -/
  | beginTurn
  | turn
  /-- The sink returns; a panic of it is a failure. -/
  | sinkReturns (result : Option F)
  /-- The producer is over. Its owner says so once. -/
  | complete (failed : Bool) (policy : RtdProducerErrorPolicy E)
  /-- `request_cancel`, `cancel` of a sender, or the drop of the channel. -/
  | close
  /-- `finish` up to the publication lock. -/
  | finishClose
  /-- `finish` under the publication lock. -/
  | finishRevoke
deriving DecidableEq

/-- The next section of a turn. -/
def stepTurn (valueBytes : V → Nat) (c : Channel V E F) : TurnStage V E → Option (Channel V E F)
  | .locked =>
    if c.publication.sink then
      let (state, batch) := c.state.takeBatch valueBytes
      some { c with state := state, turn := some (.taken batch) }
    else some { c with turn := some .released }
  | .taken batch => some { c with handed := c.handed ++ [batch], turn := some .publishing }
  | .publishing => none
  | .failed => some { c with state := c.state.close, turn := some .released }
  | .released =>
    some { c with state := { c.state with scheduled := false }, turn := none }.schedule

def step (delivery : RtdDelivery) (valueBytes : V → Nat) (c : Channel V E F) :
    Action V E F → Option (Channel V E F)
  | .send grant value => some (c.trySend delivery valueBytes grant value)
  | .sendBatch grant values => some (c.trySendBatch delivery valueBytes grant values)
  | .schedule =>
    if c.waking ≠ 0 then some { c with waking := c.waking - 1 }.schedule else none
  | .beginTurn =>
    if c.ready ≠ 0 ∧ c.turn.isNone then
      some { c with ready := c.ready - 1, turn := some .locked }
    else none
  | .turn =>
    match c.turn with
    | some stage => c.stepTurn valueBytes stage
    | none => none
  | .sinkReturns result =>
    match c.turn with
    | some .publishing =>
      match result with
      | none => some { c with turn := some .released }
      | some error => some { c with publication := ⟨false, some error⟩, turn := some .failed }
    | _ => none
  | .complete failed policy =>
    if c.completed then none
    else
      some { c with
        state     := c.state.producerCompleted failed policy
        waking    := c.waking + 1
        completed := true }
  | .close => some { c with state := c.state.close }
  | .finishClose => some { c with state := c.state.close, finishing := c.finishing + 1 }
  | .finishRevoke =>
    if c.finishing ≠ 0 ∧ c.unlocked then
      some { c with
        publication := ⟨false, none⟩
        finishing   := c.finishing - 1
        finished    := true }
    else none

end Channel

end Xlfn.Subscription
