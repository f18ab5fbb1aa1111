import Xlfn.Lib.Machine
import Xlfn.Subscription.Notification

/-!
# Xlfn — interleavings of the subscription data plane

One server's data plane as a machine whose actions are the atomic steps of the
source: a shard critical section, a refresh-lock section, or one access to an
atomic. Any number of threads are in the middle of an operation at once; an
operation that is admitted through the server gate is an entry of `operations`
under an arbitrary number, and the one refresh that can be out is `batch`.

* `publish` and `publish_batch` load the epoch, take the shard lock and check the
  epoch again before they commit; a refresh may rotate the epoch in between and
  even while the shard lock is held, so loading, locking and committing are
  separate actions and the lock is part of the state.
* `commit_connection` likewise reads the epoch under the lock before it commits.
* `begin_termination` is a sequence of actions: gate, lifecycle, notifier, one
  shard after the other, then each of the three counters.
* Other servers of the runtime share the quotas and the generation counter; their
  use of them is an action too.

`history` and the two counts inside `Termination` are ghosts: no step reads them.
-/

namespace Xlfn.Subscription

open Xlfn.Lib Xlfn.Kernel

-- ---- Operations in progress.

/-- The capability a source publishes through. -/
structure PublishSink where
  topicId              : TopicId
  connectionGeneration : ConnectionGeneration

/-- One connection transaction: topic, subscription and its own generation. -/
structure Connection where
  topicId    : TopicId
  id         : SubscriptionId
  generation : ConnectionGeneration

/-- Progress of one value through the retry loop of `publish`. -/
inductive PublishStage
  | entered
  | loaded (epoch : Nat)
  | locked (epoch : Nat)

/-- Progress of a connection transaction. -/
inductive ConnectionStage (N : Type)
  | catalogReserved
  | publishReserved
  | installed (observed : Option Nat)
  | committing (observed : Option Nat) (epoch : Nat)
  | finishing (attempt : Option (NotificationAttempt N))
  | rollingBack

/-- What an operation goes on with after its notification. -/
inductive Continuation (V : Type)
  | done
  | batch (sink : PublishSink) (rest : List V)
  | connection (connection : Connection)

/-- An operation that runs a single refresh-lock section after `ensure_open`. -/
inductive Request (N : Type)
  | attach (notifier : N)
  | pulse
  | planRefresh

/-- An operation admitted through the server gate. -/
inductive Operation (V N : Type)
  | publish (sink : PublishSink) (value : V) (stage : PublishStage)
  | publishBatch (sink : PublishSink) (value : V) (rest : List V) (stage : PublishStage)
  | notifying (epoch : Nat) (after : Continuation V)
  | notifyingSlow (after : Continuation V)
  | driving (attempt : NotificationAttempt N) (after : Continuation V)
  | connecting (connection : Connection) (stage : ConnectionStage N)
  | request (request : Request N)

/-- Collection visits the remaining candidate shards; completion gives the
updates back one by one. -/
inductive BatchStage
  | collecting (remaining : List ShardIndex)
  | completing (outcome : RefreshOutcome) (ticketError : Bool)

/-- `PlannedRtdRefresh` and `RtdRefreshBatch`. -/
structure RefreshBatch (V : Type) where
  plan    : RefreshPlan
  updates : List (RtdUpdate V)
  stage   : BatchStage

/-- Progress of termination. The counts are the entries `clear_pending` has taken
out of the shards and not yet out of the shared counters. -/
inductive Termination
  | idle
  | gateClosed
  | lifecycleStored
  | clearing (next : Nat) (clearedPending clearedDeliverable : Nat)
  | resettingDeliverable (clearedDeliverable : Nat)
  | resettingReady
  | waiting
  | finished

/-- An update as the history remembers it. -/
structure UpdateRecord where
  topicId    : TopicId
  generation : ConnectionGeneration
  sequence   : Nat
deriving DecidableEq

/-- What has happened, newest first. -/
structure History where
  accepted  : List UpdateRecord
  observed  : List UpdateRecord
  delivered : List UpdateRecord

/-- An accepted publication is remembered. -/
def History.accept (history : History) (sink : PublishSink) : CommitOutcome → History
  | .accepted sequence _ => { history with
      accepted := ⟨sink.topicId, sink.connectionGeneration, sequence⟩ :: history.accepted }
  | _ => history

/-- The value a committed connection has observed is remembered. -/
def History.observe (history : History) (connection : Connection) :
    Except XllError Bool → Option Nat → History
  | .ok _, some sequence => { history with
      observed := ⟨connection.topicId, connection.generation, sequence⟩ :: history.observed }
  | _, _ => history

/-- An update that was completed as delivered is remembered. -/
def History.deliver {V : Type} (history : History) (update : RtdUpdate V) : RefreshOutcome → History
  | .delivered => { history with
      delivered := ⟨update.topicId, update.connectionGeneration, update.sequence⟩ ::
        history.delivered }
  | .failed => history

structure State (V N : Type) where
  core           : PublishCore V N
  gateOpen       : Bool
  operations     : Table Nat (Operation V N)
  lockOwner      : ShardIndex → Option Nat
  batch          : Option (RefreshBatch V)
  termination    : Termination
  nextGeneration : Nat
  foreignActive  : Nat
  foreignQueued  : Nat
  history        : History
  aborted        : Bool

/-- A fresh server of a runtime whose other servers hold the given permits. -/
def State.init {V N : Type} (activeQuota queuedUpdateQuota : Quota) (nextGeneration : Nat) :
    State V N where
  core           := PublishCore.new activeQuota queuedUpdateQuota
  gateOpen       := true
  operations     := ∅
  lockOwner      := fun _ => none
  batch          := none
  termination    := .idle
  nextGeneration := nextGeneration
  foreignActive  := activeQuota.used
  foreignQueued  := queuedUpdateQuota.used
  history        := ⟨[], [], []⟩
  aborted        := false

/-- How a choice the model does not decide turns out: the ordinary way, the other
way (the channel is stopping, the catalog refuses, the host's notifier returns an
error, the caller drops its transaction), or an unwind out of the notifier. -/
inductive Choice
  | proceed
  | refuse
  | unwind
deriving DecidableEq

inductive Action (V N : Type)
  | enterPublish (op : Nat) (sink : PublishSink) (value : V)
  | enterPublishBatch (op : Nat) (sink : PublishSink) (value : V) (rest : List V)
  | enterConnect (op : Nat) (topicId : TopicId) (id : SubscriptionId)
  | enterRequest (op : Nat) (request : Request N)
  | advance (op : Nat) (choice : Choice)
  | disconnect (topicId : TopicId)
  | detachNotifier
  | collect
  | abandonPlan (op : Nat)
  | complete (outcome : RefreshOutcome)
  | completeNext
  | finishRefresh (op : Nat)
  | terminate
  | acquireForeignActive
  | releaseForeignActive
  | acquireForeignQueued
  | releaseForeignQueued
  | takeForeignGeneration

namespace State

variable {V N : Type}

-- ---- Small updates of the state.

section

variable (s : State V N)

def setOperation (op : Nat) (operation : Operation V N) : State V N :=
  { s with operations := s.operations.insert op operation }

/-- The operation returns and drops its admission. -/
def endOperation (op : Nat) : State V N :=
  { s with operations := s.operations.erase op }

def lock (topicId : TopicId) (op : Nat) : State V N :=
  { s with lockOwner := Function.update s.lockOwner (shardIndex topicId) (some op) }

def unlock (topicId : TopicId) : State V N :=
  { s with lockOwner := Function.update s.lockOwner (shardIndex topicId) none }

/-- The result of a section that may abort the process. -/
def orAbort {α : Type} (result : Option α) (next : α → State V N) : State V N :=
  match result with
  | none => { s with aborted := true }
  | some a => next a

/-- The next value of a batch, or the end of the operation. -/
def nextValue (op : Nat) (sink : PublishSink) : List V → State V N
  | [] => s.endOperation op
  | value :: rest => s.setOperation op (.publishBatch sink value rest .entered)

/-- A reserved notification is driven by the thread that reserved it. -/
def driveDetached (op : Nat) (attempt : Option (NotificationAttempt N)) : State V N :=
  match attempt with
  | none => s
  | some attempt => s.setOperation op (.driving attempt .done)

/-- Go on after a notification was prepared: nothing to announce, or an attempt. -/
def afterPrepare (op : Nat) (after : Continuation V)
    (attempt : Option (NotificationAttempt N)) : State V N :=
  match after, attempt with
  | .connection connection, attempt => s.setOperation op (.connecting connection (.finishing attempt))
  | after, some attempt => s.setOperation op (.driving attempt after)
  | .done, none => s.endOperation op
  | .batch sink rest, none => s.nextValue op sink rest

/-- Go on after the notification was driven to its end. -/
def afterDrive (op : Nat) : Continuation V → State V N
  | .done => s.endOperation op
  | .batch sink rest => s.nextValue op sink rest
  | .connection _ => s.endOperation op

/-- An error of the notification, or an unwind out of it, ends the operation; an
unfinished connection is rolled back. -/
def afterFailure (op : Nat) : Continuation V → State V N
  | .connection connection => s.setOperation op (.connecting connection .rollingBack)
  | _ => s.endOperation op

-- ---- The steps of an admitted operation.

/-- `ensure_open` and the epoch load at the head of the retry loop. -/
def stepLoad (op : Nat) (setStage : PublishStage → Operation V N) : State V N :=
  match s.core.ensureOpen with
  | .error _ => s.endOperation op
  | .ok () => s.setOperation op (setStage (.loaded s.core.publishEpoch))

/-- Take the shard lock and check the epoch again. -/
def stepLock (op : Nat) (topicId : TopicId) (epoch : Nat)
    (setStage : PublishStage → Operation V N) : Option (State V N) :=
  if (s.lockOwner (shardIndex topicId)).isSome then none
  else if s.core.publishEpoch ≠ epoch then some (s.setOperation op (setStage .entered))
  else some ((s.lock topicId op).setOperation op (setStage (.locked epoch)))

/-- `commit_value` and the release of the shard lock, recording an accepted sequence. -/
def stepCommitValue [BEq V] (sink : PublishSink) (value : V) (epoch : Nat) :
    State V N × CommitOutcome :=
  let (core, outcome) := s.core.commitValue (BufferIndex.fromEpoch epoch) sink.topicId
    sink.connectionGeneration value
  ({ s with core, history := s.history.accept sink outcome }, outcome)

def stepPublish [BEq V] (op : Nat) (sink : PublishSink) (value : V) :
    PublishStage → Option (State V N)
  | .entered => some (s.stepLoad op (.publish sink value))
  | .loaded epoch => s.stepLock op sink.topicId epoch (.publish sink value)
  | .locked epoch =>
    let (s, outcome) := (s.unlock sink.topicId).stepCommitValue sink value epoch
    match outcome.result with
    | .ok true => some (s.setOperation op (.notifying epoch .done))
    | _ => some (s.endOperation op)

/-- One value of the inner loop of `publish_batch`, under the shard lock. -/
def stepBatchLocked [BEq V] (op : Nat) (sink : PublishSink) (value : V)
    (rest : List V) (epoch : Nat) (choice : Choice) : State V N :=
  if choice = .refuse then
    (s.unlock sink.topicId).endOperation op
  else
    match s.core.ensureOpen with
    | .error _ => (s.unlock sink.topicId).endOperation op
    | .ok () =>
      let (s, outcome) := s.stepCommitValue sink value epoch
      match outcome.result with
      | .error _ => (s.unlock sink.topicId).endOperation op
      | .ok committed =>
        if committed && s.core.notifiedEpoch != epoch then
          (s.unlock sink.topicId).setOperation op (.notifying epoch (.batch sink rest))
        else if s.core.publishEpoch ≠ epoch then
          (s.unlock sink.topicId).nextValue op sink rest
        else
          match rest with
          | [] => (s.unlock sink.topicId).endOperation op
          | value :: rest => s.setOperation op (.publishBatch sink value rest (.locked epoch))

def stepPublishBatch [BEq V] (op : Nat) (sink : PublishSink) (value : V)
    (rest : List V) (choice : Choice) : PublishStage → Option (State V N)
  | .entered => some (s.stepLoad op (.publishBatch sink value rest))
  | .loaded epoch => s.stepLock op sink.topicId epoch (.publishBatch sink value rest)
  | .locked epoch => some (s.stepBatchLocked op sink value rest epoch choice)

/-- The body of `commit_connection` under the shard lock, and its release. -/
def stepCommitConnection (op : Nat) (connection : Connection)
    (observed : Option Nat) (epoch : Nat) : State V N :=
  let s := s.unlock connection.topicId
  s.orAbort (s.core.commitConnection connection.topicId connection.generation observed)
    fun (core, result) =>
      let s := { s with core, history := s.history.observe connection result observed }
      match result with
      | .error _ => s.setOperation op (.connecting connection .rollingBack)
      | .ok hasPending =>
        if hasPending then s.setOperation op (.notifying epoch (.connection connection))
        else s.setOperation op (.connecting connection (.finishing none))

def stepConnecting [Inhabited V] (op : Nat) (connection : Connection)
    (choice : Choice) : ConnectionStage N → Option (State V N)
  | .catalogReserved =>
    if choice = .refuse then some (s.endOperation op)
    else if (s.lockOwner (shardIndex connection.topicId)).isSome then none
    else
      match s.core.reserveConnection connection.topicId connection.id connection.generation with
      | (core, .ok ()) =>
        some ({ s with core }.setOperation op (.connecting connection .publishReserved))
      | (core, .error _) => some ({ s with core }.endOperation op)
  | .publishReserved =>
    if choice = .refuse then some (s.setOperation op (.connecting connection .rollingBack))
    else if (s.lockOwner (shardIndex connection.topicId)).isSome then none
    else
      match s.core.installConnection connection.topicId connection.generation with
      | .ok installed =>
        some (s.setOperation op (.connecting connection (.installed installed.observedSequence)))
      | .error _ => some (s.setOperation op (.connecting connection .rollingBack))
  | .installed observed =>
    if choice = .refuse then some (s.setOperation op (.connecting connection .rollingBack))
    else if (s.lockOwner (shardIndex connection.topicId)).isSome then none
    else
      match s.core.ensureOpen with
      | .error _ => some (s.setOperation op (.connecting connection .rollingBack))
      | .ok () =>
        some ((s.lock connection.topicId op).setOperation op
          (.connecting connection (.committing observed s.core.publishEpoch)))
  | .committing observed epoch => some (s.stepCommitConnection op connection observed epoch)
  | .finishing attempt =>
    if choice = .refuse then some (s.setOperation op (.connecting connection .rollingBack))
    else
      match attempt with
      | none => some (s.endOperation op)
      | some attempt => some (s.setOperation op (.driving attempt (.connection connection)))
  | .rollingBack =>
    if (s.lockOwner (shardIndex connection.topicId)).isSome then none
    else
      some <| s.orAbort
        (s.core.rollbackConnection connection.topicId connection.generation connection.id)
        fun (core, _) => { s with core }.endOperation op

/-- A refresh-lock section that may have reserved a notification. -/
def stepSection (op : Nat) (after : Continuation V)
    (result : PublishCore V N × Except XllError (Option (NotificationAttempt N))) : State V N :=
  match result with
  | (core, .ok attempt) => { s with core }.afterPrepare op after attempt
  | (core, .error _) => { s with core }.afterFailure op after

/-- A successful plan becomes the batch of the refresh. -/
def startBatch (batch : Option (RefreshBatch V)) :
    Except XllError RefreshPlan → Option (RefreshBatch V)
  | .ok plan => some ⟨plan, [], .collecting plan.shards⟩
  | .error _ => batch

def stepRequest (op : Nat) : Request N → State V N
  | .attach notifier => s.stepSection op .done (s.core.attachUpdateNotifier notifier)
  | .pulse => s.stepSection op .done s.core.pulseNotification
  | .planRefresh =>
    let (core, result) := s.core.planRefresh
    { s with core, batch := startBatch s.batch result }.endOperation op

/-- The host's notifier returns, or unwinds. -/
def stepDriving (op : Nat) (attempt : NotificationAttempt N)
    (after : Continuation V) (choice : Choice) : State V N :=
  if choice = .unwind then
    s.afterFailure op after
  else
    match s.core.finishNotificationAttempt attempt (choice = .proceed) with
    | (core, .retry attempt) => { s with core }.setOperation op (.driving attempt after)
    | (core, _) => { s with core }.afterDrive op after

def stepOperation [BEq V] [Inhabited V] (op : Nat) (choice : Choice) :
    Operation V N → Option (State V N)
  | .publish sink value stage => s.stepPublish op sink value stage
  | .publishBatch sink value rest stage => s.stepPublishBatch op sink value rest choice stage
  | .notifying epoch after =>
    if s.core.notifiedEpoch = epoch then some (s.afterPrepare op after none)
    else some (s.setOperation op (.notifyingSlow after))
  | .notifyingSlow after => some (s.stepSection op after (s.core.prepareNotification true))
  | .driving attempt after => some (s.stepDriving op attempt after choice)
  | .connecting connection stage => s.stepConnecting op connection choice stage
  | .request request => some (s.stepRequest op request)

-- ---- The steps of the refresh batch.

def stepCollect (batch : RefreshBatch V) : Option (State V N) :=
  match batch.stage with
  | .collecting (index :: remaining) =>
    if (s.lockOwner index).isSome then none
    else
      let (core, updates) := s.core.collectShard index batch.updates
      some { s with core, batch := some { batch with updates, stage := .collecting remaining } }
  | _ => none

/-- The opening section of `complete_refresh_inner`. -/
def stepComplete (batch : RefreshBatch V) (outcome : RefreshOutcome) : State V N :=
  match s.core.checkRefresh batch.plan.refreshId with
  | .error _ => { s with batch := none }
  | .ok ticketError =>
    { s with batch := some { batch with
        stage := .completing (if ticketError then .failed else outcome) ticketError } }

/-- An unwind during collection drops the plan. -/
def stepAbandonPlan (op : Nat) (batch : RefreshBatch V) : State V N :=
  match batch.updates with
  | _ :: _ => s.stepComplete batch .failed
  | [] =>
    let (core, attempt) := s.core.abortEmptyRefresh batch.plan.refreshId
    { s with core, batch := none }.driveDetached op attempt

def stepCompleteNext (batch : RefreshBatch V) : Option (State V N) :=
  match batch.stage, batch.updates.getLast? with
  | .completing outcome _, some update =>
    if (s.lockOwner (shardIndex update.topicId)).isSome then none
    else
      some <| s.orAbort (s.core.completeUpdate outcome update) fun core =>
        { s with
          core
          batch := some { batch with updates := batch.updates.dropLast }
          history := s.history.deliver update outcome }
  | _, _ => none

def stepFinishRefresh (op : Nat) (batch : RefreshBatch V) : Option (State V N) :=
  match batch.stage, batch.updates with
  | .completing _ ticketError, [] =>
    match s.core.finishRefresh batch.plan.refreshId ticketError with
    | (core, .ok attempt) => some ({ s with core, batch := none }.driveDetached op attempt)
    | (core, .error _) => some { s with core, batch := none }
  | _, _ => none

-- ---- Termination.

/-- All pending entries of a shard. -/
def pendingCount (shard : TopicShard V) : Nat :=
  Table.size (shard.pending .first) + Table.size (shard.pending .second)

def activeCount (shard : TopicShard V) : Nat := Table.size shard.activeByTopic

/-- `finish_termination`: every table is taken and its permits are dropped. -/
def finishTermination : Option (State V N) := do
  let active ← checkedSubOrAbort s.core.activeQuota.used (∑ i, activeCount (s.core.shards i))
  let queued ←
    checkedSubOrAbort s.core.queuedUpdateQuota.used (∑ i, pendingCount (s.core.shards i))
  some { s with
    termination := .finished
    core := { s.core with
      lifecycle := .terminated
      pendingUpdates := 0
      deliverablePending := 0
      readyShards := 0
      shards := fun _ => TopicShard.default
      refresh := s.core.refresh.detachNotifier.2
      activeQuota := { s.core.activeQuota with used := active }
      queuedUpdateQuota := { s.core.queuedUpdateQuota with used := queued } } }

def stepTerminate : Option (State V N) :=
  match s.termination with
  | .idle => some { s with gateOpen := false, termination := .gateClosed }
  | .gateClosed =>
    some { s with core := { s.core with lifecycle := .closing }, termination := .lifecycleStored }
  | .lifecycleStored =>
    some { s with core := s.core.detachUpdateNotifier, termination := .clearing 0 0 0 }
  | .clearing next pending deliverable =>
    if h : next < topicShards then
      let index : ShardIndex := ⟨next, h⟩
      if (s.lockOwner index).isSome then none
      else
        some <| s.orAbort (s.core.clearShard index) fun core =>
          { s with
            core
            termination := .clearing (next + 1) (pending + pendingCount (s.core.shards index))
              (deliverable + (s.core.shards index).deliverableCount) }
    else
      some { s with core := { s.core with pendingUpdates := 0 },
                    termination := .resettingDeliverable deliverable }
  | .resettingDeliverable _ =>
    some { s with core := { s.core with deliverablePending := 0 }, termination := .resettingReady }
  | .resettingReady =>
    some { s with core := { s.core with readyShards := 0 }, termination := .waiting }
  | .waiting =>
    if s.operations.entries.isEmpty && s.batch.isNone then
      some (s.orAbort s.finishTermination id)
    else none
  | .finished => none

-- ---- The step function.

/-- Admission through the server gate under an unused number. -/
def admitOperation (op : Nat) (operation : Operation V N) : Option (State V N) :=
  if s.gateOpen && (s.operations.lookup op).isNone then some (s.setOperation op operation)
  else none

/-- The generation a connection takes from the runtime's counter. -/
def stepEnterConnect (op : Nat) (topicId : TopicId) (id : SubscriptionId) : Option (State V N) :=
  match checkedIncrement s.nextGeneration, ConnectionGeneration.new s.nextGeneration with
  | some nextGeneration, some generation =>
    { s with nextGeneration }.admitOperation op
      (.connecting ⟨topicId, id, generation⟩ .catalogReserved)
  | _, _ => none

end

def step [BEq V] [Inhabited V] (s : State V N) (action : Action V N) : Option (State V N) :=
  if s.aborted then none
  else
    match action with
    | .enterPublish op sink value => s.admitOperation op (.publish sink value .entered)
    | .enterPublishBatch op sink value rest =>
      s.admitOperation op (.publishBatch sink value rest .entered)
    | .enterConnect op topicId id => s.stepEnterConnect op topicId id
    | .enterRequest op request =>
      if s.core.lifecycle = .opened then s.admitOperation op (.request request) else none
    | .advance op choice => (s.operations.lookup op).bind (s.stepOperation op choice)
    | .disconnect topicId =>
      if (s.lockOwner (shardIndex topicId)).isSome then none
      else
        some <| s.orAbort (s.core.disconnectConnection topicId) fun (core, _) => { s with core }
    | .detachNotifier => some { s with core := s.core.detachUpdateNotifier }
    | .collect => s.batch.bind s.stepCollect
    | .abandonPlan op =>
      s.batch.bind fun batch =>
        match batch.stage with
        | .collecting _ =>
          if (s.operations.lookup op).isSome then none else some (s.stepAbandonPlan op batch)
        | .completing _ _ => none
    | .complete outcome =>
      s.batch.bind fun batch =>
        match batch.stage with
        | .collecting [] => some (s.stepComplete batch outcome)
        | _ => none
    | .completeNext => s.batch.bind s.stepCompleteNext
    | .finishRefresh op =>
      if (s.operations.lookup op).isSome then none else s.batch.bind (s.stepFinishRefresh op)
    | .terminate => s.stepTerminate
    | .acquireForeignActive =>
      s.core.activeQuota.acquireCount.map fun activeQuota =>
        { s with core := { s.core with activeQuota }, foreignActive := s.foreignActive + 1 }
    | .releaseForeignActive =>
      if s.foreignActive = 0 then none
      else
        some <| s.orAbort s.core.activeQuota.releaseCount fun activeQuota =>
          { s with core := { s.core with activeQuota }, foreignActive := s.foreignActive - 1 }
    | .acquireForeignQueued =>
      s.core.queuedUpdateQuota.acquireCount.map fun queuedUpdateQuota =>
        { s with core := { s.core with queuedUpdateQuota },
                 foreignQueued := s.foreignQueued + 1 }
    | .releaseForeignQueued =>
      if s.foreignQueued = 0 then none
      else
        some <| s.orAbort s.core.queuedUpdateQuota.releaseCount fun queuedUpdateQuota =>
          { s with core := { s.core with queuedUpdateQuota },
                   foreignQueued := s.foreignQueued - 1 }
    | .takeForeignGeneration =>
      (checkedIncrement s.nextGeneration).map fun nextGeneration => { s with nextGeneration }

end State

end Xlfn.Subscription
