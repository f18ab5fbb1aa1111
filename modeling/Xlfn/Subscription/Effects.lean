import Xlfn.Subscription.Machine

/-!
# Xlfn — what one step of the data plane can do

`Effect s action s'` lists everything a step can do to the state, one constructor per
atomic section of the source, and `step_effect` says that the list is complete.
The invariants over runs are case analyses on it; none of them unfolds `step`.

An operation that makes progress changes its own entry of the operation table
and nothing else there (`OpChange`); fields that a section does not mention are
unchanged (`Frame`).
-/

namespace Xlfn.Subscription

open Xlfn.Lib Xlfn.Kernel

variable {V N : Type}

-- ---- What is known of an operation in progress.

/-- The connection an operation waits to continue with. -/
def Continuation.connection? : Continuation V → Option Connection
  | .connection c => some c
  | _ => none

/-- A transaction knows that it has not reserved its topic yet, or which pending
sequence it observed when it was installed. -/
inductive Knowledge
  | unreserved
  | observed (sequence : Option Nat)

namespace Operation

/-- The connection transaction an operation carries. -/
def connection? : Operation V N → Option Connection
  | .connecting connection _ => some connection
  | .notifying _ after => after.connection?
  | .notifyingSlow after => after.connection?
  | .driving _ after => after.connection?
  | _ => none

/-- What an uncommitted transaction knows of its topic. -/
def knowledge? : Operation V N → Option (Connection × Knowledge)
  | .connecting connection .catalogReserved => some (connection, .unreserved)
  | .connecting connection (.installed observed) => some (connection, .observed observed)
  | .connecting connection (.committing observed _) => some (connection, .observed observed)
  | _ => none

/-- The operation will still take the slow path of the notification. -/
def due (notifiedEpoch : Nat) : Operation V N → Bool
  | .notifying epoch _ => epoch != notifiedEpoch
  | .notifyingSlow _ => true
  | _ => false

end Operation

-- ---- Frames.

/-- The rarely changed fields are as before. -/
structure Frame (s s' : State V N) : Prop where
  gateOpen       : s'.gateOpen = s.gateOpen
  termination    : s'.termination = s.termination
  nextGeneration : s'.nextGeneration = s.nextGeneration
  foreignActive  : s'.foreignActive = s.foreignActive
  foreignQueued  : s'.foreignQueued = s.foreignQueued
  aborted        : s'.aborted = s.aborted

/-- One entry of the operation table changes. -/
structure OpChange (s s' : State V N) (op : Nat) (before after : Option (Operation V N)) :
    Prop where
  before : s.operations.lookup op = before
  after  : ∀ k, s'.operations.lookup k = if k = op then after else s.operations.lookup k

/-- The successor keeps the connection or drops it, keeps a due notification and
keeps what it knows or drops it. -/
structure Progress (notifiedEpoch : Nat) (o : Operation V N) (o' : Option (Operation V N)) :
    Prop where
  connection  : ∀ p ∈ o', p.connection? = none ∨ p.connection? = o.connection?
  knowledge   : ∀ p ∈ o', p.knowledge? = none ∨ p.knowledge? = o.knowledge?
  due         : o.due notifiedEpoch = true → ∃ p ∈ o', p.due notifiedEpoch = true

-- ---- The effects.

/-- Some section of the source would reach `fail_stop` in this state. -/
def Aborts (s : State V N) : Prop :=
  (∃ (op : Nat) (connection : Connection) (observed : Option Nat) (epoch : Nat),
    s.operations.lookup op = some (.connecting connection (.committing observed epoch)) ∧
    s.core.commitConnection connection.topicId connection.generation observed = none) ∨
  (∃ (op : Nat) (connection : Connection),
    s.operations.lookup op = some (.connecting connection .rollingBack) ∧
    s.core.rollbackConnection connection.topicId connection.generation connection.id = none) ∨
  (∃ topicId, s.core.disconnectConnection topicId = none) ∨
  (∃ (batch : RefreshBatch V) (outcome : RefreshOutcome) (update : RtdUpdate V),
    s.batch = some batch ∧ s.core.completeUpdate outcome update = none) ∨
  (∃ index, s.core.clearShard index = none) ∨
  s.finishTermination = none ∨
  (0 < s.foreignActive ∧ s.core.activeQuota.used = 0) ∨
  (0 < s.foreignQueued ∧ s.core.queuedUpdateQuota.used = 0)

section

variable [BEq V]

/-- **Everything a step can do.** -/
inductive Effect (s : State V N) (action : Action V N) (s' : State V N) : Prop
  /-- An operation moves on without touching shared data. -/
  | progress (op : Nat) (o : Operation V N) (o' : Option (Operation V N))
      (hframe : Frame s s') (hcore : s'.core = s.core) (hbatch : s'.batch = s.batch)
      (hhistory : s'.history = s.history) (hop : OpChange s s' op (some o) o')
      (hprogress : Progress s.core.notifiedEpoch o o')
  /-- A new operation without a connection is admitted. -/
  | admitted (op : Nat) (o : Operation V N)
      (hframe : Frame s s') (hcore : s'.core = s.core) (hbatch : s'.batch = s.batch)
      (hhistory : s'.history = s.history) (hop : OpChange s s' op none (some o))
      (hconnection : o.connection? = none)
  /-- A connection transaction starts with a generation of its own. -/
  | connected (op : Nat) (connection : Connection)
      (hframe : Frame { s with nextGeneration := s.nextGeneration + 1 } s')
      (hcore : s'.core = s.core) (hbatch : s'.batch = s.batch)
      (hhistory : s'.history = s.history)
      (hop : OpChange s s' op none (some (.connecting connection .catalogReserved)))
      (hgeneration : connection.generation.raw = s.nextGeneration)
  /-- An installed transaction has observed the newest pending sequence. -/
  | installed (op : Nat) (connection : Connection) (a : ActiveSubscription V)
      (hframe : Frame s s') (hcore : s'.core = s.core) (hbatch : s'.batch = s.batch)
      (hhistory : s'.history = s.history)
      (hactive : (s.core.shards (shardIndex connection.topicId)).activeByTopic.lookup
        connection.topicId = some a)
      (hgeneration : a.generation = connection.generation)
      (hop : OpChange s s' op (some (.connecting connection .publishReserved))
        (some (.connecting connection (.installed
          (s.core.observedSequence connection.topicId connection.generation)))))
  /-- A publication commits a value under its shard lock. -/
  | published (op : Nat) (o : Operation V N) (o' : Option (Operation V N)) (sink : PublishSink)
      (value : V) (epoch : Nat) (outcome : CommitOutcome)
      (haction : ∃ choice, action = .advance op choice)
      (hframe : Frame s s') (hbatch : s'.batch = s.batch)
      (hvalue : s.core.commitValue (BufferIndex.fromEpoch epoch) sink.topicId
        sink.connectionGeneration value = (s'.core, outcome))
      (hhistory : s'.history = s.history.accept sink outcome)
      (hop : OpChange s s' op (some o) o')
      (hlocked : (∃ v, o = .publish sink v (.locked epoch)) ∨
        ∃ v rest, o = .publishBatch sink v rest (.locked epoch))
      (hconnection : ∀ p ∈ o', p.connection? = none)
      (hdue : outcome.result = .ok true → s'.core.notifiedEpoch = epoch ∨
        ∃ after, o' = some (.notifying epoch after))
  /-- A connection reserves its topic, or fails to. -/
  | reserved (op : Nat) (connection : Connection) (o' : Option (Operation V N))
      (hframe : Frame s s') (hbatch : s'.batch = s.batch) (hhistory : s'.history = s.history)
      (result : Except XllError Unit)
      (hreserve : s.core.reserveConnection connection.topicId connection.id
        connection.generation = (s'.core, result))
      (hop : OpChange s s' op (some (.connecting connection .catalogReserved)) o')
      (hnext : o' = none ∨ o' = some (.connecting connection .publishReserved))
  /-- A connection commits, or fails to. -/
  | committed (op : Nat) (connection : Connection) (observed : Option Nat) (epoch : Nat)
      (o' : Operation V N) (result : Except XllError Bool)
      (haction : ∃ choice, action = .advance op choice)
      (hframe : Frame s s') (hbatch : s'.batch = s.batch)
      (hcommit : s.core.commitConnection connection.topicId connection.generation observed =
        some (s'.core, result))
      (hhistory : s'.history = s.history.observe connection result observed)
      (hop : OpChange s s' op (some (.connecting connection (.committing observed epoch))) (some o'))
      (hconnection : o'.connection? = some connection) (hknowledge : o'.knowledge? = none)
      (hdue : result = .ok true → o' = .notifying epoch (.connection connection))
  /-- A transaction is rolled back. -/
  | rolledBack (op : Nat) (connection : Connection) (removed : Bool)
      (hframe : Frame s s') (hbatch : s'.batch = s.batch) (hhistory : s'.history = s.history)
      (hrollback : s.core.rollbackConnection connection.topicId connection.generation
        connection.id = some (s'.core, removed))
      (hop : OpChange s s' op (some (.connecting connection .rollingBack)) none)
  /-- The slow path of the notification runs under the refresh lock. -/
  | prepared (op : Nat) (after : Continuation V) (o' : Option (Operation V N))
      (hframe : Frame s s') (hcore : s'.core = (s.core.prepareNotification true).1)
      (hbatch : s'.batch = s.batch) (hhistory : s'.history = s.history)
      (hop : OpChange s s' op (some (.notifyingSlow after)) o')
      (hconnection : ∀ p ∈ o', p.connection? = none ∨ p.connection? = after.connection?)
      (hknowledge : ∀ p ∈ o', p.knowledge? = none)
  /-- A notifier is attached. -/
  | attached (op : Nat) (notifier : N) (o' : Option (Operation V N))
      (haction : ∃ choice, action = .advance op choice)
      (hframe : Frame s s') (hcore : s'.core = (s.core.attachUpdateNotifier notifier).1)
      (hbatch : s'.batch = s.batch) (hhistory : s'.history = s.history)
      (hop : OpChange s s' op (some (.request (.attach notifier))) o')
      (hconnection : ∀ p ∈ o', p.connection? = none)
  /-- The heartbeat. -/
  | pulsed (op : Nat) (o' : Option (Operation V N))
      (haction : ∃ choice, action = .advance op choice)
      (hframe : Frame s s') (hcore : s'.core = s.core.pulseNotification.1)
      (hbatch : s'.batch = s.batch) (hhistory : s'.history = s.history)
      (hop : OpChange s s' op (some (.request .pulse)) o')
      (hconnection : ∀ p ∈ o', p.connection? = none)
  /-- A refresh is planned, or refused. -/
  | planned (op : Nat) (result : Except XllError RefreshPlan)
      (haction : ∃ choice, action = .advance op choice)
      (hframe : Frame s s') (hplan : s.core.planRefresh = (s'.core, result))
      (hbatch : s'.batch = State.startBatch s.batch result)
      (hhistory : s'.history = s.history)
      (hop : OpChange s s' op (some (.request .planRefresh)) none)
  /-- A call of the host's notifier ends. -/
  | driven (op : Nat) (attempt : NotificationAttempt N) (after : Continuation V)
      (succeeded : Bool) (o' : Option (Operation V N))
      (hframe : Frame s s')
      (hcore : s'.core = (s.core.finishNotificationAttempt attempt succeeded).1)
      (hbatch : s'.batch = s.batch) (hhistory : s'.history = s.history)
      (hop : OpChange s s' op (some (.driving attempt after)) o')
      (hconnection : ∀ p ∈ o', p.connection? = none ∨ p.connection? = after.connection?)
      (hknowledge : ∀ p ∈ o', p.knowledge? = none)
  /-- A topic is disconnected. -/
  | disconnected (topicId : TopicId) (result : Except XllError (Option RetiredConnection))
      (hframe : Frame s s') (hbatch : s'.batch = s.batch) (hhistory : s'.history = s.history)
      (hdisconnect : s.core.disconnectConnection topicId = some (s'.core, result))
      (hops : s'.operations = s.operations)
  /-- The notifier is detached, also by termination. -/
  | detached (hcore : s'.core = s.core.detachUpdateNotifier) (hbatch : s'.batch = s.batch)
      (hhistory : s'.history = s.history) (hops : s'.operations = s.operations)
      (hframe : Frame s s' ∨ s.termination = .lifecycleStored ∧
        Frame { s with termination := .clearing 0 0 0 } s')
  /-- A candidate shard is collected. -/
  | collected (batch : RefreshBatch V) (index : ShardIndex) (remaining : List ShardIndex)
      (hframe : Frame s s') (hbefore : s.batch = some batch)
      (hstage : batch.stage = .collecting (index :: remaining))
      (hcore : s'.core = (s.core.collectShard index batch.updates).1)
      (hbatch : s'.batch = some ⟨batch.plan, (s.core.collectShard index batch.updates).2,
        .collecting remaining⟩)
      (hhistory : s'.history = s.history) (hops : s'.operations = s.operations)
  /-- The completion of the running refresh starts. -/
  | completing (batch : RefreshBatch V) (remaining : List ShardIndex) (outcome : RefreshOutcome)
      (ticketError : Bool)
      (hframe : Frame s s') (hbefore : s.batch = some batch)
      (hstage : batch.stage = .collecting remaining)
      (hcheck : s.core.checkRefresh batch.plan.refreshId = .ok ticketError)
      (hcore : s'.core = s.core)
      (hbatch : s'.batch = some { batch with
        stage := .completing (if ticketError then .failed else outcome) ticketError })
      (hhistory : s'.history = s.history) (hops : s'.operations = s.operations)
  /-- The completion is refused because another refresh is running. -/
  | mismatched (batch : RefreshBatch V) (error : XllError)
      (hframe : Frame s s') (hbefore : s.batch = some batch)
      (hcheck : s.core.checkRefresh batch.plan.refreshId = .error error)
      (hcore : s'.core = s.core) (hbatch : s'.batch = none)
      (hhistory : s'.history = s.history) (hops : s'.operations = s.operations)
  /-- A plan that collected nothing is dropped. -/
  | abandoned (batch : RefreshBatch V) (op : Nat) (o' : Option (Operation V N))
      (hframe : Frame s s') (hbefore : s.batch = some batch) (hempty : batch.updates = [])
      (hcore : s'.core = (s.core.abortEmptyRefresh batch.plan.refreshId).1)
      (hbatch : s'.batch = none) (hhistory : s'.history = s.history)
      (hop : OpChange s s' op none o')
      (hconnection : ∀ p ∈ o', p.connection? = none)
  /-- One update of the batch is completed. -/
  | completed (batch : RefreshBatch V) (updates : List (RtdUpdate V)) (update : RtdUpdate V)
      (outcome : RefreshOutcome) (ticketError : Bool)
      (hframe : Frame s s') (hbefore : s.batch = some batch)
      (hstage : batch.stage = .completing outcome ticketError)
      (hupdates : batch.updates = updates ++ [update])
      (hcomplete : s.core.completeUpdate outcome update = some s'.core)
      (hbatch : s'.batch = some { batch with updates })
      (hhistory : s'.history = s.history.deliver update outcome)
      (hops : s'.operations = s.operations)
  /-- The completion of the refresh ends. -/
  | refreshed (batch : RefreshBatch V) (outcome : RefreshOutcome) (ticketError : Bool)
      (op : Nat) (o' : Option (Operation V N))
      (hframe : Frame s s') (hbefore : s.batch = some batch)
      (hstage : batch.stage = .completing outcome ticketError) (hempty : batch.updates = [])
      (hcore : s'.core = (s.core.finishRefresh batch.plan.refreshId ticketError).1)
      (hbatch : s'.batch = none) (hhistory : s'.history = s.history)
      (hop : OpChange s s' op none o')
      (hconnection : ∀ p ∈ o', p.connection? = none)
  /-- Termination seals the gate or stores the closing lifecycle. -/
  | closing (next : Termination) (gateOpen : Bool)
      (hnext : s.termination = .idle ∧ next = .gateClosed ∧ s'.core = s.core ∨
        s.termination = .gateClosed ∧ next = .lifecycleStored ∧
          s'.core = { s.core with lifecycle := .closing })
      (hframe : Frame { s with termination := next, gateOpen := gateOpen } s')
      (hbatch : s'.batch = s.batch) (hhistory : s'.history = s.history)
      (hops : s'.operations = s.operations)
  /-- Termination clears one shard. -/
  | cleared (index : ShardIndex) (pending deliverable : Nat)
      (htermination : s.termination = .clearing index pending deliverable)
      (haction : action = .terminate)
      (hframe : Frame { s with
        termination := .clearing (index + 1) (pending + State.pendingCount (s.core.shards index))
          (deliverable + (s.core.shards index).deliverableCount) } s')
      (hclear : s.core.clearShard index = some s'.core)
      (hbatch : s'.batch = s.batch) (hhistory : s'.history = s.history)
      (hops : s'.operations = s.operations)
  /-- Termination resets the pending counter. -/
  | resetPending (next pending deliverable : Nat)
      (htermination : s.termination = .clearing next pending deliverable)
      (hlast : topicShards ≤ next)
      (haction : action = .terminate)
      (hframe : Frame { s with termination := .resettingDeliverable deliverable } s')
      (hcore : s'.core = { s.core with pendingUpdates := 0 })
      (hbatch : s'.batch = s.batch) (hhistory : s'.history = s.history)
      (hops : s'.operations = s.operations)
  /-- Termination resets the deliverable counter. -/
  | resetDeliverable (deliverable : Nat)
      (htermination : s.termination = .resettingDeliverable deliverable)
      (haction : action = .terminate)
      (hframe : Frame { s with termination := .resettingReady } s')
      (hcore : s'.core = { s.core with deliverablePending := 0 })
      (hbatch : s'.batch = s.batch) (hhistory : s'.history = s.history)
      (hops : s'.operations = s.operations)
  /-- Termination resets the ready bits. -/
  | resetReady (htermination : s.termination = .resettingReady)
      (hframe : Frame { s with termination := .waiting } s')
      (hcore : s'.core = { s.core with readyShards := 0 })
      (hbatch : s'.batch = s.batch) (hhistory : s'.history = s.history)
      (hops : s'.operations = s.operations)
  /-- Termination finishes once every admitted operation has drained. -/
  | finished (htermination : s.termination = .waiting)
      (hdrained : ∀ k, s.operations.lookup k = none) (hbatch : s.batch = none)
      (hfinish : s.finishTermination = some s')
  /-- Another server takes or returns a permit of the active quota. -/
  | foreignActive (quota : Quota) (count : Nat)
      (hquota : quota.used + s.foreignActive = s.core.activeQuota.used + count)
      (hframe : Frame { s with foreignActive := count } s')
      (hcore : s'.core = { s.core with activeQuota := quota })
      (hbatch : s'.batch = s.batch) (hhistory : s'.history = s.history)
      (hops : s'.operations = s.operations)
  /-- Another server takes or returns a permit of the queue quota. -/
  | foreignQueued (quota : Quota) (count : Nat)
      (hquota : quota.used + s.foreignQueued = s.core.queuedUpdateQuota.used + count)
      (hframe : Frame { s with foreignQueued := count } s')
      (hcore : s'.core = { s.core with queuedUpdateQuota := quota })
      (hbatch : s'.batch = s.batch) (hhistory : s'.history = s.history)
      (hops : s'.operations = s.operations)
  /-- Another server takes a generation. -/
  | foreignGeneration
      (hframe : Frame { s with nextGeneration := s.nextGeneration + 1 } s')
      (hcore : s'.core = s.core) (hbatch : s'.batch = s.batch)
      (hhistory : s'.history = s.history) (hops : s'.operations = s.operations)
  /-- A section reached `fail_stop`. -/
  | aborted (hcore : s'.core = s.core) (hsection : Aborts s)

end

-- ---- The end of a step: one entry of the operation table is set or erased.

/-- Set or erase the entry of an operation. -/
def State.withOp (s : State V N) (op : Nat) : Option (Operation V N) → State V N
  | some o => s.setOperation op o
  | none => s.endOperation op

section

variable (s : State V N) (op : Nat) (o : Option (Operation V N))

@[simp] theorem State.withOp_core : (s.withOp op o).core = s.core := by cases o <;> rfl
@[simp] theorem State.withOp_batch : (s.withOp op o).batch = s.batch := by cases o <;> rfl
@[simp] theorem State.withOp_history : (s.withOp op o).history = s.history := by cases o <;> rfl

theorem State.withOp_lookup (k : Nat) :
    (s.withOp op o).operations.lookup k = if k = op then o else s.operations.lookup k := by
  cases o with
  | some o => exact Table.lookup_insert_ite ..
  | none => exact Table.lookup_erase_ite ..

end

theorem Frame.withOp {s t : State V N} (h : Frame s t) (op : Nat) (o : Option (Operation V N)) :
    Frame s (t.withOp op o) := by
  cases o <;> exact ⟨h.gateOpen, h.termination, h.nextGeneration, h.foreignActive,
    h.foreignQueued, h.aborted⟩

theorem Frame.refl (s : State V N) : Frame s s := ⟨rfl, rfl, rfl, rfl, rfl, rfl⟩

/-- Replacing the core is within the frame. -/
theorem Frame.withCore (s : State V N) (core : PublishCore V N) : Frame s { s with core } :=
  ⟨rfl, rfl, rfl, rfl, rfl, rfl⟩

/-- Replacing one operation changes no other. -/
theorem OpChange.withOp {s t : State V N} {op : Nat} {before : Option (Operation V N)}
    (hbefore : s.operations.lookup op = before) (ht : t.operations = s.operations)
    (o : Option (Operation V N)) : OpChange s (t.withOp op o) op before o where
  before := hbefore
  after := by
    intro k
    rw [State.withOp_lookup, ht]

/-- The entry of a batch that goes on with its next value. -/
def nextValueOp (sink : PublishSink) : List V → Option (Operation V N)
  | [] => none
  | value :: rest => some (.publishBatch sink value rest .entered)

/-- The entry after a notification was prepared. -/
def afterPrepareOp : Continuation V → Option (NotificationAttempt N) → Option (Operation V N)
  | .connection c, attempt => some (.connecting c (.finishing attempt))
  | after, some attempt => some (.driving attempt after)
  | .done, none => none
  | .batch sink rest, none => nextValueOp sink rest

/-- The entry after a notification was driven to its end. -/
def afterDriveOp : Continuation V → Option (Operation V N)
  | .batch sink rest => nextValueOp sink rest
  | _ => none

/-- The entry after a notification failed. -/
def afterFailureOp : Continuation V → Option (Operation V N)
  | .connection c => some (.connecting c .rollingBack)
  | _ => none

theorem nextValue_eq (s : State V N) (op : Nat) (sink : PublishSink) (rest : List V) :
    s.nextValue op sink rest = s.withOp op (nextValueOp sink rest) := by
  cases rest <;> rfl

theorem afterPrepare_eq (s : State V N) (op : Nat) (after : Continuation V)
    (attempt : Option (NotificationAttempt N)) :
    s.afterPrepare op after attempt = s.withOp op (afterPrepareOp after attempt) := by
  cases after <;> cases attempt <;> first | rfl | exact nextValue_eq ..

theorem afterDrive_eq (s : State V N) (op : Nat) (after : Continuation V) :
    s.afterDrive op after = s.withOp op (afterDriveOp after) := by
  cases after <;> first | rfl | exact nextValue_eq ..

theorem afterFailure_eq (s : State V N) (op : Nat) (after : Continuation V) :
    s.afterFailure op after = s.withOp op (afterFailureOp after) := by
  cases after <;> rfl

theorem nextValueOp_spec (sink : PublishSink) (rest : List V) :
    ∀ p ∈ (nextValueOp sink rest : Option (Operation V N)),
      p.connection? = none ∧ p.knowledge? = none := by
  intro p hp
  cases rest with
  | nil => cases hp
  | cons value rest =>
    cases hp
    exact ⟨rfl, rfl⟩

theorem afterPrepareOp_spec (after : Continuation V) (attempt : Option (NotificationAttempt N)) :
    ∀ p ∈ afterPrepareOp after attempt,
      (p.connection? = none ∨ p.connection? = after.connection?) ∧ p.knowledge? = none := by
  intro p hp
  cases after with
  | connection c =>
    cases hp
    exact ⟨.inr rfl, rfl⟩
  | done =>
    cases attempt with
    | none => cases hp
    | some attempt =>
      cases hp
      exact ⟨.inl rfl, rfl⟩
  | batch sink rest =>
    cases attempt with
    | none => exact ⟨.inl (nextValueOp_spec sink rest p hp).1, (nextValueOp_spec sink rest p hp).2⟩
    | some attempt =>
      cases hp
      exact ⟨.inl rfl, rfl⟩

theorem afterDriveOp_spec (after : Continuation V) :
    ∀ p ∈ (afterDriveOp after : Option (Operation V N)),
      p.connection? = none ∧ p.knowledge? = none := by
  intro p hp
  cases after with
  | connection c => cases hp
  | done => cases hp
  | batch sink rest => exact nextValueOp_spec sink rest p hp

theorem afterFailureOp_spec (after : Continuation V) :
    ∀ p ∈ (afterFailureOp after : Option (Operation V N)),
      (p.connection? = none ∨ p.connection? = after.connection?) ∧ p.knowledge? = none := by
  intro p hp
  cases after with
  | connection c =>
    cases hp
    exact ⟨.inr rfl, rfl⟩
  | done => cases hp
  | batch sink rest => cases hp

/-- An operation that is not in a notification tail progresses to one that keeps
its connection and learns nothing. -/
theorem Progress.of_spec {n : Nat} {o : Operation V N} {o' : Option (Operation V N)}
    (hdue : o.due n = false)
    (h : ∀ p ∈ o', (p.connection? = none ∨ p.connection? = o.connection?) ∧
      (p.knowledge? = none ∨ p.knowledge? = o.knowledge?)) : Progress n o o' where
  connection := fun p hp => (h p hp).1
  knowledge := fun p hp => (h p hp).2
  due := fun hd => by rw [hdue] at hd; cases hd

end Xlfn.Subscription
