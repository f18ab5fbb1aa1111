import Xlfn.Subscription.Delivery

/-!
# Xlfn — the publish core

The operations of `subscription/data_plane.rs`, each written as a function of the
whole core. A shard critical section of the source is one function here; the
interleaving of sections is left to `Xlfn.Subscription.Machine`.

* A function that can reach `fail_stop` returns an `Option`; `none` is the abort.
* `XllResult` is `Except XllError`.
* `pending_updates`, `deliverable_pending` and `deliverable_count` are natural
  numbers: every pending entry holds a permit of a `usize` quota, so the
  `fetch_add`s cannot wrap and the `checked_add` cannot fail.
-/

namespace Xlfn.Subscription

open Xlfn.Lib Xlfn.Kernel

/-- `SERVER_LIFECYCLE_OPEN`, `_CLOSING` and `_TERMINATED`. -/
inductive ServerLifecycle
  | opened
  | closing
  | terminated
deriving DecidableEq

/-- The shared memory of one subscription server. Both quotas belong to the
runtime and are shared with its other servers. -/
structure PublishCore (V N : Type) where
  lifecycle          : ServerLifecycle
  publishEpoch       : Nat
  notifiedEpoch      : Nat
  pendingUpdates     : Nat
  deliverablePending : Nat
  readyShards        : BitVec topicShards
  shards             : ShardIndex → TopicShard V
  refresh            : RefreshState N
  activeQuota        : Quota
  queuedUpdateQuota  : Quota

/-- A connection the data plane has given up. -/
structure RetiredConnection where
  id         : SubscriptionId
  generation : ConnectionGeneration

structure InstalledConnection (V : Type) where
  latest           : V
  observedSequence : Option Nat

/-- What one call of `commit_value` did. The source returns `Ok(false)` both for
a duplicate value and for a value of an uncommitted connection; the model keeps
them apart so that the accepted sequences can be recorded. -/
inductive CommitOutcome
  | refused (error : XllError)
  | unchanged
  | accepted (sequence : Nat) (committed : Bool)

/-- The source's `XllResult<bool>`: whether a notification is due. -/
def CommitOutcome.result : CommitOutcome → Except XllError Bool
  | .refused error => .error error
  | .unchanged => .ok false
  | .accepted _ committed => .ok committed

/-- The candidate shards of a plan in the order `trailing_zeros` yields them. -/
def RefreshPlan.shards (plan : RefreshPlan) : List ShardIndex :=
  (List.finRange topicShards).filter fun index => plan.candidateShards.getLsbD index

/-- One entry of the collection loop: buffer, topic and queued update. -/
structure CollectItem where
  buffer  : BufferIndex
  topicId : TopicId
  queued  : QueuedUpdate

variable {V N : Type}

namespace PublishCore

/-- `PublishCore::new`, over the runtime's quotas as they stand. -/
def new (activeQuota queuedUpdateQuota : Quota) : PublishCore V N where
  lifecycle          := .opened
  publishEpoch       := 0
  notifiedEpoch      := u64Max
  pendingUpdates     := 0
  deliverablePending := 0
  readyShards        := 0
  shards             := fun _ => TopicShard.default
  refresh            := RefreshState.default
  activeQuota
  queuedUpdateQuota

section

variable (core : PublishCore V N)

/-- `self.shards[shard_index]`, written back. -/
def setShard (index : ShardIndex) (shard : TopicShard V) : PublishCore V N :=
  { core with shards := Function.update core.shards index shard }

def ensureOpen : Except XllError Unit :=
  if core.lifecycle = .opened then .ok () else .error .closing

def hasDeliverableUpdates : Bool := core.deliverablePending != 0

-- ---- Pending counters and ready bits.

def recordDeliverableIncrease (index : ShardIndex) (count : Nat) : PublishCore V N :=
  if count = 0 then
    core
  else
    let shard := core.shards index
    { core with
      deliverablePending := core.deliverablePending + count
      readyShards :=
        if shard.deliverableCount = 0 then core.readyShards ||| BitVec.twoPow topicShards index
        else core.readyShards
    }.setShard index { shard with deliverableCount := shard.deliverableCount + count }

def recordDeliverableDecrease (index : ShardIndex) (count : Nat) : Option (PublishCore V N) :=
  if count = 0 then
    some core
  else do
    let shard := core.shards index
    let deliverableCount ← checkedSubOrAbort shard.deliverableCount count
    -- The source decrements the shared counter `count` times by one.
    let deliverablePending ← checkedSubOrAbort core.deliverablePending count
    some <| { core with
      deliverablePending
      readyShards :=
        if deliverableCount = 0 then core.readyShards &&& ~~~(BitVec.twoPow topicShards index)
        else core.readyShards
    }.setShard index { shard with deliverableCount }

def recordPendingInsert (index : ShardIndex) (deliverable : Bool) : PublishCore V N :=
  let core := { core with pendingUpdates := core.pendingUpdates + 1 }
  if deliverable then core.recordDeliverableIncrease index 1 else core

def recordPendingRemoval (index : ShardIndex) (deliverable : Bool) : Option (PublishCore V N) := do
  let pendingUpdates ← checkedAtomicDec core.pendingUpdates
  let core := { core with pendingUpdates }
  if deliverable then core.recordDeliverableDecrease index 1 else some core

/-- `remove_queued_if` followed by `record_pending_removal`: take a pending entry
that satisfies the predicate out of its table, drop its permit and count it. The
table's order is unspecified, so `pop` and `swap_remove` are both `erase`. -/
def removeQueuedIf (index : ShardIndex) (buffer : BufferIndex)
    (topicId : TopicId) (predicate : QueuedUpdate → Bool) (deliverable : Bool) :
    Option (PublishCore V N) :=
  let shard := core.shards index
  match (shard.pending buffer).lookup topicId with
  | none => some core
  | some queued =>
    if predicate queued then do
      let queuedUpdateQuota ← core.queuedUpdateQuota.releaseCount
      ({ core with queuedUpdateQuota }.setShard index
        (shard.setPending buffer ((shard.pending buffer).erase topicId))).recordPendingRemoval
          index deliverable
    else
      some core

def removePendingIf (index : ShardIndex) (buffer : BufferIndex)
    (topicId : TopicId) (predicate : QueuedUpdate → Bool) : Option (PublishCore V N) :=
  core.removeQueuedIf index buffer topicId predicate ((core.shards index).isCommitted topicId)

/-- Whether `retire_pending_through` empties a slot of the subscription. -/
def slotRetired (shard : TopicShard V) (active : ActiveSubscription V) (topicId : TopicId)
    (generation : ConnectionGeneration) (deliveredSequence : Nat) (buffer : BufferIndex) : Bool :=
  match active.values buffer with
  | .resident versioned =>
    versioned.generation = generation && versioned.sequence ≤ deliveredSequence &&
      (active.latestSlot ≠ some buffer) && ((shard.pending buffer).lookup topicId).isNone
  | _ => false

def retirePendingThrough (topicId : TopicId)
    (generation : ConnectionGeneration) (deliveredSequence : Nat) : Option (PublishCore V N) := do
  let index := shardIndex topicId
  let predicate := fun queued : QueuedUpdate =>
    queued.connectionGeneration = generation && queued.sequence ≤ deliveredSequence
  let core ← core.removePendingIf index .first topicId predicate
  let core ← core.removePendingIf index .second topicId predicate
  let shard := core.shards index
  match shard.activeByTopic.lookup topicId with
  | none => some core
  | some active =>
    some <| core.setShard index <| shard.setActive topicId
      { active with values := fun buffer =>
          if slotRetired shard active topicId generation deliveredSequence buffer then .empty
          else active.values buffer }

-- ---- Connections.

def reserveConnection (topicId : TopicId) (id : SubscriptionId)
    (generation : ConnectionGeneration) : PublishCore V N × Except XllError Unit :=
  let index := shardIndex topicId
  let shard := core.shards index
  match core.ensureOpen with
  | .error error => (core, .error error)
  | .ok () =>
    if (shard.activeByTopic.lookup topicId).isSome then
      (core, .error (.internal .topicIdDuplicate))
    else if (shard.topicById.lookup id).isSome then
      (core, .error (.internal .topicKeyDuplicate))
    else
      match core.activeQuota.acquireCount with
      | none => (core, .error .overloaded)
      | some activeQuota =>
        ({ core with activeQuota }.setShard index
          { shard with
            topicById := shard.topicById.insert id topicId
            activeByTopic := shard.activeByTopic.insert topicId
              { id, generation, committed := false, values := fun _ => .empty,
                latestSlot := none, nextSequence := 0 } }, .ok ())

/-- The newest pending sequence of a generation, as `install_connection` sees it. -/
def observedSequence (topicId : TopicId) (generation : ConnectionGeneration) : Option Nat :=
  let shard := core.shards (shardIndex topicId)
  let buffer := BufferIndex.fromEpoch core.publishEpoch
  ([buffer, buffer.other].filterMap fun buffer =>
    ((shard.pending buffer).lookup topicId).bind fun update =>
      if update.connectionGeneration = generation then some update.sequence else none).max?

/-- `default` stands for `StoredRtdValue::Empty`. -/
def installConnection [Inhabited V] (topicId : TopicId)
    (generation : ConnectionGeneration) : Except XllError (InstalledConnection V) :=
  match core.ensureOpen with
  | .error error => .error error
  | .ok () =>
    match (core.shards (shardIndex topicId)).activeByTopic.lookup topicId with
    | none => .error .closing
    | some active =>
      if active.generation ≠ generation then .error .closing
      else .ok ⟨active.latestValue.getD default, core.observedSequence topicId generation⟩

/-- How many buffers hold an update of this generation newer than the observed one. -/
def unobservedCount (shard : TopicShard V) (topicId : TopicId) (generation : ConnectionGeneration)
    (observed : Option Nat) : Nat :=
  BufferIndex.all.countP fun buffer =>
    ((shard.pending buffer).lookup topicId).any fun update =>
      update.connectionGeneration = generation && observed.all (· < update.sequence)

/-- Drop the pending updates the connecting caller has already seen. -/
def dropObserved (topicId : TopicId) (wasCommitted : Bool) : Option Nat → Option (PublishCore V N)
  | none => some core
  | some observed => do
    let index := shardIndex topicId
    let core ← core.removeQueuedIf index .first topicId (·.sequence ≤ observed) wasCommitted
    core.removeQueuedIf index .second topicId (·.sequence ≤ observed) wasCommitted

/-- The shard section of `commit_connection`. The result says whether a
deliverable update is pending, which the caller must then announce. -/
def commitConnection (topicId : TopicId)
    (generation : ConnectionGeneration) (observed : Option Nat) :
    Option (PublishCore V N × Except XllError Bool) :=
  let index := shardIndex topicId
  match (core.shards index).activeByTopic.lookup topicId with
  | none => some (core, .error .closing)
  | some active =>
    if active.generation ≠ generation then
      some (core, .error .closing)
    else do
      let core ← core.dropObserved topicId active.committed observed
      let shard := core.shards index
      let pendingCount := unobservedCount shard topicId generation observed
      let core := core.setShard index (shard.setActive topicId { active with committed := true })
      let core :=
        if active.committed = false then core.recordDeliverableIncrease index pendingCount
        else core
      some (core, .ok (pendingCount != 0))

/-- Forget an identity whose topic has no connection of another generation. -/
def forgetId (topicById : Table SubscriptionId TopicId)
    (activeByTopic : Table TopicId (ActiveSubscription V)) (generation : ConnectionGeneration)
    (id : SubscriptionId) : Table SubscriptionId TopicId :=
  if (topicById.lookup id).any fun topic =>
      (activeByTopic.lookup topic).all (·.generation = generation)
  then topicById.erase id else topicById

/-- The end of `rollback_connection`, after the pending entries have left: remove
the subscription if it is still the one of this generation. -/
def withdrawConnection (topicId : TopicId)
    (generation : ConnectionGeneration) (id : SubscriptionId) :
    Option (PublishCore V N × Bool) :=
  let index := shardIndex topicId
  let shard := core.shards index
  if (shard.activeByTopic.lookup topicId).any (·.generation = generation) then do
    let activeQuota ← core.activeQuota.releaseCount
    let activeByTopic := shard.activeByTopic.erase topicId
    let topicById := forgetId shard.topicById activeByTopic generation id
    some ({ core with activeQuota }.setShard index { shard with activeByTopic, topicById }, true)
  else
    let topicById := forgetId shard.topicById shard.activeByTopic generation id
    some (core.setShard index { shard with topicById }, false)

/-- Withdraw a connection that did not commit. The result says whether its
subscription was still the active one. -/
def rollbackConnection (topicId : TopicId)
    (generation : ConnectionGeneration) (id : SubscriptionId) :
    Option (PublishCore V N × Bool) := do
  let index := shardIndex topicId
  let predicate := fun update : QueuedUpdate => update.connectionGeneration = generation
  let core ← core.removePendingIf index .first topicId predicate
  let core ← core.removePendingIf index .second topicId predicate
  core.withdrawConnection topicId generation id

def disconnectConnection (topicId : TopicId) :
    Option (PublishCore V N × Except XllError (Option RetiredConnection)) :=
  let index := shardIndex topicId
  match core.ensureOpen with
  | .error error => some (core, .error error)
  | .ok () =>
    match (core.shards index).activeByTopic.lookup topicId with
    | none => some (core, .ok none)
    | some active => do
      let core ← core.removeQueuedIf index .first topicId (fun _ => true) active.committed
      let core ← core.removeQueuedIf index .second topicId (fun _ => true) active.committed
      let shard := core.shards index
      let activeQuota ← core.activeQuota.releaseCount
      some ({ core with activeQuota }.setShard index
        { shard with
          activeByTopic := shard.activeByTopic.erase topicId
          topicById := shard.topicById.erase active.id }, .ok (some ⟨active.id, active.generation⟩))

-- ---- Publication.

/-- Whether the value equals the resident latest one. -/
def isDuplicate [BEq V] (active : ActiveSubscription V) (value : V) : Bool :=
  match active.latestSlotState with
  | some (.resident latest) => latest.value == value
  | _ => false

/-- Queue a value under its sequence: an occupied pending entry is overwritten, a
vacant one needs a permit and is then counted. The value goes into the slot of
the buffer, which becomes the latest one. -/
def storeValue (buffer : BufferIndex) (topicId : TopicId)
    (active : ActiveSubscription V) (sequence : Nat) (value : V) : Option (PublishCore V N) :=
  let index := shardIndex topicId
  let shard := core.shards index
  let pending := (shard.pending buffer).insert topicId ⟨active.generation, sequence⟩
  let stored := (shard.setPending buffer pending).setActive topicId
    { active.setSlot buffer (.resident ⟨active.generation, sequence, value⟩) with
      latestSlot := some buffer }
  match (shard.pending buffer).lookup topicId with
  | some _ => some (core.setShard index stored)
  | none =>
    core.queuedUpdateQuota.acquireCount.map fun queuedUpdateQuota =>
      ({ core with queuedUpdateQuota }.setShard index stored).recordPendingInsert index
        active.committed

def commitValue [BEq V] (buffer : BufferIndex) (topicId : TopicId)
    (generation : ConnectionGeneration) (value : V) : PublishCore V N × CommitOutcome :=
  let index := shardIndex topicId
  match (core.shards index).activeByTopic.lookup topicId with
  | none => (core, .refused .closing)
  | some active =>
    if active.generation ≠ generation then
      (core, .refused .closing)
    else if isDuplicate active value then
      (core, .unchanged)
    else
      match active.allocateSequence with
      | .error error => (core, .refused error)
      | .ok (sequence, active) =>
        -- The sequence is spent even when the quota then refuses the entry.
        let core := core.setShard index ((core.shards index).setActive topicId active)
        match core.storeValue buffer topicId active sequence value with
        | none => (core, .refused .overloaded)
        | some core => (core, .accepted sequence active.committed)

-- ---- Refresh.

def planRefresh : PublishCore V N × Except XllError RefreshPlan :=
  match core.refresh.phase with
  | .refreshing _ => (core, .error (.internal .overlappedReference))
  | .betweenRefreshes _ =>
    let refreshId := core.refresh.nextRefreshId
    match checkedIncrement refreshId with
    | none => (core, .error (.internal .referenceOverflow))
    | some nextRefreshId =>
      let core := { core with refresh := { core.refresh with nextRefreshId } }
      match checkedIncrement core.publishEpoch with
      | none => (core, .error (.internal .referenceOverflow))
      | some epoch =>
        ({ core with
            publishEpoch := epoch
            refresh := { core.refresh with phase := .refreshing refreshId } },
          .ok ⟨refreshId, epoch, core.readyShards⟩)

/-- The queued update `collect_shard_into` selects for a topic of both tables. -/
def selectNewest (active : ActiveSubscription V) (topicId : TopicId) (queued₀ : QueuedUpdate)
    (queued₁ : Option QueuedUpdate) : Option CollectItem :=
  if active.committed = false then
    none
  else
    let deliverable₁ := queued₁.filter (·.connectionGeneration = active.generation)
    match decide (queued₀.connectionGeneration = active.generation), deliverable₁ with
    | true, some queued₁ =>
      if queued₀.sequence < queued₁.sequence then some ⟨.second, topicId, queued₁⟩
      else some ⟨.first, topicId, queued₀⟩
    | true, none => some ⟨.first, topicId, queued₀⟩
    | false, some queued₁ => some ⟨.second, topicId, queued₁⟩
    | false, none => none

/-- The entries the collection of a shard visits, in its three cases. Only value
slots change during the loop, so the selection reads the tables as they are. -/
def collectItems (shard : TopicShard V) : List CollectItem :=
  let p₀ := shard.pending .first
  let p₁ := shard.pending .second
  if p₁.entries.isEmpty then
    p₀.entries.map fun entry => ⟨.first, entry.1, entry.2⟩
  else if p₀.entries.isEmpty then
    p₁.entries.map fun entry => ⟨.second, entry.1, entry.2⟩
  else
    (p₀.entries.filterMap fun entry =>
      (shard.activeByTopic.lookup entry.1).bind fun active =>
        selectNewest active entry.1 entry.2 (p₁.lookup entry.1)) ++
    (p₁.entries.filter fun entry => (p₀.lookup entry.1).isNone).map fun entry =>
      ⟨.second, entry.1, entry.2⟩

/-- Move one resident value into the batch. -/
def pushDeliverable (activeByTopic : Table TopicId (ActiveSubscription V))
    (updates : List (RtdUpdate V)) (item : CollectItem) :
    Table TopicId (ActiveSubscription V) × List (RtdUpdate V) :=
  match activeByTopic.lookup item.topicId with
  | none => (activeByTopic, updates)
  | some active =>
    if active.committed = false || active.generation ≠ item.queued.connectionGeneration then
      (activeByTopic, updates)
    else
      match active.values item.buffer with
      | .resident versioned =>
        if versioned.generation ≠ item.queued.connectionGeneration ||
            versioned.sequence ≠ item.queued.sequence then
          (activeByTopic, updates)
        else
          (activeByTopic.insert item.topicId (active.setSlot item.buffer
              (.inFlight item.queued.connectionGeneration item.queued.sequence)),
            updates ++ [{ sequence := item.queued.sequence
                          topicId := item.topicId
                          connectionGeneration := item.queued.connectionGeneration
                          buffer := item.buffer
                          value := versioned.value }])
      | _ => (activeByTopic, updates)

/-- `collect_shard_into`. -/
def collectShard (index : ShardIndex) (updates : List (RtdUpdate V)) :
    PublishCore V N × List (RtdUpdate V) :=
  let shard := core.shards index
  if shard.deliverableCount = 0 then
    (core, updates)
  else
    let (activeByTopic, updates) := (collectItems shard).foldl
      (fun acc item => pushDeliverable acc.1 acc.2 item) (shard.activeByTopic, updates)
    (core.setShard index { shard with activeByTopic }, updates)

/-- Whether the slot of an update is still the one its batch owns. -/
def ownsSlot (active : ActiveSubscription V) (update : RtdUpdate V) : Bool :=
  active.generation = update.connectionGeneration &&
    match active.values update.buffer with
    | .inFlight generation sequence =>
      generation = update.connectionGeneration && sequence = update.sequence
    | _ => false

/-- Give an owned slot its value back, or release it where a newer value took over. -/
def restoreSlot (update : RtdUpdate V) (slot : ActiveSubscription V →
    ValueSlot V) : PublishCore V N :=
  let index := shardIndex update.topicId
  let shard := core.shards index
  match shard.activeByTopic.lookup update.topicId with
  | none => core
  | some active =>
    if ownsSlot active update then
      core.setShard index
        (shard.setActive update.topicId (active.setSlot update.buffer (slot active)))
    else
      core

/-- The value of an update, back in its slot. -/
def residentOf (update : RtdUpdate V) : ValueSlot V :=
  .resident ⟨update.connectionGeneration, update.sequence, update.value⟩

/-- One iteration of the completion loop of `complete_refresh_inner`. -/
def completeUpdate (outcome : RefreshOutcome) (update : RtdUpdate V) : Option (PublishCore V N) :=
  match outcome with
  | .delivered =>
    (core.restoreSlot update fun active =>
      if active.latestSlot = some update.buffer then residentOf update else .empty)
      |>.retirePendingThrough update.topicId update.connectionGeneration update.sequence
  | .failed => some (core.restoreSlot update fun _ => residentOf update)

-- ---- Termination.

/-- One iteration of the loop of `clear_pending`; clearing the tables drops their
permits. -/
def clearShard (index : ShardIndex) : Option (PublishCore V N) := do
  let shard := core.shards index
  let cleared := Table.size (shard.pending .first) + Table.size (shard.pending .second)
  let used ← checkedSubOrAbort core.queuedUpdateQuota.used cleared
  some <| { core with queuedUpdateQuota := { core.queuedUpdateQuota with used } }.setShard index
    { shard with pending := fun _ => ∅, deliverableCount := 0 }

end

end PublishCore

end Xlfn.Subscription
