import Xlfn.Lib.Table
import Xlfn.Kernel.Quota

/-!
# Xlfn — delivery data model of the subscription data plane

The types of `subscription/delivery.rs`: the two publication buffers, the value
slots of an active subscription, the shard tables, the refresh phase and the
notification signal, with the transitions that touch only this data.

A value type `V` stands for `StoredRtdValue` (compared with an arbitrary `==`,
since spreadsheet numbers are not reflexive under it) and `N` for the host's
notifier.

Left out: `recycled_updates`, which only returns an empty vector's capacity, and
the permits, which are counted by the quotas they were taken from.
-/

namespace Xlfn.Subscription

open Xlfn.Lib Xlfn.Kernel

-- ---- Identities and errors.

/-- The host's topic number. -/
structure TopicId where
  raw : Int32
deriving DecidableEq

/-- The runtime's subscription number. -/
structure SubscriptionId where
  raw : Nat
deriving DecidableEq

/-- Identity of one connection of a topic; never zero. -/
structure ConnectionGeneration where
  raw     : Nat
  nonZero : raw ≠ 0
deriving DecidableEq

/-- `ConnectionGeneration::new`. -/
def ConnectionGeneration.new (raw : Nat) : Option ConnectionGeneration :=
  if h : raw ≠ 0 then some ⟨raw, h⟩ else none

/-- The diagnostics the data plane reports. -/
inductive DiagnosticId
  | topicIdDuplicate
  | topicKeyDuplicate
  | referenceOverflow
  | overlappedReference
  | noReference
  | referenceIdMismatch
  | ticketOverflow
deriving DecidableEq

/-- The errors the data plane returns. -/
inductive XllError
  | closing
  | overloaded
  | internal (diagnosticId : DiagnosticId)
deriving DecidableEq

-- ---- Buffers, slots and subscriptions.

/-- The two publication buffers. -/
inductive BufferIndex
  | first
  | second
deriving DecidableEq

/-- `BufferIndex::ALL`. -/
def BufferIndex.all : List BufferIndex := [.first, .second]

/-- The buffer that publications of an epoch write to. -/
def BufferIndex.fromEpoch (epoch : Nat) : BufferIndex :=
  if epoch % 2 = 0 then .first else .second

/-- The buffer that publications of the neighbouring epochs write to. -/
def BufferIndex.other : BufferIndex → BufferIndex
  | .first => .second
  | .second => .first

structure VersionedRtdValue (V : Type) where
  generation : ConnectionGeneration
  sequence   : Nat
  value      : V

/-- A value slot. The batch of the running refresh owns the value of an
`inFlight` slot. -/
inductive ValueSlot (V : Type)
  | empty
  | resident (versioned : VersionedRtdValue V)
  | inFlight (generation : ConnectionGeneration) (sequence : Nat)

structure ActiveSubscription (V : Type) where
  id           : SubscriptionId
  generation   : ConnectionGeneration
  committed    : Bool
  values       : BufferIndex → ValueSlot V
  latestSlot   : Option BufferIndex
  nextSequence : Nat

variable {V N : Type}

section

variable (active : ActiveSubscription V)

/-- Take the next sequence number of this connection. -/
def ActiveSubscription.allocateSequence : Except XllError (Nat × ActiveSubscription V) :=
  match checkedIncrement active.nextSequence with
  | some next => .ok (active.nextSequence, { active with nextSequence := next })
  | none => .error (.internal .referenceOverflow)

def ActiveSubscription.latestSlotState : Option (ValueSlot V) :=
  active.latestSlot.map active.values

def ActiveSubscription.latestValue : Option V :=
  match active.latestSlotState with
  | some (.resident versioned) => some versioned.value
  | _ => none

/-- Write one value slot. -/
def ActiveSubscription.setSlot (buffer : BufferIndex) (slot : ValueSlot V) : ActiveSubscription V :=
  { active with values := Function.update active.values buffer slot }

end

structure QueuedUpdate where
  connectionGeneration : ConnectionGeneration
  sequence             : Nat
deriving DecidableEq

structure RtdUpdate (V : Type) where
  sequence             : Nat
  topicId              : TopicId
  connectionGeneration : ConnectionGeneration
  buffer               : BufferIndex
  value                : V

-- ---- Shards.

def topicShards : Nat := 32

instance : NeZero topicShards := ⟨by decide⟩

abbrev ShardIndex := Fin topicShards

/-- `(topic_id.0 as usize) & (TOPIC_SHARDS - 1)`: the cast sign-extends. -/
def shardIndex (topicId : TopicId) : ShardIndex :=
  Fin.ofNat topicShards ((topicId.raw.toBitVec.signExtend 64).toNat &&& (topicShards - 1))

structure TopicShard (V : Type) where
  activeByTopic    : Table TopicId (ActiveSubscription V)
  topicById        : Table SubscriptionId TopicId
  pending          : BufferIndex → Table TopicId QueuedUpdate
  deliverableCount : Nat

/-- `TopicShard::default`. -/
def TopicShard.default : TopicShard V where
  activeByTopic    := ∅
  topicById        := ∅
  pending          := fun _ => ∅
  deliverableCount := 0

/-- Whether a topic has a committed connection. -/
def TopicShard.isCommitted (shard : TopicShard V) (topicId : TopicId) : Bool :=
  (shard.activeByTopic.lookup topicId).any (·.committed)

/-- Write one pending table. -/
def TopicShard.setPending (shard : TopicShard V) (buffer : BufferIndex)
    (pending : Table TopicId QueuedUpdate) : TopicShard V :=
  { shard with pending := Function.update shard.pending buffer pending }

/-- Write one active subscription. -/
def TopicShard.setActive (shard : TopicShard V) (topicId : TopicId)
    (active : ActiveSubscription V) : TopicShard V :=
  { shard with activeByTopic := shard.activeByTopic.insert topicId active }

-- ---- The refresh phase and the notification signal.

structure RefreshPlan where
  refreshId       : Nat
  epoch           : Nat
  candidateShards : BitVec topicShards

inductive RefreshOutcome
  | delivered
  | failed
deriving DecidableEq

inductive SignalState
  | dormant
  | calling (ticket attempt : Nat)
  | signaled (ticket : Nat)
  | suppressed (ticket : Nat)
deriving DecidableEq

inductive DeliveryPhase
  | betweenRefreshes (signal : SignalState)
  | refreshing (refreshId : Nat)
deriving DecidableEq

structure RefreshState (N : Type) where
  nextRefreshId          : Nat
  nextNotificationTicket : Nat
  notifier               : Option N
  phase                  : DeliveryPhase

/-- `RefreshState::default`. -/
def RefreshState.default : RefreshState N where
  nextRefreshId          := 0
  nextNotificationTicket := 0
  notifier               := none
  phase                  := .betweenRefreshes .dormant

structure NotificationAttempt (N : Type) where
  ticket   : Nat
  notifier : N

structure PreparedNotification (N : Type) where
  ticket   : Nat
  notifier : N

section

variable (refresh : RefreshState N)

/-- Set the signal, where there is one: between refreshes. -/
def RefreshState.setSignal (signal : SignalState) : RefreshState N :=
  match refresh.phase with
  | .betweenRefreshes _ => { refresh with phase := .betweenRefreshes signal }
  | .refreshing _ => refresh

def RefreshState.ensureNotificationTicket : Except XllError Unit :=
  match checkedIncrement refresh.nextNotificationTicket with
  | some _ => .ok ()
  | none => .error (.internal .ticketOverflow)

def RefreshState.attachNotifier (notifier : N) : Option N × RefreshState N :=
  (refresh.notifier, { refresh with notifier := some notifier }.setSignal .dormant)

def RefreshState.detachNotifier : Option N × RefreshState N :=
  (refresh.notifier, { refresh with notifier := none }.setSignal .dormant)

def RefreshState.prepareNotification (hasPendingUpdates : Bool) :
    Except XllError (Option (PreparedNotification N)) :=
  if hasPendingUpdates = false then
    .ok none
  else
    match refresh.phase with
    | .betweenRefreshes .dormant =>
      match refresh.notifier with
      | some notifier =>
        match refresh.ensureNotificationTicket with
        | .ok () => .ok (some ⟨refresh.nextNotificationTicket, notifier⟩)
        | .error error => .error error
      | none => .ok none
    | _ => .ok none

def RefreshState.commitNotification (prepared : PreparedNotification N) :
    NotificationAttempt N × RefreshState N :=
  (⟨prepared.ticket, prepared.notifier⟩,
    { refresh with nextNotificationTicket := prepared.ticket + 1 }.setSignal
      (.calling prepared.ticket 0))

/-- `signal_for_ticket_mut`, then the match on `Calling` in
`finish_notification_attempt`: the attempt number of the call in progress. -/
def RefreshState.callingAttempt (ticket : Nat) : Option Nat :=
  match refresh.phase with
  | .betweenRefreshes (.calling t attempt) => if t = ticket then some attempt else none
  | _ => none

end

end Xlfn.Subscription
