import Xlfn.Subscription.CatalogRuntime
import Xlfn.Subscription.Machine

/-!
# Xlfn — one connection, from its request to its commit

`connect_from_handle` of `subscription/runtime.rs`, the stages of its
`ConnectionTransaction` and the two ways a transaction ends, `commit` and `rollback`.
The call works on the data plane of its server, on the server's map of live
subscriptions and on the catalog of the runtime.

A step is one critical section of the call or one answer it waits for. A stage that
fails drops the transaction, so it goes on to the rollback. Between two steps of the
call the other threads may publish through the call's own sink, close the server and
move the epochs and the refresh state in any way; they leave the other tables alone,
so that what the call itself leaves behind can be compared with what it found.

* `ConnectStage` — where the call stands, with the values it holds there.
* `ConnectFailure` — at which stage it failed, with what it returns.
* `ConnectSystem.step` — the sections, one for each stage.

Left out: the diagnostics of a cleanup that fails, and the shutdown trace.
-/

namespace Xlfn.Subscription

open Xlfn.Lib Xlfn.Kernel

/-- The arguments of a call, with the generation of its server. -/
structure ConnectCall where
  server  : ServerGeneration
  topicId : TopicId
  id      : SubscriptionId

/-- What `SourceSubscription::subscribe` did, under `catch_unwind`. -/
inductive SubscribeResult (O E : Type)
  | subscribed (subscription : O)
  | rejected (error : E)
  | panicked

/-- What the host's `notify` did. -/
inductive NotifyOutcome
  | succeeded
  | failed
  | unwound
deriving DecidableEq

/-- The stage a call failed at, and its error. -/
inductive ConnectFailure (E : Type)
  /-- Before the catalog reserved anything. -/
  | refused (error : CatalogError)
  | publication (error : XllError)
  | cleanup (error : E)
  | source (error : E)
  | sourcePanicked
  /-- `none` is `XllError::Closing`. -/
  | installation (error : Option E)
  | commit (error : XllError)
  /-- The caller rolled the connection back, or dropped it. -/
  | abandoned
  | notifierPanicked
deriving DecidableEq

/-- A refused installation reports the error of its rollback, unless it has its own. -/
def ConnectFailure.afterRollback {E : Type} (failure : ConnectFailure E) (rollback : Option E) :
    ConnectFailure E :=
  match failure with
  | .installation error => .installation (error.or rollback)
  | failure => failure

/-- The state of a call. A `ticket` is the obligation of its `ConnectionReservation`. -/
inductive ConnectStage (V N O E : Type)
  | called
  | allocated (connection : ConnectionGeneration)
  | catalogReserved (ticket : ConnectionTicket)
  | publishReserved (ticket : ConnectionTicket)
  /-- The cleanup is reserved and the sink exists. -/
  | prepared (ticket : ConnectionTicket)
  | subscribed (ticket : ConnectionTicket) (subscription : O)
  | installed (ticket : ConnectionTicket) (connection : InstalledConnection V)
  /-- `commit_connection` of the data plane has released its shard. -/
  | announcing (ticket : ConnectionTicket) (epoch : Nat) (hasPending : Bool)
  /-- The fast path did not apply. -/
  | preparing (ticket : ConnectionTicket)
  | finishing (ticket : ConnectionTicket) (attempt : Option (NotificationAttempt N))
  | driving (ticket : ConnectionTicket) (attempt : NotificationAttempt N)
  | committed
  /-- The transaction was dropped; the flag is `HAS_PUBLICATION` of its stage. -/
  | rollingBack (ticket : ConnectionTicket) (published : Bool) (failure : ConnectFailure E)
  /-- `rollback_connection` is through with the data plane. -/
  | unbound (ticket : ConnectionTicket) (subscription : Option O) (failure : ConnectFailure E)
  | disconnecting (subscription : O) (failure : ConnectFailure E)
  | failed (failure : ConnectFailure E)
  /-- A `fail_stop`. -/
  | aborted

structure ConnectSystem (S T V N O E : Type) [DecidableEq S] where
  core                     : PublishCore V N
  subscriptions            : Table TopicId O
  catalog                  : SubscriptionCatalog S T
  nextConnectionGeneration : Nat
  sink                     : Option PublishSink
  stage                    : ConnectStage V N O E

inductive ConnectAction (V N O E : Type)
  | enter (admitted : Bool)
  | reserveCatalog
  | reservePublication
  | reserveCleanup (refusal : Option E)
  | subscribe (result : SubscribeResult O E)
  /-- The result of disconnecting the subscription, if it is refused. -/
  | install (cleanup : Option E)
  | abandon
  | commitPublication
  | announce
  | prepare
  | finishCatalog
  | notify (outcome : NotifyOutcome)
  | unbind
  | settle
  | disconnect (result : Option E)
  /-- The sink publishes a value. -/
  | publish (buffer : BufferIndex) (value : V)
  | close
  | control (publishEpoch notifiedEpoch : Nat) (refresh : RefreshState N)

namespace ConnectSystem

variable {S T V N O E : Type} [DecidableEq S]

section

variable (s : ConnectSystem S T V N O E)

def moveTo (stage : ConnectStage V N O E) : ConnectSystem S T V N O E :=
  { s with stage }

/-- The transaction is dropped. -/
def rollBack (ticket : ConnectionTicket) (published : Bool)
    (failure : ConnectFailure E) : ConnectSystem S T V N O E :=
  s.moveTo (.rollingBack ticket published failure)

/-- A section under the lock of the catalog. -/
def locked {R : Type}
    (outcome : Option (SubscriptionCatalog S T × R)) (next : R → ConnectStage V N O E) :
    ConnectSystem S T V N O E :=
  match outcome with
  | some (catalog, result) => { s with catalog, stage := next result }
  | none => s.moveTo .aborted

-- ---- `connect_from_handle`.

/-- `enter_owned_operation` and the allocation of the generation. -/
def enter (admitted : Bool) : ConnectSystem S T V N O E :=
  if admitted then
    match checkedIncrement s.nextConnectionGeneration,
      ConnectionGeneration.new s.nextConnectionGeneration with
    | some next, some connection =>
      { s with nextConnectionGeneration := next, stage := .allocated connection }
    | some next, none =>
      { s with
        nextConnectionGeneration := next
        stage                    := .failed (.refused (.internal .rtdSubscriptionOverflow)) }
    | none, _ => s.moveTo (.failed (.refused (.internal .rtdSubscriptionOverflow)))
  else s.moveTo (.failed (.refused .closing))

/-- The section of the catalog that installs the ticket. -/
def reserveCatalog (call : ConnectCall) (resolves : S → Bool) (s : ConnectSystem S T V N O E)
    (connection : ConnectionGeneration) [TopicMetadata T] :
    ConnectSystem S T V N O E :=
  s.locked (s.catalog.withEntry call.id
      (SubscriptionEntry.connectFrom resolves ⟨call.server, connection⟩)) fun result =>
    match result with
    | some (.ok ticket) => .catalogReserved ticket
    | some (.error error) => .failed (.refused error)
    | none => .failed (.refused .closing)

def reservePublication (call : ConnectCall) (s : ConnectSystem S T V N O E)
    (ticket : ConnectionTicket) : ConnectSystem S T V N O E :=
  match s.core.reserveConnection call.topicId call.id ticket.connection with
  | (core, .ok ()) => { s with core, stage := .publishReserved ticket }
  | (core, .error error) => { s with core }.rollBack ticket false (.publication error)

/-- `disconnects.reserve()` and `publish_sink`. -/
def reserveCleanup (call : ConnectCall) (s : ConnectSystem S T V N O E) (ticket : ConnectionTicket)
    (refusal : Option E) : ConnectSystem S T V N O E :=
  match refusal with
  | some error => s.rollBack ticket true (.cleanup error)
  | none =>
    { s with sink := some ⟨call.topicId, ticket.connection⟩, stage := .prepared ticket }

def subscribe (ticket : ConnectionTicket)
    (result : SubscribeResult O E) : ConnectSystem S T V N O E :=
  match result with
  | .subscribed subscription => s.moveTo (.subscribed ticket subscription)
  | .rejected error => s.rollBack ticket true (.source error)
  | .panicked => s.rollBack ticket true .sourcePanicked

/-- `install`. A refused subscription is disconnected before the rollback. -/
def install [Inhabited V] (call : ConnectCall) (s : ConnectSystem S T V N O E)
    (ticket : ConnectionTicket) (subscription : O) (cleanup : Option E) :
    ConnectSystem S T V N O E :=
  match s.core.installConnection call.topicId ticket.connection with
  | .ok connection =>
    { s with
      subscriptions := s.subscriptions.insert call.topicId subscription
      stage         := .installed ticket connection }
  | .error _ => s.rollBack ticket true (.installation cleanup)

-- ---- `commit`.

/-- The section of the data plane of `commit_connection`. -/
def commitPublication (call : ConnectCall) (s : ConnectSystem S T V N O E)
    (ticket : ConnectionTicket) (observed : Option Nat) : ConnectSystem S T V N O E :=
  match s.core.ensureOpen with
  | .error error => s.rollBack ticket true (.commit error)
  | .ok () =>
    match s.core.commitConnection call.topicId ticket.connection observed with
    | none => s.moveTo .aborted
    | some (core, .error error) => { s with core }.rollBack ticket true (.commit error)
    | some (core, .ok hasPending) =>
      { s with core, stage := .announcing ticket s.core.publishEpoch hasPending }

/-- The fast path of the notification. -/
def announce (ticket : ConnectionTicket) (epoch : Nat)
    (hasPending : Bool) : ConnectSystem S T V N O E :=
  if hasPending && s.core.notifiedEpoch != epoch then s.moveTo (.preparing ticket)
  else s.moveTo (.finishing ticket none)

/-- The slow path of the notification. -/
def prepare (ticket : ConnectionTicket) : ConnectSystem S T V N O E :=
  match s.core.prepareNotification true with
  | (core, .error error) => { s with core }.rollBack ticket true (.commit error)
  | (core, .ok attempt) => { s with core, stage := .finishing ticket attempt }

/-- The section of the catalog of `commit_connection`. -/
def finishCatalog (call : ConnectCall) (s : ConnectSystem S T V N O E) (ticket : ConnectionTicket)
    (attempt : Option (NotificationAttempt N)) [TopicMetadata T] :
    ConnectSystem S T V N O E :=
  s.locked (s.catalog.withEntry call.id (SubscriptionEntry.finishConnection ticket)) fun result =>
    if result = some true then
      match attempt with
      | none => .committed
      | some attempt => .driving ticket attempt
    else .rollingBack ticket true (.commit .closing)

/-- One turn of `drive`. A panic of the notifier unwinds through `commit`, which still
owns its transaction. -/
def notify (ticket : ConnectionTicket)
    (attempt : NotificationAttempt N) (outcome : NotifyOutcome) : ConnectSystem S T V N O E :=
  if outcome = .unwound then s.rollBack ticket true .notifierPanicked
  else
    match s.core.finishNotificationAttempt attempt (outcome = .succeeded) with
    | (core, .retry attempt) => { s with core, stage := .driving ticket attempt }
    | (core, _) => { s with core, stage := .committed }

-- ---- `rollback`.

/-- The section of `rollback_connection` under the lock of the subscriptions. -/
def unbind (call : ConnectCall) (s : ConnectSystem S T V N O E) (ticket : ConnectionTicket)
    (failure : ConnectFailure E) : ConnectSystem S T V N O E :=
  match s.core.rollbackConnection call.topicId ticket.connection call.id with
  | none => s.moveTo .aborted
  | some (core, true) =>
    { s with
      core
      subscriptions := s.subscriptions.erase call.topicId
      stage         := .unbound ticket (s.subscriptions.lookup call.topicId) failure }
  | some (core, false) => { s with core, stage := .unbound ticket none failure }

/-- `rollback_catalog_connection_reservation`. -/
def settleReservation (call : ConnectCall) (s : ConnectSystem S T V N O E)
    (ticket : ConnectionTicket) (failure : ConnectFailure E) [TopicMetadata T] :
    ConnectSystem S T V N O E :=
  s.locked (s.catalog.settle call.id
    (SubscriptionEntry.rollbackCatalogConnectionReservation ticket)) fun _ => .failed failure

/-- The section of `rollback_connection` under the lock of the catalog. -/
def settlePublished (call : ConnectCall) (s : ConnectSystem S T V N O E)
    (ticket : ConnectionTicket) (subscription : Option O) (failure : ConnectFailure E)
    [TopicMetadata T] : ConnectSystem S T V N O E :=
  s.locked (s.catalog.settle call.id (SubscriptionEntry.rollbackPublished ticket)) fun _ =>
    match subscription with
    | none => .failed (failure.afterRollback none)
    | some subscription => .disconnecting subscription failure

-- ---- The machine.

/-- A publication through the sink of the call, under the lock of its shard. -/
def publish [BEq V] (sink : PublishSink) (buffer : BufferIndex)
    (value : V) : ConnectSystem S T V N O E :=
  { s with
    core := (s.core.commitValue buffer sink.topicId sink.connectionGeneration value).1 }

end

def step [TopicMetadata T] [BEq V] [Inhabited V] (call : ConnectCall)
    (resolves : S → Bool) (s : ConnectSystem S T V N O E) (action : ConnectAction V N O E) :
    Option (ConnectSystem S T V N O E) :=
  match action, s.stage with
  | .enter admitted, .called => some (s.enter admitted)
  | .reserveCatalog, .allocated connection => some (s.reserveCatalog call resolves connection)
  | .reservePublication, .catalogReserved ticket => some (s.reservePublication call ticket)
  | .reserveCleanup refusal, .publishReserved ticket => some (s.reserveCleanup call ticket refusal)
  | .subscribe result, .prepared ticket => some (s.subscribe ticket result)
  | .install cleanup, .subscribed ticket subscription =>
    some (s.install call ticket subscription cleanup)
  | .abandon, .installed ticket _ => some (s.rollBack ticket true .abandoned)
  | .commitPublication, .installed ticket connection =>
    some (s.commitPublication call ticket connection.observedSequence)
  | .announce, .announcing ticket epoch hasPending => some (s.announce ticket epoch hasPending)
  | .prepare, .preparing ticket => some (s.prepare ticket)
  | .finishCatalog, .finishing ticket attempt => some (s.finishCatalog call ticket attempt)
  | .notify outcome, .driving ticket attempt => some (s.notify ticket attempt outcome)
  | .unbind, .rollingBack ticket true failure => some (s.unbind call ticket failure)
  | .settle, .rollingBack ticket false failure => some (s.settleReservation call ticket failure)
  | .settle, .unbound ticket subscription failure =>
    some (s.settlePublished call ticket subscription failure)
  | .disconnect result, .disconnecting _ failure =>
    some (s.moveTo (.failed (failure.afterRollback result)))
  | .publish buffer value, _ => s.sink.map fun sink => s.publish sink buffer value
  | .close, _ => some { s with core := { s.core with lifecycle := .closing } }
  | .control publishEpoch notifiedEpoch refresh, _ =>
    some { s with core := { s.core with publishEpoch, notifiedEpoch, refresh } }
  | _, _ => none

end ConnectSystem

end Xlfn.Subscription
