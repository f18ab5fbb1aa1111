import Xlfn.Subscription.DataPlane

/-!
# Xlfn — notification authority of the publish core

`data_plane/notification.rs` and the refresh-lock sections that reserve a
notification: attaching and detaching the notifier, the heartbeat pulse, the
lock-free fast path and the slow path under the refresh lock, and the end of a
call of the host's notifier.
-/

namespace Xlfn.Subscription

open Xlfn.Lib Xlfn.Kernel

variable {V N : Type}

/-- What `finish_notification_attempt` tells the driving loop. -/
inductive NotificationCompletion (N : Type)
  | finished
  | retry (attempt : NotificationAttempt N)
  | failed

namespace PublishCore

section

variable (core : PublishCore V N)

/-- The slow path, under the refresh lock: reserve a notification and publish its
fast-path epoch together. -/
def prepareNotification (hasUpdates : Bool) :
    PublishCore V N × Except XllError (Option (NotificationAttempt N)) :=
  match core.refresh.prepareNotification hasUpdates with
  | .error error => (core, .error error)
  | .ok none => (core, .ok none)
  | .ok (some prepared) =>
    let (attempt, refresh) := core.refresh.commitNotification prepared
    ({ core with notifiedEpoch := core.publishEpoch, refresh }, .ok (some attempt))

/-- The fast path compares the epoch of the publication with `notified_epoch`
before it takes the refresh lock. -/
def prepareNotificationForKnownUpdate (epoch : Nat) :
    PublishCore V N × Except XllError (Option (NotificationAttempt N)) :=
  if core.notifiedEpoch = epoch then (core, .ok none) else core.prepareNotification true

/-- `attach_update_notifier`, its refresh-lock section. -/
def attachUpdateNotifier (notifier : N) :
    PublishCore V N × Except XllError (Option (NotificationAttempt N)) :=
  let core := { core with refresh := (core.refresh.attachNotifier notifier).2 }
  core.prepareNotification core.hasDeliverableUpdates

/-- `detach_update_notifier`. -/
def detachUpdateNotifier : PublishCore V N :=
  { core with refresh := core.refresh.detachNotifier.2 }

/-- `pulse_notification`, its refresh-lock section. -/
def pulseNotification : PublishCore V N × Except XllError (Option (NotificationAttempt N)) :=
  let hasUpdates := core.hasDeliverableUpdates
  let refresh :=
    match hasUpdates, core.refresh.phase with
    | true, .betweenRefreshes (.suppressed _) => core.refresh.setSignal .dormant
    | true, .betweenRefreshes (.signaled _) => core.refresh.setSignal .dormant
    | _, _ => core.refresh
  { core with refresh }.prepareNotification hasUpdates

/-- The end of one call of the host's notifier. -/
def finishNotificationAttempt (original : NotificationAttempt N)
    (succeeded : Bool) : PublishCore V N × NotificationCompletion N :=
  match core.refresh.callingAttempt original.ticket with
  | none => (core, .finished)
  | some attempt =>
    if succeeded then
      ({ core with refresh := core.refresh.setSignal (.signaled original.ticket) }, .finished)
    else if attempt < 2 then
      -- With the signal just set to `Calling`, the branch of the source that
      -- turns a suppressed signal dormant after a detach cannot apply.
      ({ core with refresh := core.refresh.setSignal (.calling original.ticket (attempt + 1)) },
        match core.refresh.notifier with
        | some notifier => .retry { original with notifier }
        | none => .failed)
    else
      ({ core with refresh := core.refresh.setSignal (.suppressed original.ticket) }, .failed)

-- ---- The refresh-lock sections of refresh completion.

/-- The opening section of `complete_refresh_inner`: the refresh must be the
running one; the flag says whether the ticket counter is exhausted. -/
def checkRefresh (refreshId : Nat) : Except XllError Bool :=
  match core.refresh.phase with
  | .betweenRefreshes _ => .error (.internal .noReference)
  | .refreshing activeId =>
    if activeId ≠ refreshId then .error (.internal .referenceIdMismatch)
    else
      match core.refresh.ensureNotificationTicket with
      | .ok () => .ok false
      | .error _ => .ok true

/-- The closing section of `complete_refresh_inner`. -/
def finishRefresh (refreshId : Nat) (ticketError : Bool) :
    PublishCore V N × Except XllError (Option (NotificationAttempt N)) :=
  match core.refresh.phase with
  | .betweenRefreshes _ => (core, .error (.internal .noReference))
  | .refreshing activeId =>
    if activeId ≠ refreshId then (core, .error (.internal .referenceIdMismatch))
    else
      let core :=
        { core with refresh := { core.refresh with phase := .betweenRefreshes .dormant } }
      if ticketError then (core, .error (.internal .ticketOverflow))
      else core.prepareNotification core.hasDeliverableUpdates

/-- `abort_refresh_no_unwind` of a plan that collected nothing. -/
def abortEmptyRefresh (refreshId : Nat) : PublishCore V N × Option (NotificationAttempt N) :=
  match core.refresh.phase with
  | .betweenRefreshes _ => (core, none)
  | .refreshing activeId =>
    if activeId ≠ refreshId then (core, none)
    else
      let core :=
        { core with refresh := { core.refresh with phase := .betweenRefreshes .dormant } }
      match core.prepareNotification core.hasDeliverableUpdates with
      | (core, .ok attempt) => (core, attempt)
      | (core, .error _) => (core, none)

end

end PublishCore

end Xlfn.Subscription
