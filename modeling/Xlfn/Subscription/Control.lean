import Xlfn.Subscription.Accounting

/-!
# Xlfn — what each refresh-lock section does

The sections under the refresh lock change the epochs, the refresh phase and the
notification signal and leave the shards and their accounting alone (`SameData`).
Of the control data the invariants read three things:

* `RefreshState.running?` — the refresh that is out;
* `RefreshState.idle` — a notification can be reserved: between refreshes, with a
  dormant signal and a notifier;
* the two epochs, which the fast path compares.
-/

namespace Xlfn.Subscription

open Xlfn.Lib Xlfn.Kernel RefreshState

variable {V N : Type} {slack : Slack} {core core' : PublishCore V N}

/-- The refresh that is running. -/
def RefreshState.running? (refresh : RefreshState N) : Option Nat :=
  match refresh.phase with
  | .refreshing refreshId => some refreshId
  | .betweenRefreshes _ => none

/-- The slow path would reserve a notification for a known update. -/
def RefreshState.idle (refresh : RefreshState N) : Bool :=
  refresh.phase = .betweenRefreshes .dormant && refresh.notifier.isSome

/-- Everything but the epochs and the refresh state is untouched. -/
structure SameData (core core' : PublishCore V N) : Prop where
  lifecycle   : core'.lifecycle = core.lifecycle
  shards      : core'.shards = core.shards
  pending     : core'.pendingUpdates = core.pendingUpdates
  deliverable : core'.deliverablePending = core.deliverablePending
  ready       : core'.readyShards = core.readyShards
  activeQuota : core'.activeQuota = core.activeQuota
  queuedQuota : core'.queuedUpdateQuota = core.queuedUpdateQuota

theorem SameData.refl (core : PublishCore V N) : SameData core core :=
  ⟨rfl, rfl, rfl, rfl, rfl, rfl, rfl⟩

theorem SameData.trans {c₁ c₂ c₃ : PublishCore V N} (h : SameData c₁ c₂) (h' : SameData c₂ c₃) :
    SameData c₁ c₃ :=
  ⟨h'.lifecycle.trans h.lifecycle, h'.shards.trans h.shards, h'.pending.trans h.pending,
    h'.deliverable.trans h.deliverable, h'.ready.trans h.ready,
    h'.activeQuota.trans h.activeQuota, h'.queuedQuota.trans h.queuedQuota⟩

/-- Control steps keep the core well formed. -/
theorem CoreWf.sameData (h : CoreWf slack core) (hdata : SameData core core') :
    CoreWf slack core' :=
  h.congr hdata.shards hdata.pending hdata.deliverable hdata.activeQuota hdata.queuedQuota
    hdata.ready

theorem SameData.withRefresh (core : PublishCore V N) (refresh : RefreshState N) :
    SameData core { core with refresh } :=
  ⟨rfl, rfl, rfl, rfl, rfl, rfl, rfl⟩

-- ---- The signal.

variable {refreshId : Nat}

namespace RefreshState

variable (refresh : RefreshState N)

theorem running?_setSignal (signal : SignalState) :
    (refresh.setSignal signal).running? = refresh.running? := by
  unfold setSignal running?
  cases hphase : refresh.phase with
  | betweenRefreshes signal' => rfl
  | refreshing refreshId => simp only [hphase]

theorem idle_setSignal {signal : SignalState} (h : signal ≠ .dormant)
    (hidle : refresh.idle = false) :
    (refresh.setSignal signal).idle = false := by
  unfold setSignal
  cases hphase : refresh.phase with
  | refreshing refreshId => exact hidle
  | betweenRefreshes signal' => simp [idle, h]

/-- A running refresh is a signal. -/
theorem not_idle_of_running (h : refresh.running? = some refreshId) : refresh.idle = false := by
  unfold running? at h
  split at h
  · next hphase => simp [idle, hphase]
  · cases h

/-- The phase of a running refresh. -/
theorem phase_of_running (h : refresh.running? = some refreshId) :
    refresh.phase = .refreshing refreshId := by
  unfold running? at h
  split at h
  · next hphase =>
    cases h
    exact hphase
  · cases h

theorem phase_of_not_running (h : refresh.running? = none) :
    ∃ signal, refresh.phase = .betweenRefreshes signal := by
  unfold running? at h
  split at h
  · cases h
  · next signal hphase => exact ⟨signal, hphase⟩

/-- A ticket is left. -/
theorem ensureNotificationTicket_ok (h : refresh.nextNotificationTicket < u64Max) :
    refresh.ensureNotificationTicket = .ok () := by
  rw [ensureNotificationTicket, checkedIncrement, if_pos h]

end RefreshState

-- ---- Reserving a notification.

/-- What reserving a notification does to the core: nothing, or the signal is
taken and the fast path is told the current epoch. -/
inductive Prepared (core : PublishCore V N) (hasUpdates : Bool) (core' : PublishCore V N) : Prop
  | kept (hcore : core' = core)
      (hwhy : hasUpdates = false ∨ core.refresh.idle = false ∨
        ¬core.refresh.nextNotificationTicket < u64Max)
  | reserved (hdata : SameData core core') (hepoch : core'.publishEpoch = core.publishEpoch)
      (hnotified : core'.notifiedEpoch = core.publishEpoch)
      (hidle : core.refresh.idle = true) (hidle' : core'.refresh.idle = false)
      (hrunning : core'.refresh.running? = none)

namespace PublishCore

/-- A signal that is out is not reserved again. -/
theorem prepareNotification_of_not_idle (h : core.refresh.idle = false) :
    core.prepareNotification true = (core, .ok none) := by
  have hnone : core.refresh.prepareNotification true = .ok none := by
    unfold RefreshState.prepareNotification
    simp only [Bool.true_eq_false, if_false]
    split
    · next hphase =>
      have hnotifier : core.refresh.notifier = none := by
        simpa [idle, hphase] using h
      rw [hnotifier]
    · rfl
  unfold prepareNotification
  rw [hnone]

/-- **The slow path.** -/
theorem prepareNotification_spec (core : PublishCore V N) (hasUpdates : Bool) :
    Prepared core hasUpdates (core.prepareNotification hasUpdates).1 := by
  cases hasUpdates with
  | false => exact .kept rfl (.inl rfl)
  | true =>
    cases hidle : core.refresh.idle with
    | false =>
      rw [prepareNotification_of_not_idle hidle]
      exact .kept rfl (.inr (.inl hidle))
    | true =>
      have hcond := hidle
      rw [RefreshState.idle, Bool.and_eq_true, decide_eq_true_eq] at hcond
      obtain ⟨hphase, hsome⟩ := hcond
      obtain ⟨notifier, hnotifier⟩ := Option.isSome_iff_exists.mp hsome
      by_cases hticket : core.refresh.nextNotificationTicket < u64Max
      · have hok := core.refresh.ensureNotificationTicket_ok hticket
        simp only [prepareNotification, RefreshState.prepareNotification, hphase, hnotifier, hok,
          Bool.true_eq_false, if_false, RefreshState.commitNotification, RefreshState.setSignal]
        refine .reserved ⟨rfl, rfl, rfl, rfl, rfl, rfl, rfl⟩ rfl rfl hidle ?_ rfl
        simp [RefreshState.idle]
      · have herror : core.refresh.ensureNotificationTicket =
            .error (.internal .ticketOverflow) := by
          rw [RefreshState.ensureNotificationTicket, checkedIncrement, if_neg hticket]
        simp only [prepareNotification, RefreshState.prepareNotification, hphase, hnotifier, herror,
          Bool.true_eq_false, if_false]
        exact .kept rfl (.inr (.inr hticket))

end PublishCore

variable {hasUpdates : Bool}

theorem Prepared.sameData (h : Prepared core hasUpdates core') : SameData core core' := by
  cases h with
  | kept hcore _ => exact hcore ▸ SameData.refl core
  | reserved hdata _ _ _ _ _ => exact hdata

theorem Prepared.publishEpoch (h : Prepared core hasUpdates core') :
    core'.publishEpoch = core.publishEpoch := by
  cases h with
  | kept hcore _ => rw [hcore]
  | reserved _ hepoch _ _ _ _ => exact hepoch

theorem Prepared.running (h : Prepared core hasUpdates core') :
    core'.refresh.running? = core.refresh.running? := by
  cases h with
  | kept hcore _ => rw [hcore]
  | reserved _ _ _ hidle _ hrunning =>
    rw [hrunning]
    cases hphase : core.refresh.running? with
    | none => rfl
    | some refreshId =>
      rw [core.refresh.not_idle_of_running hphase] at hidle
      cases hidle

/-- After the slow path nothing is left to reserve for a known update, unless the
ticket counter is exhausted. -/
theorem Prepared.not_idle (h : Prepared core hasUpdates core') (hupdates : hasUpdates = true)
    (hticket : core.refresh.nextNotificationTicket < u64Max) : core'.refresh.idle = false := by
  cases h with
  | kept hcore hwhy =>
    subst hcore
    rcases hwhy with hfalse | hidle | hover
    · rw [hupdates] at hfalse
      cases hfalse
    · exact hidle
    · exact absurd hticket hover
  | reserved _ _ _ _ hidle' _ => exact hidle'

-- ---- The other sections.

/-- A section under the refresh lock: some rewriting of the refresh state that
keeps the running refresh, then possibly a reservation. -/
structure Rewritten (core core' : PublishCore V N) : Prop where
  data    : SameData core core'
  epoch   : core'.publishEpoch = core.publishEpoch
  running : core'.refresh.running? = core.refresh.running?

theorem Rewritten.prepared {refresh : RefreshState N}
    (hrunning : refresh.running? = core.refresh.running?)
    (h : Prepared { core with refresh } hasUpdates core') : Rewritten core core' where
  data := (SameData.withRefresh core refresh).trans h.sameData
  epoch := h.publishEpoch
  running := h.running.trans hrunning

namespace PublishCore

/-- A reservation rewrites control data only. -/
theorem prepareNotification_rewritten (core : PublishCore V N) (hasUpdates : Bool) :
    Rewritten core (core.prepareNotification hasUpdates).1 :=
  .prepared (show core.refresh.running? = _ from rfl) (core.prepareNotification_spec hasUpdates)

/-- Attaching a notifier reserves a signal at once. -/
theorem attachUpdateNotifier_spec (core : PublishCore V N) (notifier : N) :
    Prepared { core with refresh := (core.refresh.attachNotifier notifier).2 }
      core.hasDeliverableUpdates (core.attachUpdateNotifier notifier).1 :=
  prepareNotification_spec _ _

theorem attachUpdateNotifier_rewritten (core : PublishCore V N) (notifier : N) :
    Rewritten core (core.attachUpdateNotifier notifier).1 := by
  refine .prepared ?_ (core.attachUpdateNotifier_spec notifier)
  exact running?_setSignal ..

theorem detachUpdateNotifier_rewritten (core : PublishCore V N) :
    Rewritten core core.detachUpdateNotifier where
  data := SameData.withRefresh core _
  epoch := rfl
  running := running?_setSignal ..

/-- A detached notifier leaves nothing to announce. -/
theorem detachUpdateNotifier_not_idle (core : PublishCore V N) :
    core.detachUpdateNotifier.refresh.idle = false := by
  have hnotifier : core.detachUpdateNotifier.refresh.notifier = none := by
    unfold detachUpdateNotifier detachNotifier setSignal
    cases core.refresh.phase <;> rfl
  simp [idle, hnotifier]

/-- A pulse reserves for what is deliverable. -/
theorem pulseNotification_spec (core : PublishCore V N) :
    ∃ refresh : RefreshState N, refresh.running? = core.refresh.running? ∧
      refresh.nextNotificationTicket = core.refresh.nextNotificationTicket ∧
      (core.hasDeliverableUpdates = false → refresh = core.refresh) ∧
      Prepared { core with refresh } core.hasDeliverableUpdates core.pulseNotification.1 := by
  have hticket : ∀ signal, (core.refresh.setSignal signal).nextNotificationTicket =
      core.refresh.nextNotificationTicket := by
    intro signal
    unfold setSignal
    cases core.refresh.phase <;> rfl
  unfold pulseNotification
  dsimp only
  refine ⟨_, ?_, ?_, ?_, prepareNotification_spec _ _⟩
  · split
    · exact running?_setSignal ..
    · exact running?_setSignal ..
    · rfl
  · split
    · exact hticket .dormant
    · exact hticket .dormant
    · rfl
  · intro hnone
    rw [hnone]

theorem pulseNotification_rewritten (core : PublishCore V N) :
    Rewritten core core.pulseNotification.1 := by
  obtain ⟨refresh, hrunning, -, -, hprepared⟩ := core.pulseNotification_spec
  exact .prepared hrunning hprepared

/-- The end of an attempt leaves a signal out. -/
theorem finishNotificationAttempt_spec (core : PublishCore V N) (original : NotificationAttempt N)
    (succeeded : Bool) :
    Rewritten core (core.finishNotificationAttempt original succeeded).1 ∧
      (core.finishNotificationAttempt original succeeded).1.notifiedEpoch = core.notifiedEpoch ∧
      (core.refresh.idle = false →
        (core.finishNotificationAttempt original succeeded).1.refresh.idle = false) ∧
      (core.refresh.idle = true →
        (core.finishNotificationAttempt original succeeded).1 = core) := by
  have hwrite : ∀ signal : SignalState, signal ≠ .dormant →
      Rewritten core { core with refresh := core.refresh.setSignal signal } ∧
        (core.refresh.idle = false → (core.refresh.setSignal signal).idle = false) := by
    intro signal hsignal
    exact ⟨⟨SameData.withRefresh core _, rfl, running?_setSignal ..⟩,
      core.refresh.idle_setSignal hsignal⟩
  unfold finishNotificationAttempt
  cases hcalling : core.refresh.callingAttempt original.ticket with
  | none => exact ⟨⟨SameData.refl core, rfl, rfl⟩, rfl, id, fun _ => rfl⟩
  | some attempt =>
    have hnot : core.refresh.idle = false := by
      unfold callingAttempt at hcalling
      split at hcalling
      · next hphase => simp [idle, hphase]
      · cases hcalling
    have habsurd : ∀ P : Prop, core.refresh.idle = true → P := by
      intro P hidle
      rw [hnot] at hidle
      cases hidle
    dsimp only
    split
    · obtain ⟨h₁, h₂⟩ := hwrite (.signaled original.ticket) (by simp)
      exact ⟨h₁, rfl, h₂, habsurd _⟩
    · split
      · obtain ⟨h₁, h₂⟩ := hwrite (.calling original.ticket (attempt + 1)) (by simp)
        exact ⟨h₁, rfl, h₂, habsurd _⟩
      · obtain ⟨h₁, h₂⟩ := hwrite (.suppressed original.ticket) (by simp)
        exact ⟨h₁, rfl, h₂, habsurd _⟩

/-- **Planning a refresh** is refused while one is running, fails without a trace
that matters when a counter is exhausted, or moves to the next epoch. -/
theorem planRefresh_spec {result : Except XllError RefreshPlan}
    (h : core.planRefresh = (core', result)) :
    SameData core core' ∧ core'.notifiedEpoch = core.notifiedEpoch ∧
      core'.refresh.nextNotificationTicket = core.refresh.nextNotificationTicket ∧
      ((∃ error, result = .error error ∧ core'.publishEpoch = core.publishEpoch ∧
          core'.refresh.phase = core.refresh.phase ∧
          core'.refresh.notifier = core.refresh.notifier) ∨
        ∃ plan, result = .ok plan ∧ core.refresh.running? = none ∧
          core'.refresh.running? = some plan.refreshId ∧
          core'.publishEpoch = core.publishEpoch + 1) := by
  unfold planRefresh at h
  split at h
  · cases h
    exact ⟨SameData.refl core, rfl, rfl, .inl ⟨_, rfl, rfl, rfl, rfl⟩⟩
  · next signal hphase =>
    have hrunning : core.refresh.running? = none := by
      unfold running?
      rw [hphase]
    dsimp only at h
    split at h
    · cases h
      exact ⟨SameData.refl core, rfl, rfl, .inl ⟨_, rfl, rfl, rfl, rfl⟩⟩
    · split at h
      · cases h
        exact ⟨SameData.withRefresh core _, rfl, rfl, .inl ⟨_, rfl, rfl, rfl, rfl⟩⟩
      · next epoch hepoch =>
        cases h
        obtain ⟨rfl, -⟩ := checkedIncrement_eq_some hepoch
        exact ⟨⟨rfl, rfl, rfl, rfl, rfl, rfl, rfl⟩, rfl, rfl, .inr ⟨_, rfl, hrunning, rfl, rfl⟩⟩

/-- The check of the running refresh says whether a ticket is left. -/
theorem checkRefresh_of_running (h : core.refresh.running? = some refreshId) :
    core.checkRefresh refreshId = .ok (!decide (core.refresh.nextNotificationTicket < u64Max)) := by
  rw [checkRefresh, core.refresh.phase_of_running h]
  dsimp only
  rw [if_neg (not_not.mpr rfl), ensureNotificationTicket, checkedIncrement]
  by_cases hticket : core.refresh.nextNotificationTicket < u64Max
  · rw [if_pos hticket]
    simp [hticket]
  · rw [if_neg hticket]
    simp [hticket]

/-- The core between two refreshes, as the end of a refresh leaves it. -/
def betweenRefreshes (core : PublishCore V N) : PublishCore V N :=
  { core with refresh := { core.refresh with phase := .betweenRefreshes .dormant } }

/-- **The end of the running refresh** goes back between refreshes and reserves a
notification for what is left. -/
theorem finishRefresh_spec (h : core.refresh.running? = some refreshId) (ticketError : Bool) :
    (ticketError = true ∧ (core.finishRefresh refreshId ticketError).1 = core.betweenRefreshes) ∨
      (ticketError = false ∧ Prepared core.betweenRefreshes core.hasDeliverableUpdates
        (core.finishRefresh refreshId ticketError).1) := by
  unfold finishRefresh
  rw [core.refresh.phase_of_running h]
  dsimp only
  rw [if_neg (not_not.mpr rfl)]
  cases ticketError with
  | true => exact .inl ⟨rfl, rfl⟩
  | false => exact .inr ⟨rfl, prepareNotification_spec _ _⟩

/-- An empty refresh ends with a reservation. -/
theorem abortEmptyRefresh_spec (h : core.refresh.running? = some refreshId) :
    Prepared core.betweenRefreshes core.hasDeliverableUpdates
      (core.abortEmptyRefresh refreshId).1 := by
  unfold abortEmptyRefresh
  rw [core.refresh.phase_of_running h]
  dsimp only
  rw [if_neg (not_not.mpr rfl)]
  have hspec := prepareNotification_spec core.betweenRefreshes
    core.betweenRefreshes.hasDeliverableUpdates
  unfold betweenRefreshes at hspec ⊢
  split
  · next heq => rwa [heq] at hspec
  · next heq => rwa [heq] at hspec

/-- Ending a refresh leaves the data alone, whether or not it was the running one. -/
theorem finishRefresh_data (core : PublishCore V N) (refreshId : Nat) (ticketError : Bool) :
    SameData core (core.finishRefresh refreshId ticketError).1 := by
  unfold finishRefresh
  split
  · exact SameData.refl core
  · dsimp only
    split
    · exact SameData.refl core
    · split
      · exact SameData.withRefresh core _
      · exact (SameData.withRefresh core _).trans (prepareNotification_spec _ _).sameData

theorem abortEmptyRefresh_data (core : PublishCore V N) (refreshId : Nat) :
    SameData core (core.abortEmptyRefresh refreshId).1 := by
  unfold abortEmptyRefresh
  split
  · exact SameData.refl core
  · dsimp only
    split
    · exact SameData.refl core
    · have hspec := (SameData.withRefresh core
          { core.refresh with phase := .betweenRefreshes .dormant }).trans
        (prepareNotification_spec _ core.betweenRefreshes.hasDeliverableUpdates).sameData
      split
      · next heq =>
        change SameData core _ at hspec
        unfold betweenRefreshes at hspec
        rwa [heq] at hspec
      · next heq =>
        unfold betweenRefreshes at hspec
        rwa [heq] at hspec

end PublishCore

end Xlfn.Subscription
