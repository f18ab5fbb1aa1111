import Xlfn.Subscription.Ordering

/-!
# Xlfn — the notification fast path

A publisher skips the refresh lock when `notified_epoch` equals the epoch of its
publication. `Awake` says that this is right: where the fast path skips, the slow path
would find nothing to reserve, and a deliverable update that could be announced now has
an operation on its way to announce it.

The code keeps `Awake` except in the steps `NotifyOk` excludes:

* `attach_update_notifier` makes the signal dormant without touching the epoch. With no
  deliverable update it reserves nothing, and the next publication of the same epoch
  is skipped (`reattach_skips_notification`).
* A refresh that is planned and completed while a publisher holds its shard lock moves
  on from the epoch the publisher checked; the publisher then compares a stale epoch.
* The initial `notified_epoch`, the largest number, could become a real epoch, and the
  ticket counter could be exhausted.
-/

namespace Xlfn.Subscription

open Xlfn.Lib Xlfn.Kernel Option PublishCore RefreshState SameControl

variable {V N : Type} {s s' : State V N} {action : Action V N}

-- ---- The condition.

/-- The epoch an operation is about to commit a value under. -/
def Operation.commitEpoch? : Operation V N → Option Nat
  | .publish _ _ (.locked epoch) => some epoch
  | .publishBatch _ _ _ (.locked epoch) => some epoch
  | .connecting _ (.committing _ epoch) => some epoch
  | _ => none

/-- The next step of the operation keeps the fast path in sync with the signal. -/
def State.notifies (s : State V N) (o : Operation V N) : Bool :=
  match o with
  | .request (.attach _) =>
    !(decide (s.core.notifiedEpoch = s.core.publishEpoch) &&
      s.core.refresh.running?.isNone && decide (s.core.deliverablePending = 0))
  | .request .planRefresh => decide (s.core.publishEpoch + 1 ≠ s.core.notifiedEpoch)
  | o => o.commitEpoch?.all fun epoch =>
    !(decide (s.core.notifiedEpoch = epoch) && s.core.refresh.idle)

/-- The operation an action advances. -/
def Action.advances? : Action V N → Option Nat
  | .advance op _ => some op
  | _ => none

/-- The condition on the state before a step. -/
def NotifyOk (s : State V N) (action : Action V N) : Prop :=
  s.core.refresh.nextNotificationTicket < u64Max ∧
    (action.advances?.bind s.operations.lookup).all s.notifies = true

instance (s : State V N) (action : Action V N) : Decidable (NotifyOk s action) :=
  inferInstanceAs (Decidable (_ ∧ _))

variable {op : Nat} {o : Operation V N}

/-- The condition, for the operation that moves. -/
theorem NotifyOk.notifies (h : NotifyOk s action) (haction : ∃ choice, action = .advance op choice)
    (ho : s.operations.lookup op = some o) : s.notifies o = true := by
  obtain ⟨choice, rfl⟩ := haction
  have hall := h.2
  rw [Action.advances?, bind_some, ho] at hall
  exact hall

-- ---- The invariant.

/-- Some operation is on its way to the slow path. -/
def HasDue (s : State V N) : Prop :=
  ∃ k o, s.operations.lookup k = some o ∧ o.due s.core.notifiedEpoch = true

/-- The epochs of the core are in sync with its signal. -/
structure InSync (core : PublishCore V N) : Prop where
  fast       : core.notifiedEpoch = core.publishEpoch → core.refresh.idle = false
  refreshing : core.refresh.running? ≠ none → core.notifiedEpoch ≠ core.publishEpoch

/-- **The fast path never skips what the slow path would announce.** -/
structure Awake (s : State V N) : Prop where
  sync       : InSync s.core
  due        : s.core.deliverablePending ≠ 0 → s.core.refresh.idle = true → HasDue s
  completing : ∀ batch outcome ticketError, s.batch = some batch →
    batch.stage = .completing outcome ticketError → ticketError = false

variable {core core' : PublishCore V N}

/-- The epochs are control data. -/
theorem InSync.of_control (h : InSync core) (hcontrol : SameControl core core') : InSync core' := by
  constructor
  · rw [hcontrol.notifiedEpoch, hcontrol.publishEpoch, hcontrol.refresh]
    exact h.fast
  · rw [hcontrol.notifiedEpoch, hcontrol.publishEpoch, hcontrol.refresh]
    exact h.refreshing

/-- A reservation leaves the epochs in sync if they were, or if it is for an update. -/
theorem Prepared.inSync {hasUpdates : Bool} (h : Prepared core hasUpdates core')
    (hrefreshing : core.refresh.running? ≠ none → core.notifiedEpoch ≠ core.publishEpoch)
    (hfast : core.notifiedEpoch = core.publishEpoch → core.refresh.idle = false ∨
      (hasUpdates = true ∧ core.refresh.nextNotificationTicket < u64Max)) : InSync core' := by
  have hprepared := h
  cases h with
  | kept hcore _ =>
    subst hcore
    refine ⟨?_, hrefreshing⟩
    intro heq
    rcases hfast heq with hidle | ⟨hupdates, hticket⟩
    · exact hidle
    · exact hprepared.not_idle hupdates hticket
  | reserved _ _ _ _ hidle' hrunning =>
    exact ⟨fun _ => hidle', fun hrun => absurd hrunning hrun⟩

/-- No operation has moved. -/
theorem HasDue.of_ops (h : HasDue s) (hops : s'.operations = s.operations)
    (hnotified : s'.core.notifiedEpoch = s.core.notifiedEpoch) : HasDue s' := by
  obtain ⟨k, o, ho, hdue⟩ := h
  refine ⟨k, o, ?_, ?_⟩
  · rw [hops]
    exact ho
  · rw [hnotified]
    exact hdue

/-- The operation that moved was not the one on its way. -/
theorem HasDue.of_change {before after : Option (Operation V N)} (h : HasDue s)
    (hop : OpChange s s' op before after) (hbefore : ∀ o ∈ before, ∀ n, o.due n = false)
    (hnotified : s'.core.notifiedEpoch = s.core.notifiedEpoch) : HasDue s' := by
  obtain ⟨k, o, ho, hdue⟩ := h
  refine ⟨k, o, ?_, ?_⟩
  · rw [hop.after k, if_neg, ho]
    intro hk
    rw [hk, hop.before] at ho
    rw [hbefore o ho] at hdue
    cases hdue
  · rw [hnotified]
    exact hdue

/-- A step that leaves the control data alone and adds no deliverable update. -/
theorem Awake.keep (h : Awake s) (hcontrol : SameControl s.core s'.core)
    (hdeliverable : s'.core.deliverablePending ≤ s.core.deliverablePending)
    (hdue : HasDue s → HasDue s')
    (hbatch : ∀ batch outcome ticketError, s'.batch = some batch →
      batch.stage = .completing outcome ticketError → ticketError = false) : Awake s' where
  sync := h.sync.of_control hcontrol
  due := by
    intro hne hidle
    rw [hcontrol.refresh] at hidle
    exact hdue (h.due (by omega) hidle)
  completing := hbatch

theorem Awake.batch_of_eq (h : Awake s) (hbatch : s'.batch = s.batch) :
    ∀ batch outcome ticketError, s'.batch = some batch →
      batch.stage = .completing outcome ticketError → ticketError = false := by
  rw [hbatch]
  exact h.completing

/-- Such a step of an operation that was not on its way to the slow path. -/
theorem Awake.keep_change {before after : Option (Operation V N)} (h : Awake s)
    (hcontrol : SameControl s.core s'.core)
    (hdeliverable : s'.core.deliverablePending ≤ s.core.deliverablePending)
    (hop : OpChange s s' op before after) (hbefore : ∀ o ∈ before, ∀ n, o.due n = false)
    (hbatch : s'.batch = s.batch) : Awake s' :=
  h.keep hcontrol hdeliverable (fun hdue => hdue.of_change hop hbefore hcontrol.notifiedEpoch)
    (h.batch_of_eq hbatch)

/-- Such a step that moves no operation. -/
theorem Awake.keep_ops (h : Awake s) (hcontrol : SameControl s.core s'.core)
    (hdeliverable : s'.core.deliverablePending ≤ s.core.deliverablePending)
    (hops : s'.operations = s.operations) (hbatch : s'.batch = s.batch) : Awake s' :=
  h.keep hcontrol hdeliverable (fun hdue => hdue.of_ops hops hcontrol.notifiedEpoch)
    (h.batch_of_eq hbatch)

/-- A step after which a signal is out. -/
theorem Awake.not_idle (h : Awake s) (hsync : InSync s'.core)
    (hidle : s'.core.deliverablePending ≠ 0 → s'.core.refresh.idle = false)
    (hbatch : s'.batch = s.batch) : Awake s' where
  sync := hsync
  due := by
    intro hne hidle'
    rw [hidle hne] at hidle'
    cases hidle'
  completing := h.batch_of_eq hbatch

/-- The end of a refresh announces what it has left. -/
theorem Awake.ended (h : Awake s) {refreshId : Nat}
    (hrunning : s.core.refresh.running? = some refreshId)
    (hticket : s.core.refresh.nextNotificationTicket < u64Max)
    (hprepared : Prepared s.core.betweenRefreshes s.core.hasDeliverableUpdates s'.core)
    (hbatch : s'.batch = none) : Awake s' where
  sync := by
    have hne : s.core.notifiedEpoch ≠ s.core.publishEpoch := by
      refine h.sync.refreshing ?_
      rw [hrunning]
      exact some_ne_none _
    refine hprepared.inSync (fun hrun => absurd rfl hrun) ?_
    intro heq
    exact absurd heq hne
  due := by
    intro hne hidle
    have hsame : s'.core.deliverablePending = s.core.deliverablePending :=
      hprepared.sameData.deliverable
    have hupdates : s.core.hasDeliverableUpdates = true := by
      rw [hasDeliverableUpdates, ← hsame]
      simpa using hne
    rw [hprepared.not_idle hupdates hticket] at hidle
    cases hidle
  completing := by
    intro batch outcome ticketError hsome
    rw [hbatch] at hsome
    cases hsome

-- ---- One step.

/-- A publication that adds no deliverable update, or has one to announce. -/
theorem CommitValueCase.deliverable {b : BufferIndex} {t : TopicId}
    {generation : ConnectionGeneration} {value : V} {outcome : CommitOutcome}
    (h : CommitValueCase core core' b t generation value outcome) :
    core'.deliverablePending = core.deliverablePending ∨ outcome.result = .ok true := by
  cases h with
  | refused error hcore | duplicate hcore => exact .inl (by rw [hcore])
  | overloaded a _ hcore => exact .inl (by rw [hcore]; rfl)
  | accepted a _ _ hstored =>
    cases hc : a.committed with
    | false => exact .inl (hstored.deliverable hc)
    | true => exact .inr rfl

/-- An operation that commits under an epoch the fast path would skip finds nothing to
announce: the condition. -/
theorem NotifyOk.commit {epoch : Nat} (h : NotifyOk s action)
    (haction : ∃ choice, action = .advance op choice) (ho : s.operations.lookup op = some o)
    (hepoch : o.commitEpoch? = some epoch) (hidle : s.core.refresh.idle = true) :
    s.core.notifiedEpoch ≠ epoch := by
  intro heq
  have hnotifies := h.notifies haction ho
  unfold State.notifies at hnotifies
  split at hnotifies
  · cases hepoch
  · cases hepoch
  · rw [hepoch, all_some, hidle, heq] at hnotifies
    simp at hnotifies

/-- A commit that makes an update deliverable leaves an operation to announce it. -/
theorem Awake.announce (h : Awake s) {epoch : Nat} {o' : Option (Operation V N)}
    (hok : NotifyOk s action) (haction : ∃ choice, action = .advance op choice)
    (hop : OpChange s s' op (some o) o') (hepoch : o.commitEpoch? = some epoch)
    (hcontrol : SameControl s.core s'.core)
    (hannounced : s'.core.notifiedEpoch = epoch ∨ ∃ after, o' = some (.notifying epoch after))
    (hbatch : s'.batch = s.batch) : Awake s' where
  sync := h.sync.of_control hcontrol
  due := by
    intro _ hidle
    rw [hcontrol.refresh] at hidle
    have hne := hok.commit haction hop.before hepoch hidle
    rcases hannounced with hskip | ⟨after, rfl⟩
    · rw [hcontrol.notifiedEpoch] at hskip
      exact absurd hskip hne
    · refine ⟨op, .notifying epoch after, ?_, ?_⟩
      · rw [hop.after op, if_pos rfl]
      · rw [hcontrol.notifiedEpoch]
        simpa [Operation.due] using hne.symm
  completing := h.batch_of_eq hbatch

/-- **One step on an open server keeps the fast path in sync**, under the condition. -/
theorem Awake.step [BEq V] (h : Awake s) (hwf : Accounted s) (hordered : Ordered s)
    (hok : NotifyOk s action) (hopen : s.core.lifecycle = .opened)
    (heffect : Effect s action s') : Awake s' := by
  have hterm := hwf.lifecycle.mp hopen
  have hticket := hok.1
  have hdeliverable : ∀ {core' : PublishCore V N},
      core'.deliverablePending = s.core.deliverablePending → core'.deliverablePending ≠ 0 →
      s.core.hasDeliverableUpdates = true := by
    intro core' hsame hne
    rw [hasDeliverableUpdates, ← hsame]
    simpa using hne
  cases heffect with
  | progress op o o' hframe hcore hbatch hhistory hop hprogress =>
    refine h.keep (hcore ▸ refl _) (by rw [hcore]) ?_ (h.batch_of_eq hbatch)
    rintro ⟨k, p, hp, hdue⟩
    by_cases hk : k = op
    · subst hk
      rw [hop.before] at hp
      cases hp
      obtain ⟨p', hp', hdue'⟩ := hprogress.due hdue
      refine ⟨k, p', ?_, ?_⟩
      · rw [hop.after k, if_pos rfl]
        exact hp'
      · rw [hcore]
        exact hdue'
    · refine ⟨k, p, ?_, ?_⟩
      · rw [hop.after k, if_neg hk]
        exact hp
      · rw [hcore]
        exact hdue
  | admitted op o hframe hcore hbatch hhistory hop _
  | connected op c hframe hcore hbatch hhistory hop _ =>
    refine h.keep_change (hcore ▸ refl _) (by rw [hcore]) hop ?_ hbatch
    intro o ho
    cases ho
  | installed op c a hframe hcore hbatch hhistory _ _ hop =>
    refine h.keep_change (hcore ▸ refl _) (by rw [hcore]) hop ?_ hbatch
    intro o ho n
    cases ho
    rfl
  | published op o o' sink value epoch outcome haction hframe hbatch hvalue hhistory hop hlocked _
      hannounced =>
    obtain ⟨-, hcase⟩ := commitValue_spec hwf.core (BufferIndex.fromEpoch epoch) sink.topicId
      sink.connectionGeneration value
    rw [hvalue] at hcase
    rcases hcase.deliverable with hsame | hresult
    · refine h.keep_change hcase.control hsame.le hop ?_ hbatch
      intro p hp n
      cases hp
      rcases hlocked with ⟨v, rfl⟩ | ⟨v, rest, rfl⟩ <;> rfl
    · refine h.announce hok haction hop ?_ hcase.control (hannounced hresult) hbatch
      rcases hlocked with ⟨v, rfl⟩ | ⟨v, rest, rfl⟩ <;> rfl
  | reserved op c o' hframe hbatch hhistory result hreserve hop _ =>
    have hsame : SameControl s.core s'.core ∧
        s'.core.deliverablePending = s.core.deliverablePending := by
      rcases hwf.core.reserved hreserve with hcore | ⟨-, hreserved⟩
      · exact ⟨hcore ▸ refl _, by rw [hcore]⟩
      · exact ⟨hreserved.control, hreserved.deliverable⟩
    refine h.keep_change hsame.1 hsame.2.le hop ?_ hbatch
    intro o ho n
    cases ho
    rfl
  | committed op c observed epoch o' result haction hframe hbatch hcommit hhistory hop _ _
      hannounced =>
    have hbefore : ∀ p ∈ some (Operation.connecting c (.committing observed epoch) :
        Operation V N), ∀ n, p.due n = false := by
      intro p hp n
      cases hp
      rfl
    rcases hwf.core.committed hcommit with
      ⟨error, hcore, -⟩ | ⟨hasPending, a, rfl, -, -, -, hcommitted, hless⟩
    · exact h.keep_change (hcore ▸ refl _) (by rw [hcore]) hop hbefore hbatch
    · cases hasPending with
      | false => exact h.keep_change hcommitted.control (hless rfl) hop hbefore hbatch
      | true =>
        exact h.announce hok haction hop rfl hcommitted.control
          (.inr ⟨_, congrArg some (hannounced rfl)⟩) hbatch
  | rolledBack op c removed hframe hbatch hhistory hrollback hop =>
    obtain ⟨-, hwithdrawn⟩ := hwf.rolledBack hop.before hrollback
    refine h.keep_change hwithdrawn.control hwithdrawn.deliverable hop ?_ hbatch
    intro o ho n
    cases ho
    rfl
  | prepared op after o' hframe hcore hbatch hhistory hop _ _ =>
    have hprepared := s.core.prepareNotification_spec true
    rw [← hcore] at hprepared
    exact h.not_idle (hprepared.inSync h.sync.refreshing fun heq => .inl (h.sync.fast heq))
      (fun _ => hprepared.not_idle rfl hticket) hbatch
  | attached op notifier o' haction hframe hcore hbatch hhistory hop _ =>
    have hprepared := s.core.attachUpdateNotifier_spec notifier
    rw [← hcore] at hprepared
    have hrunning : (s.core.refresh.attachNotifier notifier).2.running? =
        s.core.refresh.running? := running?_setSignal ..
    have hticket' : (s.core.refresh.attachNotifier notifier).2.nextNotificationTicket < u64Max := by
      have hsame : (s.core.refresh.attachNotifier notifier).2.nextNotificationTicket =
          s.core.refresh.nextNotificationTicket := by
        unfold attachNotifier setSignal
        cases s.core.refresh.phase <;> rfl
      rw [hsame]
      exact hticket
    refine h.not_idle (hprepared.inSync ?_ ?_) ?_ hbatch
    · intro hrun
      rw [hrunning] at hrun
      exact h.sync.refreshing hrun
    · intro heq
      cases hphase : s.core.refresh.running? with
      | some refreshId =>
        exact .inl (not_idle_of_running _ (hrunning.trans hphase))
      | none =>
        -- Between refreshes the condition says that there is something to announce.
        right
        have hnotifies := hok.notifies haction hop.before
        have heq' : s.core.notifiedEpoch = s.core.publishEpoch := heq
        refine ⟨?_, hticket'⟩
        simpa [State.notifies, hphase, heq', hasDeliverableUpdates] using hnotifies
    · intro hne
      exact hprepared.not_idle (hdeliverable hprepared.sameData.deliverable hne) hticket'
  | pulsed op o' haction hframe hcore hbatch hhistory hop _ =>
    obtain ⟨refresh, hrunning, hsame, hunchanged, hprepared⟩ := s.core.pulseNotification_spec
    rw [← hcore] at hprepared
    have hticket' : refresh.nextNotificationTicket < u64Max := hsame ▸ hticket
    refine h.not_idle (hprepared.inSync ?_ ?_) ?_ hbatch
    · intro hrun
      rw [hrunning] at hrun
      exact h.sync.refreshing hrun
    · intro heq
      cases hupdates : s.core.hasDeliverableUpdates with
      | true => exact .inr ⟨rfl, hticket'⟩
      | false =>
        left
        rw [hunchanged hupdates]
        exact h.sync.fast heq
    · intro hne
      exact hprepared.not_idle (hdeliverable hprepared.sameData.deliverable hne) hticket'
  | planned op result haction hframe hplan hbatch hhistory hop =>
    obtain ⟨hdata, hnotified, -, ⟨error, rfl, hpublish, hphase, hnotifier⟩ |
      ⟨plan, rfl, hidle, hrunning, hpublish⟩⟩ := planRefresh_spec hplan
    · have hsame : s'.core.refresh.idle = s.core.refresh.idle := by
        unfold idle
        rw [hphase, hnotifier]
      have hrun : s'.core.refresh.running? = s.core.refresh.running? := by
        unfold running?
        rw [hphase]
      refine ⟨⟨?_, ?_⟩, ?_, h.batch_of_eq hbatch⟩
      · rw [hnotified, hpublish, hsame]
        exact h.sync.fast
      · rw [hnotified, hpublish, hrun]
        exact h.sync.refreshing
      · rw [hdata.deliverable, hsame]
        intro hne hidle
        refine (h.due hne hidle).of_change hop ?_ hnotified
        intro o ho n
        cases ho
        rfl
    · have hidle' := s'.core.refresh.not_idle_of_running hrunning
      have hnotifies := hok.notifies haction hop.before
      refine ⟨⟨fun _ => hidle', ?_⟩, ?_, ?_⟩
      · intro _ heq
        rw [hnotified, hpublish] at heq
        simp [State.notifies, heq] at hnotifies
      · intro _ hcontra
        rw [hidle'] at hcontra
        cases hcontra
      · intro batch outcome ticketError hsome hstage
        rw [hbatch] at hsome
        cases hsome
        cases hstage
  | driven op attempt after succeeded o' hframe hcore hbatch hhistory hop _ _ =>
    obtain ⟨hrewritten, hnotified, hstays, hsame⟩ :=
      s.core.finishNotificationAttempt_spec attempt succeeded
    rw [← hcore] at hrewritten hnotified hstays hsame
    refine ⟨⟨?_, ?_⟩, ?_, h.batch_of_eq hbatch⟩
    · rw [hnotified, hrewritten.epoch]
      exact fun heq => hstays (h.sync.fast heq)
    · rw [hnotified, hrewritten.epoch, hrewritten.running]
      exact h.sync.refreshing
    · intro hne hidle'
      rw [hrewritten.data.deliverable] at hne
      cases hidle : s.core.refresh.idle with
      | false =>
        rw [hstays hidle] at hidle'
        cases hidle'
      | true =>
        refine (h.due hne hidle).of_change hop ?_ hnotified
        intro o ho n
        cases ho
        rfl
  | disconnected t result hframe hbatch hhistory hdisconnect hops =>
    rcases (hwf.core.disconnected hdisconnect).2 with hcore | hwithdrawn
    · exact h.keep_ops (hcore ▸ refl _) (by rw [hcore]) hops hbatch
    · exact h.keep_ops hwithdrawn.control hwithdrawn.deliverable hops hbatch
  | detached hcore hbatch hhistory hops hframe =>
    have hidle := s.core.detachUpdateNotifier_not_idle
    have hrewritten := s.core.detachUpdateNotifier_rewritten
    rw [← hcore] at hidle hrewritten
    refine h.not_idle ⟨fun _ => hidle, ?_⟩ (fun _ => hidle) hbatch
    rw [hrewritten.running, hrewritten.epoch, hcore]
    exact h.sync.refreshing
  | collected batch index remaining hframe hbefore hstage hcore hbatch hhistory hops =>
    obtain ⟨-, hcontrol, hsame⟩ := collectShard_wf (i := index) hwf.core batch.updates
    rw [← hcore] at hcontrol hsame
    refine h.keep hcontrol hsame.le (fun hdue => hdue.of_ops hops hcontrol.notifiedEpoch) ?_
    intro batch' outcome ticketError hsome hcompleting
    rw [hbatch] at hsome
    cases hsome
    cases hcompleting
  | completing batch remaining outcome ticketError hframe hbefore hstage hcheck hcore hbatch
      hhistory hops =>
    have hrunning := hordered.running
    rw [hbefore, map_some] at hrunning
    refine h.keep (hcore ▸ refl _) (by rw [hcore])
      (fun hdue => hdue.of_ops hops (by rw [hcore])) ?_
    intro batch' outcome' ticketError' hsome hcompleting
    rw [hbatch] at hsome
    cases hsome
    cases hcompleting
    rw [checkRefresh_of_running hrunning] at hcheck
    rw [← Except.ok.inj hcheck]
    simp [hticket]
  | mismatched batch error hframe hbefore hcheck =>
    exact absurd hcheck (hordered.not_mismatched hbefore error)
  | abandoned batch op o' hframe hbefore hempty hcore hbatch hhistory hop _ =>
    have hrunning := hordered.running
    rw [hbefore, map_some] at hrunning
    exact h.ended hrunning hticket (hcore ▸ abortEmptyRefresh_spec hrunning) hbatch
  | completed batch updates update outcome ticketError hframe hbefore hstage hupdates hcomplete
      hbatch hhistory hops =>
    obtain ⟨core', heq, -, hcontrol, hless⟩ := completeUpdate_spec hwf.core outcome update
    rw [hcomplete] at heq
    cases heq
    refine h.keep hcontrol hless (fun hdue => hdue.of_ops hops hcontrol.notifiedEpoch) ?_
    intro batch' outcome' ticketError' hsome hcompleting
    rw [hbatch] at hsome
    cases hsome
    exact h.completing batch outcome' ticketError' hbefore hcompleting
  | refreshed batch outcome ticketError op o' hframe hbefore hstage hempty hcore hbatch hhistory hop
      _ =>
    have hrunning := hordered.running
    rw [hbefore, map_some] at hrunning
    rcases finishRefresh_spec hrunning ticketError with ⟨hexhausted, -⟩ | ⟨-, hprepared⟩
    · rw [h.completing batch outcome ticketError hbefore hstage] at hexhausted
      cases hexhausted
    · exact h.ended hrunning hticket (hcore ▸ hprepared) hbatch
  | closing next gateOpen hnext hframe hbatch hhistory hops =>
    have hcontrol : s'.core.notifiedEpoch = s.core.notifiedEpoch ∧
        s'.core.publishEpoch = s.core.publishEpoch ∧ s'.core.refresh = s.core.refresh ∧
        s'.core.deliverablePending = s.core.deliverablePending := by
      rcases hnext with ⟨-, -, heq⟩ | ⟨-, -, heq⟩ <;> rw [heq] <;> exact ⟨rfl, rfl, rfl, rfl⟩
    obtain ⟨h₁, h₂, h₃, h₄⟩ := hcontrol
    refine ⟨⟨?_, ?_⟩, ?_, h.batch_of_eq hbatch⟩
    · rw [h₁, h₂, h₃]
      exact h.sync.fast
    · rw [h₁, h₂, h₃]
      exact h.sync.refreshing
    · rw [h₃, h₄]
      exact fun hne hidle => (h.due hne hidle).of_ops hops h₁
  | cleared _ _ _ hclearing | resetPending _ _ _ hclearing | resetDeliverable _ hclearing
  | resetReady hclearing | finished hclearing =>
    rw [hclearing] at hterm
    cases hterm
  | foreignActive _ _ _ _ hcore hbatch _ hops | foreignQueued _ _ _ _ hcore hbatch _ hops =>
    have hcontrol : SameControl s.core s'.core := by
      rw [hcore]
      exact ⟨rfl, rfl, rfl, rfl⟩
    exact h.keep_ops hcontrol (by rw [hcore]) hops hbatch
  | foreignGeneration hframe hcore hbatch hhistory hops =>
    exact h.keep_ops (hcore ▸ refl _) (by rw [hcore]) hops hbatch
  | aborted _ hsection => exact absurd hsection hwf.no_abort

-- ---- Runs.

theorem Awake.init (activeQuota queuedUpdateQuota : Quota) (nextGeneration : Nat) :
    Awake (State.init activeQuota queuedUpdateQuota nextGeneration : State V N) where
  sync := by
    constructor
    · intro _
      rfl
    · intro hrun
      exact absurd rfl hrun
  due := by
    intro hne
    exact absurd rfl hne
  completing := by
    intro batch outcome ticketError hbatch
    cases hbatch

/-- A committed update is counted as deliverable. -/
theorem CoreWf.deliverable_pos {slack : Slack} (h : CoreWf slack core) {t : TopicId}
    {b : BufferIndex} {q : QueuedUpdate} {a : ActiveSubscription V} (ha : core.active? t = some a)
    (hc : a.committed = true) (hq : core.queued? t b = some q) : core.deliverablePending ≠ 0 := by
  have hcommitted : (core.shards (shardIndex t)).isCommitted t = true :=
    (TopicShard.isCommitted_of_lookup ha).trans hc
  have hcount := Table.countKeys_erase (core.shards (shardIndex t)).isCommitted hq
  rw [hcommitted, if_pos rfl] at hcount
  have hdeliverable := (h.shards (shardIndex t)).deliverable
  have hle := h.deliverableCount_le (shardIndex t)
  have hentries : 0 < deliverableEntries (core.shards (shardIndex t)) := by
    rw [deliverableEntries, sumBuffers]
    cases b <;> omega
  omega

section

variable [BEq V] [Inhabited V] {activeQuota queuedUpdateQuota : Quota} {nextGeneration : Nat}

/-- **The fast path agrees with the slow path.** In every run on an open server whose
steps meet the condition, where `notified_epoch` equals the current epoch the slow path
returns `None` as well, and a deliverable update with an attached notifier and a dormant
signal has an operation on its way to the slow path. -/
theorem fast_path_agrees {actions : List (Action V N)}
    (hrun : run State.step (State.init activeQuota queuedUpdateQuota nextGeneration) actions =
      some s)
    (hmeets : Meets State.step NotifyOk
      (State.init activeQuota queuedUpdateQuota nextGeneration) actions)
    (hopen : s.core.lifecycle = .opened) :
    (s.core.notifiedEpoch = s.core.publishEpoch →
      s.core.prepareNotification true = (s.core, .ok none)) ∧
    ∀ t b a q, s.core.active? t = some a → a.committed = true → s.core.queued? t b = some q →
      s.core.refresh.notifier.isSome = true →
      s.core.refresh.phase = .betweenRefreshes .dormant →
      ∃ k o, s.operations.lookup k = some o ∧ o.due s.core.notifiedEpoch = true := by
  obtain ⟨hwf, -, hawake⟩ := run_invariant_of_meets
    (I := fun s : State V N => s.core.lifecycle = .opened → Accounted s ∧ Ordered s ∧ Awake s)
    (by
      intro s action s' hI hok hstep hopen'
      have heffect := step_effect hstep
      have hopen := heffect.opened hopen'
      obtain ⟨hwf, hordered, hawake⟩ := hI hopen
      exact ⟨hwf.step (hwf.resetsEmpty hopen action) heffect, hordered.step hwf hopen heffect,
        hawake.step hwf hordered hok hopen heffect⟩)
    actions _ _
    (fun _ => ⟨Accounted.init activeQuota queuedUpdateQuota nextGeneration,
      Ordered.init activeQuota queuedUpdateQuota nextGeneration,
      Awake.init activeQuota queuedUpdateQuota nextGeneration⟩) hmeets hrun hopen
  constructor
  · intro heq
    exact prepareNotification_of_not_idle (hawake.sync.fast heq)
  · intro t b a q ha hc hq hnotifier hphase
    refine hawake.due (hwf.core.deliverable_pos ha hc hq) ?_
    rw [idle, hphase, hnotifier]
    rfl

end

/-- A notifier is attached, a value is published and the host is being called. -/
def announceRun : List (Action Nat Unit) :=
  List.flatten [[.enterRequest 9 (.attach ()), .advance 9 .proceed], publishRun,
    .replicate 2 (.advance 2 .proceed)]

/-- While the host is being called the next publication is skipped by both paths. -/
theorem fast_path_agrees_announceRun :
    ∃ s : State Nat Unit, run State.step (State.init ⟨3, 8⟩ ⟨0, 8⟩ 1) announceRun = some s ∧
      s.core.notifiedEpoch = s.core.publishEpoch ∧ s.core.deliverablePending = 1 ∧
      s.core.prepareNotification true = (s.core, .ok none) := by
  have hrun : (run State.step (State.init ⟨3, 8⟩ ⟨0, 8⟩ 1) announceRun).any (fun s =>
      decide (s.core.lifecycle = .opened ∧ s.core.notifiedEpoch = s.core.publishEpoch ∧
        s.core.deliverablePending = 1)) = true := by
    decide +kernel
  obtain ⟨s, hs, hcond⟩ := (any_eq_true ..).mp hrun
  obtain ⟨hopen, heq, hone⟩ := of_decide_eq_true hcond
  exact ⟨s, hs, heq, hone, (fast_path_agrees hs (by decide +kernel) hopen).1 heq⟩

/-- The refresh delivers a value before its publisher comes to announce it; the
publisher then announces the new epoch, a notifier is attached again, and the next
value is published. -/
def reattachRun : List (Action Nat Unit) :=
  List.flatten [[.enterConnect 0 ⟨1⟩ ⟨7⟩], .replicate 5 (.advance 0 .proceed),
    [.enterRequest 1 (.attach ()), .advance 1 .proceed],
    [.enterPublish 2 ⟨⟨1⟩, ⟨1, Nat.one_ne_zero⟩⟩ 5], .replicate 3 (.advance 2 .proceed),
    [.enterRequest 3 .planRefresh, .advance 3 .proceed, .collect, .complete .delivered],
    [.completeNext, .finishRefresh 4], .replicate 3 (.advance 2 .proceed),
    [.enterRequest 5 (.attach ()), .advance 5 .proceed],
    [.enterPublish 6 ⟨⟨1⟩, ⟨1, Nat.one_ne_zero⟩⟩ 8], .replicate 4 (.advance 6 .proceed)]

/-- **Attaching a notifier again loses a notification.** The fast path skips the second
value, the slow path would have announced it, and no operation is left to do so. -/
theorem reattach_skips_notification :
    ∃ s : State Nat Unit, run State.step (State.init ⟨0, 4⟩ ⟨0, 4⟩ 1) reattachRun = some s ∧
      s.core.lifecycle = .opened ∧ s.core.notifiedEpoch = s.core.publishEpoch ∧
      (s.core.prepareNotification true).2.toOption.any isSome = true ∧
      s.core.deliverablePending = 1 ∧ s.core.refresh.notifier = some () ∧
      s.core.refresh.phase = .betweenRefreshes .dormant ∧ s.operations.entries.isEmpty = true := by
  have hrun : (run State.step (State.init ⟨0, 4⟩ ⟨0, 4⟩ 1) reattachRun).any (fun s =>
      decide (s.core.lifecycle = .opened ∧ s.core.notifiedEpoch = s.core.publishEpoch ∧
        (s.core.prepareNotification true).2.toOption.any isSome = true ∧
        s.core.deliverablePending = 1 ∧ s.core.refresh.notifier = some () ∧
        s.core.refresh.phase = .betweenRefreshes .dormant ∧
        s.operations.entries.isEmpty = true)) = true := by
    decide +kernel
  obtain ⟨s, hs, hcond⟩ := (any_eq_true ..).mp hrun
  exact ⟨s, hs, of_decide_eq_true hcond⟩

end Xlfn.Subscription
