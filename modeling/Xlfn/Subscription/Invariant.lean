import Xlfn.Subscription.Lifecycle
import Xlfn.Subscription.Ownership

/-!
# Xlfn — the representation invariant over runs

`Accounted` is kept by every step of the data plane as long as termination resets a
counter only while the shards hold nothing that the counter counts
(`ResetsEmpty`). On an open server no reset is taken, so there it holds in every
reachable state.
-/

namespace Xlfn.Subscription

open Xlfn.Lib Xlfn.Kernel Option PublishCore OpsKept

variable {V N : Type} {s s' : State V N} {action : Action V N}

-- ---- The invariant.

namespace Termination

/-- The pending entries `clear_pending` has removed and the counter still counts. -/
def clearedPending : Termination → Nat
  | .clearing _ pending _ => pending
  | _ => 0

/-- The same for the deliverable entries, whose counter is reset one step later. -/
def clearedDeliverable : Termination → Nat
  | .clearing _ _ deliverable => deliverable
  | .resettingDeliverable deliverable => deliverable
  | _ => 0

/-- Termination has not stored the closing lifecycle yet. -/
def running : Termination → Bool
  | .idle => true
  | .gateClosed => true
  | _ => false

end Termination

/-- How far the shared views of a state are from its shards. -/
def slackOf (s : State V N) : Slack where
  pending     := s.termination.clearedPending
  deliverable := s.termination.clearedDeliverable
  active      := s.foreignActive
  queued      := s.foreignQueued
  ready       := s.termination.running

/-- **The invariant of the data plane.** -/
structure Accounted (s : State V N) : Prop where
  core      : CoreWf (slackOf s) s.core
  lifecycle : s.core.lifecycle = .opened ↔ s.termination.running = true
  aborted   : s.aborted = false
  owned     : Owned s

/-- The slack depends on the framed fields alone. -/
theorem slackOf_frame (h : Frame s s') : slackOf s' = slackOf s := by
  simp only [slackOf, h.termination, h.foreignActive, h.foreignQueued]

/-- The rule for a section that keeps the accounting of the core. -/
theorem Accounted.keep (h : Accounted s) (hframe : Frame s s')
    (hcore : CoreWf (slackOf s) s'.core) (hlifecycle : s'.core.lifecycle = s.core.lifecycle)
    (howned : Owned s') : Accounted s' where
  core := by
    rw [slackOf_frame hframe]
    exact hcore
  lifecycle := by
    rw [hlifecycle, hframe.termination]
    exact h.lifecycle
  aborted := hframe.aborted.trans h.aborted
  owned := howned

/-- The same where no subscription is new. -/
theorem Accounted.narrow (h : Accounted s) (hframe : Frame s s')
    (hcore : CoreWf (slackOf s) s'.core) (hlifecycle : s'.core.lifecycle = s.core.lifecycle)
    (hnarrows : Narrows s.core s'.core) (hops : OpsKept s s') : Accounted s' :=
  h.keep hframe hcore hlifecycle (h.owned.mono hnarrows hops hframe.nextGeneration.ge)

/-- The same where the shards and the counters stay. -/
theorem Accounted.data (h : Accounted s) (hframe : Frame s s') (hdata : SameData s.core s'.core)
    (hops : OpsKept s s') : Accounted s' :=
  h.narrow hframe (h.core.sameData hdata) hdata.lifecycle (Narrows.of_shards hdata.shards) hops

/-- The rule for a step of termination. -/
theorem Accounted.terminate {next : Termination} {gateOpen : Bool} (h : Accounted s)
    (hframe : Frame { s with termination := next, gateOpen := gateOpen } s')
    (hcore : CoreWf (slackOf { s with termination := next }) s'.core)
    (hlifecycle : s'.core.lifecycle = .opened ↔ next.running = true)
    (hshards : s'.core.shards = s.core.shards) (hops : s'.operations = s.operations) :
    Accounted s' where
  core := by
    rw [slackOf_frame hframe]
    exact hcore
  lifecycle := by
    rw [hframe.termination]
    exact hlifecycle
  aborted := hframe.aborted.trans h.aborted
  owned := h.owned.mono (Narrows.of_shards hshards) (of_eq hops)
    (show s.nextGeneration ≤ s'.nextGeneration from hframe.nextGeneration.ge)

-- ---- The steps that are not sections of an operation.

/-- A step of `begin_termination` and its successors. -/
def Action.isTerminate : Action V N → Bool
  | .terminate => true
  | _ => false

/-- The next step of termination, if it resets a counter, finds the shards without
the entries the counter counts. -/
def State.resetsEmpty (s : State V N) : Bool :=
  match s.termination with
  | .clearing next _ _ => decide (next < topicShards) || decide (s.core.pendingTotal = 0)
  | .resettingDeliverable _ => decide (s.core.deliverableTotal = 0)
  | _ => true

/-- Termination resets no counter too early: no publisher has stored a value in a
shard that `clear_pending` had already visited. -/
def ResetsEmpty (s : State V N) (action : Action V N) : Prop :=
  action.isTerminate = true → s.resetsEmpty = true

instance (s : State V N) (action : Action V N) : Decidable (ResetsEmpty s action) :=
  inferInstanceAs (Decidable (_ → _))

variable {slack : Slack} {core : PublishCore V N}

/-- Empty shards with matching counters are accounted for. -/
theorem CoreWf.empty (hs : core.shards = fun _ => TopicShard.default)
    (hp : core.pendingUpdates = slack.pending) (hd : core.deliverablePending = slack.deliverable)
    (ha : core.activeQuota.used = slack.active) (hq : core.queuedUpdateQuota.used = slack.queued)
    (hr : slack.ready = true → core.readyShards = 0) : CoreWf slack core := by
  have hzero : ∀ g : TopicShard V → Nat, g TopicShard.default = 0 →
      (∑ i, g (core.shards i)) = 0 := by
    intro g hg
    rw [hs]
    exact Finset.sum_eq_zero fun _ _ => hg
  refine ⟨?_, ?_, ?_, ?_, ?_, ?_⟩
  · intro i
    rw [hs]
    exact ShardWf.default i
  · rw [pendingTotal, hzero State.pendingCount rfl, Nat.zero_add, hp]
  · rw [deliverableTotal, hzero (·.deliverableCount) rfl, Nat.zero_add, hd]
  · rw [activeTotal, hzero State.activeCount rfl, Nat.zero_add, ha]
  · rw [pendingTotal, hzero State.pendingCount rfl, Nat.zero_add, hq]
  · intro hready i
    rw [hr hready, hs]
    exact BitVec.getLsbD_zero

/-- A counter that counts nothing may be reset. -/
theorem CoreWf.reset (h : CoreWf slack core) : (core.pendingTotal = 0 →
      CoreWf { slack with pending := 0 } { core with pendingUpdates := 0 }) ∧
    (core.deliverableTotal = 0 →
      CoreWf { slack with deliverable := 0 } { core with deliverablePending := 0 }) := by
  constructor
  · intro hzero
    exact ⟨h.shards, (Nat.add_zero _).trans hzero |>.symm, h.deliverable, h.active, h.queued, h.ready⟩
  · intro hzero
    exact ⟨h.shards, h.pending, (Nat.add_zero _).trans hzero |>.symm, h.active, h.queued, h.ready⟩

/-- The end of termination subtracts what is left and empties the shards. -/
theorem finishTermination_spec (h : CoreWf (slackOf s) s.core) :
    ∃ s', s.finishTermination = some s' ∧ CoreWf (slackOf s') s'.core ∧
      s'.core.lifecycle = .terminated ∧ s'.termination = .finished ∧ s'.aborted = s.aborted ∧
      s'.operations = s.operations ∧ (∀ t, s'.core.active? t = none) ∧
      s'.nextGeneration = s.nextGeneration := by
  have hactive : s.core.activeQuota.used = s.core.activeTotal + s.foreignActive := h.active
  have hqueued : s.core.queuedUpdateQuota.used = s.core.pendingTotal + s.foreignQueued := h.queued
  have hle₁ : (∑ i, State.activeCount (s.core.shards i)) ≤ s.core.activeQuota.used :=
    Nat.le_of_add_right_le hactive.ge
  have hle₂ : (∑ i, State.pendingCount (s.core.shards i)) ≤ s.core.queuedUpdateQuota.used :=
    Nat.le_of_add_right_le hqueued.ge
  unfold State.finishTermination
  rw [checkedSubOrAbort_of_le hle₁, checkedSubOrAbort_of_le hle₂]
  refine ⟨_, rfl, CoreWf.empty rfl rfl rfl ?_ ?_ ?_, rfl, rfl, rfl, rfl, fun _ => rfl, rfl⟩
  · change s.core.activeQuota.used - s.core.activeTotal = s.foreignActive
    omega
  · change s.core.queuedUpdateQuota.used - s.core.pendingTotal = s.foreignQueued
    omega
  · intro hready
    cases hready

/-- Other servers take and return permits of the active quota. -/
theorem CoreWf.foreignActive (h : CoreWf slack core) {quota : Quota} {count : Nat}
    (hquota : quota.used + slack.active = core.activeQuota.used + count) :
    CoreWf { slack with active := count } { core with activeQuota := quota } :=
  { h with
    active := by
      have hactive := h.active
      change quota.used = core.activeTotal + count
      omega }

/-- And of the queue quota. -/
theorem CoreWf.foreignQueued (h : CoreWf slack core) {quota : Quota} {count : Nat}
    (hquota : quota.used + slack.queued = core.queuedUpdateQuota.used + count) :
    CoreWf { slack with queued := count } { core with queuedUpdateQuota := quota } :=
  { h with
    queued := by
      have hqueued := h.queued
      change quota.used = core.pendingTotal + count
      omega }

/-- **No section reaches `fail_stop`.** -/
theorem Accounted.no_abort (h : Accounted s) : ¬Aborts s := by
  rintro (⟨_, c, observed, _, -, hnone⟩ | ⟨k, c, hop, hnone⟩ | ⟨t, hnone⟩ |
    ⟨_, outcome, update, -, hnone⟩ | ⟨i, hnone⟩ | hnone | ⟨hpos, hzero⟩ | ⟨hpos, hzero⟩)
  · rcases commitConnection_spec h.core c.topicId c.generation observed with
      ⟨_, hsome⟩ | ⟨_, _, _, hsome, -⟩
    · rw [hnone] at hsome
      cases hsome
    · rw [hnone] at hsome
      cases hsome
  · obtain ⟨_, hsome, -⟩ :=
      rollbackConnection_withdrawn h.core (h.owned.rollback_owns hop rfl h.core)
    rw [hnone] at hsome
    cases hsome
  · obtain ⟨_, _, hsome, -⟩ := disconnectConnection_spec h.core t
    rw [hnone] at hsome
    cases hsome
  · obtain ⟨_, hsome, -⟩ := completeUpdate_spec h.core outcome update
    rw [hnone] at hsome
    cases hsome
  · obtain ⟨_, hsome, -⟩ := clearShard_spec h.core i
    rw [hnone] at hsome
    cases hsome
  · obtain ⟨_, hsome, -⟩ := finishTermination_spec h.core
    rw [hnone] at hsome
    cases hsome
  · have hactive : _ = _ + s.foreignActive := h.core.active
    omega
  · have hqueued : _ = _ + s.foreignQueued := h.core.queued
    omega

-- ---- What a section has done, by its result.

section

variable {t : TopicId} {id : SubscriptionId} {generation : ConnectionGeneration}
  {core' : PublishCore V N}

/-- A reservation has failed without a trace, or entered the topic. -/
theorem CoreWf.reserved {result : Except XllError Unit} (h : CoreWf slack core)
    (hreserve : core.reserveConnection t id generation = (core', result)) :
    core' = core ∨ CoreWf slack core' ∧ Reserved core core' t id generation := by
  rcases reserveConnection_spec h t id generation with ⟨error, heq⟩ | ⟨_, heq, hcase⟩
  · rw [heq] at hreserve
    exact .inl (Prod.mk.inj hreserve).1.symm
  · rw [heq] at hreserve
    obtain ⟨rfl, -⟩ := Prod.mk.inj hreserve
    exact .inr hcase

/-- A commit has failed without a trace, or made the subscription active. -/
theorem CoreWf.committed {observed : Option Nat} {result : Except XllError Bool}
    (h : CoreWf slack core)
    (hcommit : core.commitConnection t generation observed = some (core', result)) :
    (∃ error, core' = core ∧ result = .error error) ∨
      ∃ hasPending a, result = .ok hasPending ∧
        (core.shards (shardIndex t)).activeByTopic.lookup t = some a ∧
        a.generation = generation ∧ CoreWf slack core' ∧ Committed core core' t a observed ∧
        (hasPending = false → core'.deliverablePending ≤ core.deliverablePending) := by
  rcases commitConnection_spec h t generation observed with
    ⟨error, heq⟩ | ⟨_, hasPending, a, heq, hcase⟩
  · rw [heq] at hcommit
    obtain ⟨hcore, hresult⟩ := Prod.mk.inj (some.inj hcommit)
    exact .inl ⟨error, hcore.symm, hresult.symm⟩
  · rw [heq] at hcommit
    obtain ⟨rfl, rfl⟩ := Prod.mk.inj (some.inj hcommit)
    exact .inr ⟨hasPending, a, rfl, hcase⟩

/-- A disconnect has changed nothing, or withdrawn the subscription. -/
theorem CoreWf.disconnected {result : Except XllError (Option RetiredConnection)}
    (h : CoreWf slack core) (hdisconnect : core.disconnectConnection t = some (core', result)) :
    CoreWf slack core' ∧ (core' = core ∨ Withdrawn core core' t (fun _ => false) true) := by
  obtain ⟨_, _, heq, hcase⟩ := disconnectConnection_spec h t
  rw [heq] at hdisconnect
  obtain ⟨rfl, -⟩ := Prod.mk.inj (some.inj hdisconnect)
  exact hcase

/-- A rollback has withdrawn what its own connection left. -/
theorem Accounted.rolledBack {op : Nat} {c : Connection} {removed : Bool} (h : Accounted s)
    (hop : s.operations.lookup op = some (.connecting c .rollingBack))
    (hrollback : s.core.rollbackConnection c.topicId c.generation c.id = some (core', removed)) :
    CoreWf (slackOf s) core' ∧
      Withdrawn s.core core' c.topicId (fun q => !decide (q.connectionGeneration = c.generation))
        (((s.core.shards (shardIndex c.topicId)).activeByTopic.lookup c.topicId).any
          (·.generation = c.generation)) := by
  obtain ⟨_, heq, hcase⟩ :=
    rollbackConnection_withdrawn h.core (h.owned.rollback_owns hop rfl h.core)
  rw [heq] at hrollback
  obtain ⟨rfl, -⟩ := Prod.mk.inj (some.inj hrollback)
  exact hcase

end

-- ---- One step.

/-- **One step keeps the accounting**, unless it resets a counter too early. -/
theorem Accounted.step [BEq V] (h : Accounted s) (hresets : ResetsEmpty s action)
    (heffect : Effect s action s') : Accounted s' := by
  cases heffect with
  | progress op o o' hframe hcore _ _ hop hprogress =>
    exact h.data hframe (hcore ▸ SameData.refl _) (hop.kept_of_progress hprogress.connection)
  | admitted op o hframe hcore _ _ hop hconnection =>
    refine h.data hframe (hcore ▸ SameData.refl _) (hop.kept_of_none ?_)
    intro p hp
    cases hp
    exact hconnection
  | connected op c hframe hcore _ _ hop hgeneration =>
    have hslack : slackOf s' = slackOf s := (slackOf_frame hframe).trans rfl
    refine ⟨?_, ?_, hframe.aborted.trans h.aborted, ?_⟩
    · rw [hslack, hcore]
      exact h.core
    · rw [hcore, hframe.termination]
      exact h.lifecycle
    · exact h.owned.connected hcore hframe.nextGeneration hop hgeneration
  | installed op c a hframe hcore _ _ _ _ hop =>
    refine h.data hframe (hcore ▸ SameData.refl _) (hop.kept_of_progress ?_)
    intro p hp
    cases hp
    exact .inr rfl
  | published op o o' sink value epoch outcome _ hframe _ hvalue _ hop _ hconnection _ =>
    obtain ⟨hwf, hcase⟩ := commitValue_spec h.core (BufferIndex.fromEpoch epoch) sink.topicId
      sink.connectionGeneration value
    rw [hvalue] at hwf hcase
    refine h.narrow hframe hwf hcase.control.lifecycle hcase.narrows (hop.kept_of_none hconnection)
  | reserved op c o' hframe _ _ result hreserve hop hnext =>
    have hops : OpsKept s s' := by
      refine hop.kept_of_progress ?_
      intro p hp
      rcases hnext with hnone | hsome
      · rw [hnone] at hp
        cases hp
      · rw [hsome] at hp
        cases hp
        exact .inr rfl
    rcases h.core.reserved hreserve with hcore | ⟨hwf, hreserved⟩
    · exact h.data hframe (hcore ▸ SameData.refl _) hops
    · exact h.keep hframe hwf hreserved.control.lifecycle
        (h.owned.reserved hreserved hframe.nextGeneration hop.before rfl hops)
  | committed op c observed epoch o' result _ hframe _ hcommit _ hop hconnection _ _ =>
    have hops : OpsKept s s' := by
      refine hop.kept_of_progress ?_
      intro p hp
      cases hp
      exact .inr hconnection
    rcases h.core.committed hcommit with
      ⟨error, hcore, -⟩ | ⟨hasPending, a, -, ha, -, hwf, hcommitted, -⟩
    · exact h.data hframe (hcore ▸ SameData.refl _) hops
    · refine h.narrow hframe hwf hcommitted.control.lifecycle (hcommitted.touches.narrows ?_) hops
      intro a' ha'
      cases ha'
      exact ⟨a, ha, rfl, rfl⟩
  | rolledBack op c removed hframe _ _ hrollback hop =>
    obtain ⟨hwf, hwithdrawn⟩ := h.rolledBack hop.before hrollback
    refine h.narrow hframe hwf hwithdrawn.control.lifecycle hwithdrawn.narrows (hop.kept_of_none ?_)
    intro p hp
    cases hp
  | prepared op after o' hframe hcore _ _ hop hconnection _ =>
    exact h.data hframe (hcore ▸ (s.core.prepareNotification_rewritten true).data)
      (hop.kept_of_progress hconnection)
  | attached op notifier o' _ hframe hcore _ _ hop hconnection =>
    exact h.data hframe (hcore ▸ (s.core.attachUpdateNotifier_rewritten notifier).data)
      (hop.kept_of_none hconnection)
  | pulsed op o' _ hframe hcore _ _ hop hconnection =>
    exact h.data hframe (hcore ▸ s.core.pulseNotification_rewritten.data)
      (hop.kept_of_none hconnection)
  | planned op result _ hframe hplan _ _ hop =>
    refine h.data hframe (planRefresh_spec hplan).1 (hop.kept_of_none ?_)
    intro p hp
    cases hp
  | driven op attempt after succeeded o' hframe hcore _ _ hop hconnection _ =>
    exact h.data hframe
      (hcore ▸ (s.core.finishNotificationAttempt_spec attempt succeeded).1.data)
      (hop.kept_of_progress hconnection)
  | disconnected t result hframe _ _ hdisconnect hops =>
    obtain ⟨hwf, hcase⟩ := h.core.disconnected hdisconnect
    rcases hcase with hcore | hwithdrawn
    · exact h.data hframe (hcore ▸ SameData.refl _) (of_eq hops)
    · exact h.narrow hframe hwf hwithdrawn.control.lifecycle hwithdrawn.narrows
        (of_eq hops)
  | detached hcore _ _ hops hframe =>
    have hdata : SameData s.core s'.core := hcore ▸ s.core.detachUpdateNotifier_rewritten.data
    rcases hframe with hframe | ⟨hterm, hframe⟩
    · exact h.data hframe hdata (of_eq hops)
    · refine h.terminate hframe ?_ ?_ hdata.shards hops
      · have hslack : slackOf { s with termination := .clearing 0 0 0 } = slackOf s := by
          simp only [slackOf, hterm]
          rfl
        rw [hslack]
        exact h.core.sameData hdata
      · rw [hdata.lifecycle, h.lifecycle, hterm]
        rfl
  | collected batch index remaining hframe _ _ hcore _ _ hops =>
    obtain ⟨hwf, hcontrol, -⟩ := collectShard_wf (i := index) h.core batch.updates
    obtain ⟨taken, -, hcollected⟩ := collectShard_collected h.core index batch.updates
    rw [← hcore] at hwf hcontrol hcollected
    exact h.narrow hframe hwf hcontrol.lifecycle hcollected.narrows (of_eq hops)
  | completing batch remaining outcome ticketError hframe _ _ _ hcore _ _ hops
  | mismatched batch error hframe _ _ hcore _ _ hops =>
    exact h.data hframe (hcore ▸ SameData.refl _) (of_eq hops)
  | abandoned batch op o' hframe _ _ hcore _ _ hop hconnection =>
    exact h.data hframe (hcore ▸ s.core.abortEmptyRefresh_data _) (hop.kept_of_none hconnection)
  | completed batch updates update outcome ticketError hframe _ _ _ hcomplete _ _ hops =>
    obtain ⟨core', heq, hwf, hcontrol, -⟩ := completeUpdate_spec h.core outcome update
    rw [hcomplete] at heq
    cases heq
    exact h.narrow hframe hwf hcontrol.lifecycle (completeUpdate_narrows h.core hcomplete)
      (of_eq hops)
  | refreshed batch outcome ticketError op o' hframe _ _ _ hcore _ _ hop hconnection =>
    exact h.data hframe (hcore ▸ s.core.finishRefresh_data _ _) (hop.kept_of_none hconnection)
  | closing next gateOpen hnext hframe _ _ hops =>
    have hcore := h.core
    have hlifecycle := h.lifecycle
    rcases hnext with ⟨hterm, rfl, heq⟩ | ⟨hterm, rfl, heq⟩
    · refine h.terminate hframe ?_ ?_ (by rw [heq]) hops
      · rw [heq]
        simp only [slackOf, hterm] at hcore ⊢
        exact hcore
      · rw [heq, hlifecycle, hterm]
        rfl
    · refine h.terminate hframe ?_ ?_ (by rw [heq]) hops
      · rw [heq]
        simp only [slackOf, hterm] at hcore ⊢
        exact ⟨hcore.shards, hcore.pending, hcore.deliverable, hcore.active, hcore.queued, nofun⟩
      · rw [heq]
        exact ⟨nofun, nofun⟩
  | cleared index pending deliverable hterm _ hframe hclear _ _ hops =>
    obtain ⟨core', heq, hcontrol, -, hshards, hwf⟩ := clearShard_spec h.core index
    rw [hclear] at heq
    cases heq
    refine ⟨?_, ?_, hframe.aborted.trans h.aborted, ?_⟩
    · rw [slackOf_frame hframe]
      simp only [slackOf, hterm] at hwf ⊢
      exact hwf
    · rw [hcontrol.lifecycle, h.lifecycle, hterm, hframe.termination]
      rfl
    · refine h.owned.mono ?_ (of_eq hops) hframe.nextGeneration.ge
      intro t a' ha'
      refine ⟨a', ?_, rfl, rfl⟩
      unfold active? at ha' ⊢
      rw [hshards] at ha'
      by_cases ht : shardIndex t = index
      · subst ht
        rwa [Function.update_self] at ha'
      · rwa [Function.update_of_ne ht] at ha'
  | resetPending next pending deliverable hterm hlast haction hframe hcore _ _ hops =>
    have hwf := h.core
    have hzero : s.core.pendingTotal = 0 := by
      subst haction
      have hempty := hresets rfl
      rw [State.resetsEmpty, hterm] at hempty
      simpa [not_lt.mpr hlast] using hempty
    refine h.terminate hframe ?_ ?_ (by rw [hcore]) hops
    · rw [hcore]
      simp only [slackOf, hterm] at hwf ⊢
      exact hwf.reset.1 hzero
    · rw [hcore, h.lifecycle, hterm]
      rfl
  | resetDeliverable deliverable hterm haction hframe hcore _ _ hops =>
    have hwf := h.core
    have hzero : s.core.deliverableTotal = 0 := by
      subst haction
      have hempty := hresets rfl
      rw [State.resetsEmpty, hterm] at hempty
      exact of_decide_eq_true hempty
    refine h.terminate hframe ?_ ?_ (by rw [hcore]) hops
    · rw [hcore]
      simp only [slackOf, hterm] at hwf ⊢
      exact hwf.reset.2 hzero
    · rw [hcore, h.lifecycle, hterm]
      rfl
  | resetReady hterm hframe hcore _ _ hops =>
    have hwf := h.core
    refine h.terminate hframe ?_ ?_ (by rw [hcore]) hops
    · rw [hcore]
      simp only [slackOf, hterm] at hwf ⊢
      exact ⟨hwf.shards, hwf.pending, hwf.deliverable, hwf.active, hwf.queued, nofun⟩
    · rw [hcore, h.lifecycle, hterm]
      rfl
  | finished hterm hdrained _ hfinish =>
    obtain ⟨t, heq, hwf, hlife, hfin, habort, hops, hactive, hnext⟩ := finishTermination_spec h.core
    rw [heq] at hfinish
    cases hfinish
    refine ⟨hwf, ?_, habort.trans h.aborted, ?_⟩
    · rw [hlife, hfin]
      exact ⟨nofun, nofun⟩
    · refine h.owned.mono ?_ (of_eq hops) hnext.ge
      intro t a' ha'
      rw [hactive] at ha'
      cases ha'
  | foreignActive quota count hquota hframe hcore _ _ hops =>
    refine ⟨?_, ?_, hframe.aborted.trans h.aborted, ?_⟩
    · rw [slackOf_frame hframe, hcore]
      exact h.core.foreignActive hquota
    · rw [hcore, hframe.termination]
      exact h.lifecycle
    · exact h.owned.mono (Narrows.of_shards (by rw [hcore])) (of_eq hops)
        hframe.nextGeneration.ge
  | foreignQueued quota count hquota hframe hcore _ _ hops =>
    refine ⟨?_, ?_, hframe.aborted.trans h.aborted, ?_⟩
    · rw [slackOf_frame hframe, hcore]
      exact h.core.foreignQueued hquota
    · rw [hcore, hframe.termination]
      exact h.lifecycle
    · exact h.owned.mono (Narrows.of_shards (by rw [hcore])) (of_eq hops)
        hframe.nextGeneration.ge
  | foreignGeneration hframe hcore _ _ hops =>
    refine ⟨?_, ?_, hframe.aborted.trans h.aborted, ?_⟩
    · rw [slackOf_frame hframe, hcore]
      exact h.core
    · rw [hcore, hframe.termination]
      exact h.lifecycle
    · refine h.owned.mono (Narrows.of_shards (by rw [hcore])) (of_eq hops) ?_
      rw [hframe.nextGeneration]
      exact Nat.le_succ _
  | aborted _ hsection => exact absurd hsection h.no_abort

-- ---- Runs.

/-- An open server resets nothing. -/
theorem Accounted.resetsEmpty (h : Accounted s) (hopen : s.core.lifecycle = .opened)
    (action : Action V N) : ResetsEmpty s action := by
  have hrunning := h.lifecycle.mp hopen
  intro _
  cases hterm : s.termination <;> rw [hterm] at hrunning <;>
    first | (rw [State.resetsEmpty, hterm]; done) | cases hrunning

/-- A new server is accounted for. -/
theorem Accounted.init (activeQuota queuedUpdateQuota : Quota) (nextGeneration : Nat) :
    Accounted (State.init activeQuota queuedUpdateQuota nextGeneration : State V N) where
  core := CoreWf.empty rfl rfl rfl rfl rfl fun _ => rfl
  lifecycle := ⟨fun _ => rfl, fun _ => rfl⟩
  aborted := rfl
  owned := by
    refine ⟨?_, ?_, ?_, ?_⟩
    · intro t a ha
      cases ha
    · intro k o c ho
      cases ho
    · intro k k' o o' c c' ho
      cases ho
    · intro k o c t a ho
      cases ho

section

variable [BEq V] [Inhabited V] {activeQuota queuedUpdateQuota : Quota} {nextGeneration : Nat}

/-- So is every open server that is reached. -/
theorem Accounted.of_opened
    (hs : Reachable State.step (State.init activeQuota queuedUpdateQuota nextGeneration) s)
    (hopen : s.core.lifecycle = .opened) : Accounted s := by
  refine Reachable.invariant (I := fun s : State V N => s.core.lifecycle = .opened → Accounted s)
    ?_ ?_ hs hopen
  · intro s action s' hI hstep hopen'
    have heffect := step_effect hstep
    have hopen := heffect.opened hopen'
    have h := hI hopen
    exact h.step (h.resetsEmpty hopen action) heffect
  · intro _
    exact Accounted.init activeQuota queuedUpdateQuota nextGeneration

/-- **The representation invariant of the shards.** In every state reachable on an
open server a pending entry belongs to an active connection of the same generation, the
deliverable count is the number of pending entries of committed connections, the ready
bit says whether it is positive, the two maps are inverse to each other, the global
counters are the sums of the shards', and the active quota counts the active entries
and the permits other servers hold. -/
theorem shard_representation
    (hs : Reachable State.step (State.init activeQuota queuedUpdateQuota nextGeneration) s)
    (hopen : s.core.lifecycle = .opened) :
    (∀ i : ShardIndex, (∀ b t q, ((s.core.shards i).pending b).lookup t = some q →
        ∃ a, (s.core.shards i).activeByTopic.lookup t = some a ∧
          a.generation = q.connectionGeneration) ∧
      (s.core.shards i).deliverableCount = deliverableEntries (s.core.shards i) ∧
      (s.core.readyShards.getLsbD i = true ↔ 0 < (s.core.shards i).deliverableCount) ∧
      ∀ id t, (s.core.shards i).topicById.lookup id = some t ↔
        ∃ a, (s.core.shards i).activeByTopic.lookup t = some a ∧ a.id = id) ∧
    s.core.pendingUpdates = ∑ i, State.pendingCount (s.core.shards i) ∧
    s.core.deliverablePending = ∑ i, (s.core.shards i).deliverableCount ∧
    s.core.activeQuota.used = (∑ i, State.activeCount (s.core.shards i)) + s.foreignActive := by
  have h := Accounted.of_opened hs hopen
  have hrunning := h.lifecycle.mp hopen
  have hcleared : s.termination.clearedPending = 0 ∧ s.termination.clearedDeliverable = 0 := by
    cases hterm : s.termination <;> rw [hterm] at hrunning <;>
      first | exact ⟨rfl, rfl⟩ | cases hrunning
  refine ⟨?_, ?_, ?_, h.core.active⟩
  · intro i
    refine ⟨(h.core.shards i).pendingActive, (h.core.shards i).deliverable, ?_,
      (h.core.shards i).inverse⟩
    rw [h.core.ready hrunning i, decide_eq_true_eq]
  · refine h.core.pending.trans ?_
    change _ + s.termination.clearedPending = _
    rw [hcleared.1, Nat.add_zero]
    rfl
  · refine h.core.deliverable.trans ?_
    change _ + s.termination.clearedDeliverable = _
    rw [hcleared.2, Nat.add_zero]
    rfl

/-- Two topics of one shard are reserved and one of them commits and publishes. -/
def publishRun : List (Action Nat Unit) :=
  List.flatten [[.enterConnect 0 ⟨1⟩ ⟨7⟩], .replicate 5 (.advance 0 .proceed),
    [.enterConnect 1 ⟨33⟩ ⟨8⟩, .advance 1 .proceed],
    [.enterPublish 2 ⟨⟨1⟩, ⟨1, Nat.one_ne_zero⟩⟩ 5], .replicate 3 (.advance 2 .proceed)]

/-- A run with one deliverable value. -/
theorem shard_representation_publishRun : ∃ s : State Nat Unit,
      run State.step (State.init ⟨3, 8⟩ ⟨0, 8⟩ 1) publishRun = some s ∧
      s.core.lifecycle = .opened ∧ deliverableEntries (s.core.shards 1) = 1 ∧
      s.core.readyShards.getLsbD 1 = true := by
  have hrun : (run State.step (State.init ⟨3, 8⟩ ⟨0, 8⟩ 1) publishRun).any (fun s =>
      decide (s.core.lifecycle = .opened) &&
        decide ((s.core.shards 1).deliverableCount = 1)) = true := by
    decide +kernel
  obtain ⟨s, hs, hcond⟩ := (any_eq_true ..).mp hrun
  rw [Bool.and_eq_true, decide_eq_true_eq, decide_eq_true_eq] at hcond
  obtain ⟨hopen, hcount⟩ := hcond
  obtain ⟨-, hentries, hready, -⟩ := (shard_representation ⟨_, hs⟩ hopen).1 1
  refine ⟨s, hs, hopen, hentries.symm.trans hcount, hready.mpr ?_⟩
  rw [hcount]
  exact Nat.one_pos

-- ---- Termination.

/-- The next step of termination, if it clears a shard, finds no pending entry in it. -/
def State.clearsEmpty (s : State V N) : Bool :=
  match s.termination with
  | .clearing next _ _ =>
    if h : next < topicShards then decide (State.pendingCount (s.core.shards ⟨next, h⟩) = 0)
    else true
  | _ => true

/-- Termination clears and resets only what is empty. -/
def TerminatesEmpty (s : State V N) (action : Action V N) : Prop :=
  ResetsEmpty s action ∧ (action.isTerminate = true → s.clearsEmpty = true)

instance (s : State V N) (action : Action V N) : Decidable (TerminatesEmpty s action) :=
  inferInstanceAs (Decidable (_ ∧ (_ → _)))

/-- Nothing has been taken out of the shards that the counters still count. -/
def NothingCleared (s : State V N) : Prop :=
  s.termination.clearedPending = 0 ∧ s.termination.clearedDeliverable = 0

omit [Inhabited V] in
/-- Termination finds what it clears empty, step by step. -/
theorem NothingCleared.step (h : NothingCleared s) (hwf : Accounted s)
    (hok : TerminatesEmpty s action) (heffect : Effect s action s') : NothingCleared s' := by
  have hframe : s'.termination = s.termination → NothingCleared s' := by
    intro heq
    unfold NothingCleared
    rw [heq]
    exact h
  have hnext : ∀ next : Termination, s'.termination = next → next.clearedPending = 0 →
      next.clearedDeliverable = 0 → NothingCleared s' := by
    intro next heq hp hd
    unfold NothingCleared
    rw [heq]
    exact ⟨hp, hd⟩
  cases heffect with
  | cleared index pending deliverable hterm haction hf =>
    have hzero : State.pendingCount (s.core.shards index) = 0 := by
      subst haction
      have hempty := hok.2 rfl
      rw [State.clearsEmpty, hterm] at hempty
      simpa using hempty
    have hdeliverable : (s.core.shards index).deliverableCount = 0 := by
      have hle := deliverableEntries_le (s.core.shards index)
      rw [← (hwf.core.shards index).deliverable] at hle
      omega
    have hp := h.1
    have hd := h.2
    rw [hterm] at hp hd
    refine hnext _ hf.termination ?_ ?_
    · change pending + _ = 0
      rw [hzero]
      exact hp
    · change deliverable + _ = 0
      rw [hdeliverable]
      exact hd
  | resetPending next pending deliverable hterm _ _ hf =>
    have hd := h.2
    rw [hterm] at hd
    exact hnext _ hf.termination rfl hd
  | detached _ _ _ _ hf =>
    rcases hf with hf | ⟨-, hf⟩
    · exact hframe hf.termination
    · exact hnext _ hf.termination rfl rfl
  | closing next _ hcase hf =>
    rcases hcase with ⟨-, rfl, -⟩ | ⟨-, rfl, -⟩
    · exact hnext _ hf.termination rfl rfl
    · exact hnext _ hf.termination rfl rfl
  | resetDeliverable _ _ _ hf | resetReady _ hf => exact hnext _ hf.termination rfl rfl
  | finished _ _ _ hfinish =>
    obtain ⟨t, heq, -, -, hfin, -⟩ := finishTermination_spec hwf.core
    rw [heq] at hfinish
    cases hfinish
    exact hnext _ hfin rfl rfl
  | aborted _ hsection => exact absurd hsection hwf.no_abort
  | connected _ _ hf | foreignActive _ _ _ hf | foreignQueued _ _ _ hf | foreignGeneration hf =>
    exact hframe hf.termination
  | _ => exact hframe ‹Frame s s'›.termination

/-- **Accounting across termination.** In every run whose counter resets find empty
shards no decrement underflows, and the counters exceed the sums over the shards by
exactly what `clear_pending` has taken out and not yet reset; if termination also
clears only empty shards, the counters are the sums in every state. -/
theorem accounting_across_termination {actions : List (Action V N)}
    (hrun : run State.step (State.init activeQuota queuedUpdateQuota nextGeneration) actions =
      some s) :
    (Meets State.step ResetsEmpty (State.init activeQuota queuedUpdateQuota nextGeneration)
        actions →
      s.aborted = false ∧
      s.core.pendingUpdates = s.core.pendingTotal + s.termination.clearedPending ∧
      s.core.deliverablePending = s.core.deliverableTotal + s.termination.clearedDeliverable) ∧
    (Meets State.step TerminatesEmpty (State.init activeQuota queuedUpdateQuota nextGeneration)
        actions →
      s.aborted = false ∧ s.core.pendingUpdates = s.core.pendingTotal ∧
      s.core.deliverablePending = s.core.deliverableTotal) := by
  constructor
  · intro hmeets
    have h := run_invariant_of_meets (I := Accounted)
      (fun s action s' h hok hstep => h.step hok (step_effect hstep)) actions _ _
      (Accounted.init activeQuota queuedUpdateQuota nextGeneration) hmeets hrun
    exact ⟨h.aborted, h.core.pending, h.core.deliverable⟩
  · intro hmeets
    obtain ⟨h, hnothing⟩ := run_invariant_of_meets
      (I := fun s : State V N => Accounted s ∧ NothingCleared s)
      (fun s action s' h hok hstep =>
        ⟨h.1.step hok.1 (step_effect hstep), h.2.step h.1 hok (step_effect hstep)⟩) actions _ _
      ⟨Accounted.init activeQuota queuedUpdateQuota nextGeneration, rfl, rfl⟩ hmeets hrun
    refine ⟨h.aborted, ?_, ?_⟩
    · refine h.core.pending.trans ?_
      change _ + s.termination.clearedPending = _
      rw [hnothing.1, Nat.add_zero]
    · refine h.core.deliverable.trans ?_
      change _ + s.termination.clearedDeliverable = _
      rw [hnothing.2, Nat.add_zero]

end

/-- A value is still pending when the server terminates. -/
def closingRun : List (Action Nat Unit) :=
  publishRun ++ List.replicate 20 .terminate

/-- The value is withdrawn with its topic before the server terminates. -/
def quietRun : List (Action Nat Unit) :=
  List.flatten [publishRun, [.disconnect ⟨1⟩, .advance 1 .refuse, .advance 1 .proceed],
    .replicate 2 (.advance 2 .proceed), .replicate 39 .terminate]

/-- In the middle of `clear_pending` the counter is one ahead of the shards; with
nothing pending the whole termination keeps them equal. -/
theorem accounting_across_termination_closingRun :
    (∃ s : State Nat Unit, run State.step (State.init ⟨3, 8⟩ ⟨0, 8⟩ 1) closingRun = some s ∧
      s.core.pendingUpdates = s.core.pendingTotal + 1) ∧
    ∃ s : State Nat Unit, run State.step (State.init ⟨3, 8⟩ ⟨0, 8⟩ 1) quietRun = some s ∧
      s.core.pendingUpdates = s.core.pendingTotal := by
  have hclosing : (run State.step (State.init ⟨3, 8⟩ ⟨0, 8⟩ 1) closingRun).any
      (fun s => s.termination.clearedPending == 1) = true := by
    decide +kernel
  have hquiet : (run State.step (State.init ⟨3, 8⟩ ⟨0, 8⟩ 1) quietRun).isSome = true := by
    decide +kernel
  obtain ⟨s, hs, hcleared⟩ := (any_eq_true ..).mp hclosing
  obtain ⟨s', hs'⟩ := isSome_iff_exists.mp hquiet
  refine ⟨⟨s, hs, ?_⟩, s', hs', ?_⟩
  · rw [← eq_of_beq hcleared]
    exact ((accounting_across_termination hs).1 (by decide +kernel)).2.1
  · exact ((accounting_across_termination hs').2 (by decide +kernel)).2.1

/-- A publisher admitted before the server closed stores its value behind
`clear_pending`, the counters are reset, and the connection is rolled back. -/
def lateRun : List (Action Nat Unit) :=
  List.flatten [[.enterConnect 0 ⟨1⟩ ⟨7⟩, .advance 0 .proceed],
    [.enterPublish 1 ⟨⟨1⟩, ⟨1, Nat.one_ne_zero⟩⟩ 5, .advance 1 .proceed],
    .replicate 5 .terminate, .replicate 2 (.advance 1 .proceed), .replicate 31 .terminate,
    [.advance 0 .refuse, .advance 0 .proceed]]

/-- **The reset races with the publisher.** Before its last step the run has reset
the pending counter to zero with one entry in the shards; the rollback of the last
step underflows the counter and aborts the process. -/
theorem termination_underflow :
    (∃ s : State Nat Unit, run State.step (State.init ⟨0, 4⟩ ⟨0, 4⟩ 1) lateRun.dropLast = some s ∧
      s.aborted = false ∧ (∀ i, s.lockOwner i = none) ∧
      s.core.pendingUpdates = 0 ∧ s.core.pendingTotal = 1) ∧
    ∃ s : State Nat Unit, run State.step (State.init ⟨0, 4⟩ ⟨0, 4⟩ 1) lateRun = some s ∧
      s.aborted = true := by
  have hbefore : (run State.step (State.init ⟨0, 4⟩ ⟨0, 4⟩ 1) lateRun.dropLast).any (fun s =>
      decide (s.aborted = false ∧ (∀ i, s.lockOwner i = none) ∧ s.core.pendingUpdates = 0 ∧
        s.core.pendingTotal = 1)) = true := by
    decide +kernel
  have hafter : (run State.step (State.init ⟨0, 4⟩ ⟨0, 4⟩ 1) lateRun).any
      (fun s => decide (s.aborted = true)) = true := by
    decide +kernel
  obtain ⟨s, hs, hcond⟩ := (any_eq_true ..).mp hbefore
  obtain ⟨s', hs', hcond'⟩ := (any_eq_true ..).mp hafter
  exact ⟨⟨s, hs, of_decide_eq_true hcond⟩, s', hs', of_decide_eq_true hcond'⟩

end Xlfn.Subscription
