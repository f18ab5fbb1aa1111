import Xlfn.Subscription.Control
import Xlfn.Subscription.Inversion
import Xlfn.Subscription.Sections

/-!
# Xlfn — only termination writes the lifecycle

`Effect.opened` needs no invariant: even in a state where the accounting has gone
wrong no section but those of termination touches `lifecycle`. So a run that ends
on an open server has never left it.
-/

namespace Xlfn.Subscription

open Xlfn.Lib Xlfn.Kernel PublishCore

variable {V N : Type} {s s' : State V N} {action : Action V N}

section

variable {core core' : PublishCore V N}

theorem recordDeliverableIncrease_lifecycle (core : PublishCore V N) (i : ShardIndex) (n : Nat) :
    (core.recordDeliverableIncrease i n).lifecycle = core.lifecycle :=
  (recordDeliverableIncrease_set core i n).control.lifecycle

variable {deliverable : Bool} {t : TopicId} {i : ShardIndex}

theorem recordPendingRemoval_lifecycle (h : core.recordPendingRemoval i deliverable = some core') :
    core'.lifecycle = core.lifecycle := by
  obtain ⟨pendingUpdates, -, h⟩ := Option.bind_eq_some_iff.mp h
  cases deliverable with
  | false =>
    cases h
    rfl
  | true =>
    dsimp only at h
    rw [if_pos rfl, recordDeliverableDecrease, if_neg one_ne_zero] at h
    obtain ⟨deliverableCount, -, h⟩ := Option.bind_eq_some_iff.mp h
    obtain ⟨deliverablePending, -, h⟩ := Option.bind_eq_some_iff.mp h
    cases h
    rfl

theorem removeQueuedIf_lifecycle {b : BufferIndex} {pred : QueuedUpdate → Bool}
    (h : core.removeQueuedIf i b t pred deliverable = some core') :
    core'.lifecycle = core.lifecycle := by
  unfold removeQueuedIf at h
  dsimp only at h
  split at h
  · cases h
    rfl
  · split at h
    · obtain ⟨quota, -, h⟩ := Option.bind_eq_some_iff.mp h
      have hlifecycle := recordPendingRemoval_lifecycle h
      exact hlifecycle
    · cases h
      rfl

theorem removeBoth_lifecycle {α : Type} {pred : QueuedUpdate → Bool}
    {deliverable' : PublishCore V N → Bool} {next : PublishCore V N → Option α} {a : α}
    (h : ((core.removeQueuedIf i .first t pred deliverable).bind fun core₁ =>
      (core₁.removeQueuedIf i .second t pred (deliverable' core₁)).bind next) = some a) :
    ∃ core₂ : PublishCore V N, core₂.lifecycle = core.lifecycle ∧ next core₂ = some a := by
  obtain ⟨core₁, h₁, h⟩ := Option.bind_eq_some_iff.mp h
  obtain ⟨core₂, h₂, h⟩ := Option.bind_eq_some_iff.mp h
  exact ⟨core₂, (removeQueuedIf_lifecycle h₂).trans (removeQueuedIf_lifecycle h₁), h⟩

theorem commitConnection_lifecycle {g : ConnectionGeneration} {observed : Option Nat}
    {result : Except XllError Bool}
    (h : core.commitConnection t g observed = some (core', result)) :
    core'.lifecycle = core.lifecycle := by
  unfold commitConnection at h
  dsimp only at h
  split at h
  · cases h
    rfl
  · split at h
    · cases h
      rfl
    · obtain ⟨core₁, hdrop, h⟩ := Option.bind_eq_some_iff.mp h
      have hlifecycle : core₁.lifecycle = core.lifecycle := by
        cases observed with
        | none =>
          cases hdrop
          rfl
        | some sequence =>
          obtain ⟨core₂, h₁, h₂⟩ := Option.bind_eq_some_iff.mp hdrop
          exact (removeQueuedIf_lifecycle h₂).trans (removeQueuedIf_lifecycle h₁)
      cases h
      split
      · exact (recordDeliverableIncrease_lifecycle ..).trans hlifecycle
      · exact hlifecycle

theorem rollbackConnection_lifecycle {g : ConnectionGeneration} {id : SubscriptionId}
    {removed : Bool} (h : core.rollbackConnection t g id = some (core', removed)) :
    core'.lifecycle = core.lifecycle := by
  obtain ⟨core₂, hlifecycle, h⟩ := removeBoth_lifecycle h
  refine Eq.trans ?_ hlifecycle
  unfold withdrawConnection at h
  dsimp only at h
  split at h
  · obtain ⟨quota, -, h⟩ := Option.bind_eq_some_iff.mp h
    cases h
    rfl
  · cases h
    rfl

theorem disconnectConnection_lifecycle {result : Except XllError (Option RetiredConnection)}
    (h : core.disconnectConnection t = some (core', result)) :
    core'.lifecycle = core.lifecycle := by
  unfold disconnectConnection at h
  dsimp only at h
  split at h
  · cases h
    rfl
  · split at h
    · cases h
      rfl
    · obtain ⟨core₂, hlifecycle, h⟩ := removeBoth_lifecycle h
      obtain ⟨quota, -, h⟩ := Option.bind_eq_some_iff.mp h
      cases h
      exact hlifecycle

theorem commitValue_lifecycle [BEq V] (core : PublishCore V N) (b : BufferIndex) (t : TopicId)
    (g : ConnectionGeneration) (value : V) :
    (core.commitValue b t g value).1.lifecycle = core.lifecycle := by
  unfold commitValue
  dsimp only
  split
  · rfl
  · split
    · rfl
    · split
      · rfl
      · split
        · rfl
        · next sequence active _ =>
          cases hstore : (core.setShard (shardIndex t)
            ((core.shards (shardIndex t)).setActive t active)).storeValue b t active sequence
              value with
          | none => rfl
          | some stored =>
            unfold storeValue at hstore
            dsimp only at hstore
            split at hstore
            · cases hstore
              rfl
            · obtain ⟨quota, -, rfl⟩ := Option.map_eq_some_iff.mp hstore
              exact (recordPendingInsert_set _ _ _).control.lifecycle

theorem reserveConnection_lifecycle (core : PublishCore V N) (t : TopicId) (id : SubscriptionId)
    (g : ConnectionGeneration) : (core.reserveConnection t id g).1.lifecycle = core.lifecycle := by
  unfold reserveConnection
  dsimp only
  split
  · rfl
  · split
    · rfl
    · split
      · rfl
      · split <;> rfl

theorem completeUpdate_lifecycle {outcome : RefreshOutcome} {update : RtdUpdate V}
    (h : core.completeUpdate outcome update = some core') :
    core'.lifecycle = core.lifecycle := by
  have hrestore : ∀ slot, (core.restoreSlot update slot).lifecycle = core.lifecycle := by
    intro slot
    rcases restoreSlot_cases core update slot with heq | ⟨a, -, -, heq⟩
    · rw [heq]
    · rw [heq]
      rfl
  cases outcome with
  | failed =>
    cases h
    exact hrestore _
  | delivered =>
    obtain ⟨core₂, hlifecycle, h⟩ := removeBoth_lifecycle h
    refine Eq.trans ?_ (hlifecycle.trans (hrestore _))
    dsimp only at h
    split at h
    · cases h
      rfl
    · cases h
      rfl

end

/-- **A server that is open after a step was open before it.** -/
theorem Effect.opened [BEq V] (h : Effect s action s') (hopen : s'.core.lifecycle = .opened) :
    s.core.lifecycle = .opened := by
  cases h with
  | progress _ _ _ _ hcore | admitted _ _ _ hcore | connected _ _ _ hcore
  | installed _ _ _ _ hcore | completing _ _ _ _ _ _ _ _ hcore | mismatched _ _ _ _ _ hcore
  | resetPending _ _ _ _ _ _ _ hcore | resetDeliverable _ _ _ _ hcore | resetReady _ _ hcore
  | foreignActive _ _ _ _ hcore | foreignQueued _ _ _ _ hcore | foreignGeneration _ hcore
  | aborted hcore => rwa [hcore] at hopen
  | published op o o' sink value epoch outcome _ _ _ hvalue =>
    have hsame := commitValue_lifecycle s.core (BufferIndex.fromEpoch epoch) sink.topicId
      sink.connectionGeneration value
    rw [hvalue] at hsame
    exact hsame.symm.trans hopen
  | reserved op c o' _ _ _ result hreserve =>
    have hsame := reserveConnection_lifecycle s.core c.topicId c.id c.generation
    rw [hreserve] at hsame
    exact hsame.symm.trans hopen
  | committed op c observed epoch o' result _ _ _ hcommit =>
    exact (commitConnection_lifecycle hcommit).symm.trans hopen
  | rolledBack op c removed _ _ _ hrollback =>
    exact (rollbackConnection_lifecycle hrollback).symm.trans hopen
  | prepared _ _ _ _ hcore =>
    rwa [hcore, (s.core.prepareNotification_rewritten true).data.lifecycle] at hopen
  | attached op notifier o' _ _ hcore =>
    rwa [hcore, (s.core.attachUpdateNotifier_rewritten notifier).data.lifecycle] at hopen
  | pulsed op o' _ _ hcore =>
    rwa [hcore, s.core.pulseNotification_rewritten.data.lifecycle] at hopen
  | planned op result _ _ hplan =>
    exact (planRefresh_spec hplan).1.lifecycle.symm.trans hopen
  | driven op attempt after succeeded o' _ hcore =>
    rwa [hcore, (s.core.finishNotificationAttempt_spec attempt succeeded).1.data.lifecycle]
      at hopen
  | disconnected t result _ _ _ hdisconnect =>
    exact (disconnectConnection_lifecycle hdisconnect).symm.trans hopen
  | detached hcore =>
    rwa [hcore, s.core.detachUpdateNotifier_rewritten.data.lifecycle] at hopen
  | collected batch index remaining _ _ _ hcore =>
    rcases collectShard_eq s.core index batch.updates with heq | heq <;>
      rw [hcore, heq] at hopen <;> exact hopen
  | abandoned _ _ _ _ _ _ hcore =>
    rwa [hcore, (s.core.abortEmptyRefresh_data _).lifecycle] at hopen
  | completed _ _ _ _ _ _ _ _ _ hcomplete =>
    exact (completeUpdate_lifecycle hcomplete).symm.trans hopen
  | refreshed _ _ _ _ _ _ _ _ _ hcore =>
    rwa [hcore, (s.core.finishRefresh_data _ _).lifecycle] at hopen
  | closing next gateOpen hnext =>
    rcases hnext with ⟨-, -, heq⟩ | ⟨-, -, heq⟩ <;> rw [heq] at hopen
    · exact hopen
    · cases hopen
  | cleared index _ _ _ _ _ hclear =>
    obtain ⟨used, -, hclear⟩ := Option.bind_eq_some_iff.mp hclear
    rw [← Option.some.inj hclear] at hopen
    exact hopen
  | finished _ _ _ hfinish =>
    simp only [State.finishTermination, Option.bind_eq_bind, Option.bind_eq_some_iff] at hfinish
    obtain ⟨active, -, queued, -, hfinish⟩ := hfinish
    rw [← Option.some.inj hfinish] at hopen
    cases hopen

end Xlfn.Subscription
