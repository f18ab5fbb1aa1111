import Mathlib.Algebra.Order.BigOperators.Group.Finset
import Xlfn.Subscription.Shard

/-!
# Xlfn — accounting of the publish core

The shared counters, the ready bits and the two quotas repeat what the shards
hold. `CoreWf` says by how much each of them may be off: a `Slack` counts the
entries `clear_pending` has taken out of the shards before it resets the
counters, and the permits other servers hold on the shared quotas.
-/

namespace Xlfn.Subscription

open Xlfn.Lib Xlfn.Kernel BitVec Finset Function PublishCore State

variable {V N : Type}

@[simp] theorem PublishCore.setShard_self (core : PublishCore V N) (i : ShardIndex)
    (shard : TopicShard V) : (core.setShard i shard).shards i = shard :=
  update_self ..

theorem PublishCore.setShard_ne (core : PublishCore V N) {i j : ShardIndex}
    (shard : TopicShard V) (h : j ≠ i) : (core.setShard i shard).shards j = core.shards j :=
  update_of_ne h ..

-- ---- The invariant.

/-- How far the shared views may be from the shards. -/
structure Slack where
  pending     : Nat
  deliverable : Nat
  active      : Nat
  queued      : Nat
  ready       : Bool

/-- The pending entries of all shards. -/
def PublishCore.pendingTotal (core : PublishCore V N) : Nat :=
  ∑ i, State.pendingCount (core.shards i)

/-- The deliverable counts of all shards. -/
def PublishCore.deliverableTotal (core : PublishCore V N) : Nat :=
  ∑ i, (core.shards i).deliverableCount

/-- The active subscriptions of all shards. -/
def PublishCore.activeTotal (core : PublishCore V N) : Nat :=
  ∑ i, State.activeCount (core.shards i)

/-- **The accounting invariant.** -/
structure CoreWf (slack : Slack) (core : PublishCore V N) : Prop where
  shards      : ∀ i, ShardWf i (core.shards i)
  pending     : core.pendingUpdates = core.pendingTotal + slack.pending
  deliverable : core.deliverablePending = core.deliverableTotal + slack.deliverable
  active      : core.activeQuota.used = core.activeTotal + slack.active
  queued      : core.queuedUpdateQuota.used = core.pendingTotal + slack.queued
  ready       : slack.ready = true → ∀ i : ShardIndex,
    core.readyShards.getLsbD i = decide (0 < (core.shards i).deliverableCount)

/-- The lifecycle, the epochs and the refresh state are untouched. -/
structure SameControl (core core' : PublishCore V N) : Prop where
  lifecycle     : core'.lifecycle = core.lifecycle
  publishEpoch  : core'.publishEpoch = core.publishEpoch
  notifiedEpoch : core'.notifiedEpoch = core.notifiedEpoch
  refresh       : core'.refresh = core.refresh

theorem SameControl.refl (core : PublishCore V N) : SameControl core core := ⟨rfl, rfl, rfl, rfl⟩

theorem SameControl.trans {c₁ c₂ c₃ : PublishCore V N} (h : SameControl c₁ c₂)
    (h' : SameControl c₂ c₃) : SameControl c₁ c₃ :=
  ⟨h'.lifecycle.trans h.lifecycle, h'.publishEpoch.trans h.publishEpoch,
    h'.notifiedEpoch.trans h.notifiedEpoch, h'.refresh.trans h.refresh⟩

section

variable {slack : Slack} {core core' : PublishCore V N} {i : ShardIndex} {shard' : TopicShard V}

/-- **One write to one shard.** Counters, quotas and slack together follow the shard. -/
theorem CoreWf.writeSlack {slack' : Slack} (h : CoreWf slack core)
    (hs : core'.shards = update core.shards i shard') (hwf : ShardWf i shard')
    (hp : core'.pendingUpdates + pendingCount (core.shards i) + slack.pending =
      core.pendingUpdates + pendingCount shard' + slack'.pending)
    (hd : core'.deliverablePending + (core.shards i).deliverableCount + slack.deliverable =
      core.deliverablePending + shard'.deliverableCount + slack'.deliverable)
    (ha : core'.activeQuota.used + activeCount (core.shards i) + slack.active =
      core.activeQuota.used + activeCount shard' + slack'.active)
    (hq : core'.queuedUpdateQuota.used + pendingCount (core.shards i) + slack.queued =
      core.queuedUpdateQuota.used + pendingCount shard' + slack'.queued)
    (hr : slack'.ready = true → slack.ready = true ∧ ∀ j : ShardIndex, core'.readyShards.getLsbD j =
        if j = i then decide (0 < shard'.deliverableCount) else core.readyShards.getLsbD j) :
    CoreWf slack' core' := by
  have hsum : ∀ g : TopicShard V → Nat,
      (∑ j, g (core'.shards j)) + g (core.shards i) = (∑ j, g (core.shards j)) + g shard' := by
    intro g
    rw [hs]
    exact sum_update_add g core.shards i shard'
  have hpend := hsum pendingCount
  have hdel := hsum (·.deliverableCount)
  have hact := hsum activeCount
  have h₁ := h.pending
  have h₂ := h.deliverable
  have h₃ := h.active
  have h₄ := h.queued
  simp only [pendingTotal, deliverableTotal, activeTotal]
    at h₁ h₂ h₃ h₄
  refine ⟨?_, ?_, ?_, ?_, ?_, ?_⟩
  · intro j
    rw [hs]
    by_cases hj : j = i
    · subst hj
      rw [update_self]
      exact hwf
    · rw [update_of_ne hj]
      exact h.shards j
  · rw [pendingTotal]
    omega
  · rw [deliverableTotal]
    omega
  · rw [activeTotal]
    omega
  · rw [pendingTotal]
    omega
  · intro hready j
    obtain ⟨hready, hbits⟩ := hr hready
    rw [hbits j, hs]
    by_cases hj : j = i
    · subst hj
      rw [if_pos rfl, update_self]
    · rw [if_neg hj, update_of_ne hj]
      exact h.ready hready j

/-- The one place where sums over the shards are computed: a write to one shard that moves the
counters by the same amount keeps `CoreWf`. -/
theorem CoreWf.write (h : CoreWf slack core)
    (hs : core'.shards = update core.shards i shard') (hwf : ShardWf i shard')
    (hp : core'.pendingUpdates + pendingCount (core.shards i) =
      core.pendingUpdates + pendingCount shard')
    (hd : core'.deliverablePending + (core.shards i).deliverableCount =
      core.deliverablePending + shard'.deliverableCount)
    (ha : core'.activeQuota.used + activeCount (core.shards i) =
      core.activeQuota.used + activeCount shard')
    (hq : core'.queuedUpdateQuota.used + pendingCount (core.shards i) =
      core.queuedUpdateQuota.used + pendingCount shard')
    (hr : slack.ready = true → ∀ j : ShardIndex, core'.readyShards.getLsbD j =
      if j = i then decide (0 < shard'.deliverableCount) else core.readyShards.getLsbD j) :
    CoreWf slack core' :=
  h.writeSlack hs hwf (by omega) (by omega) (by omega) (by omega) fun hready => ⟨hready, hr hready⟩

theorem CoreWf.congr (h : CoreWf slack core) (hs : core'.shards = core.shards)
    (hp : core'.pendingUpdates = core.pendingUpdates)
    (hd : core'.deliverablePending = core.deliverablePending)
    (ha : core'.activeQuota = core.activeQuota)
    (hq : core'.queuedUpdateQuota = core.queuedUpdateQuota)
    (hr : core'.readyShards = core.readyShards) : CoreWf slack core' := by
  refine ⟨?_, ?_, ?_, ?_, ?_, ?_⟩
  · rw [hs]
    exact h.shards
  · rw [hp, pendingTotal, hs]
    exact h.pending
  · rw [hd, deliverableTotal, hs]
    exact h.deliverable
  · rw [ha, activeTotal, hs]
    exact h.active
  · rw [hq, pendingTotal, hs]
    exact h.queued
  · rw [hr, hs]
    exact h.ready

theorem CoreWf.pendingCount_le (h : CoreWf slack core) (i : ShardIndex) :
    pendingCount (core.shards i) ≤ core.pendingUpdates ∧
      pendingCount (core.shards i) ≤ core.queuedUpdateQuota.used := by
  have hle : pendingCount (core.shards i) ≤ core.pendingTotal :=
    single_le_sum (f := fun j => pendingCount (core.shards j))
      (fun _ _ => Nat.zero_le _) (mem_univ i)
  have h₁ := h.pending
  have h₂ := h.queued
  omega

theorem CoreWf.deliverableCount_le (h : CoreWf slack core) (i : ShardIndex) :
    (core.shards i).deliverableCount ≤ core.deliverablePending := by
  have hle : (core.shards i).deliverableCount ≤ core.deliverableTotal :=
    single_le_sum (f := fun j => (core.shards j).deliverableCount)
      (fun _ _ => Nat.zero_le _) (mem_univ i)
  have h₁ := h.deliverable
  omega

theorem CoreWf.activeCount_le (h : CoreWf slack core) (i : ShardIndex) :
    activeCount (core.shards i) ≤ core.activeQuota.used := by
  have hle : activeCount (core.shards i) ≤ core.activeTotal :=
    single_le_sum (f := fun j => activeCount (core.shards j))
      (fun _ _ => Nat.zero_le _) (mem_univ i)
  have h₁ := h.active
  omega

end

-- ---- Ready bits and deliverable counters.

theorem getLsbD_or_twoPow (bits : BitVec topicShards) (i j : ShardIndex) :
    (bits ||| twoPow topicShards i).getLsbD j = if j = i then true else bits.getLsbD j := by
  rw [getLsbD_or, getLsbD_twoPow]
  by_cases h : j = i
  · subst h
    simp [j.isLt]
  · have hne : (i : Nat) ≠ j := fun heq => h (Fin.ext heq.symm)
    simp [h, hne]

theorem getLsbD_and_not_twoPow (bits : BitVec topicShards) (i j : ShardIndex) :
    (bits &&& ~~~(twoPow topicShards i)).getLsbD j =
      if j = i then false else bits.getLsbD j := by
  rw [getLsbD_and, getLsbD_not, getLsbD_twoPow]
  by_cases h : j = i
  · subst h
    simp [j.isLt]
  · have hne : (i : Nat) ≠ j := fun heq => h (Fin.ext heq.symm)
    simp [h, hne, j.isLt]

/-- `core'` differs from `core` in the deliverable counters of one shard only,
which now stand at `count` entries for the shard. -/
structure DeliverableSet (core core' : PublishCore V N) (i : ShardIndex) (count : Nat) : Prop where
  shards      : core'.shards =
    Function.update core.shards i { core.shards i with deliverableCount := count }
  deliverable : core'.deliverablePending + (core.shards i).deliverableCount =
    core.deliverablePending + count
  pending     : core'.pendingUpdates = core.pendingUpdates
  activeQuota : core'.activeQuota = core.activeQuota
  queuedQuota : core'.queuedUpdateQuota = core.queuedUpdateQuota
  control     : SameControl core core'
  ready       : core.readyShards.getLsbD i = decide (0 < (core.shards i).deliverableCount) →
    ∀ j : ShardIndex, core'.readyShards.getLsbD j =
      if j = i then decide (0 < count) else core.readyShards.getLsbD j

theorem DeliverableSet.refl (core : PublishCore V N) (i : ShardIndex) :
    DeliverableSet core core i (core.shards i).deliverableCount where
  shards := (update_eq_self i core.shards).symm
  deliverable := rfl
  pending := rfl
  activeQuota := rfl
  queuedQuota := rfl
  control := SameControl.refl core
  ready := by
    intro hi j
    split
    · next hj =>
      subst hj
      exact hi
    · rfl

theorem recordDeliverableIncrease_set (core : PublishCore V N) (i : ShardIndex) (count : Nat) :
    DeliverableSet core (core.recordDeliverableIncrease i count) i
      ((core.shards i).deliverableCount + count) := by
  unfold recordDeliverableIncrease
  by_cases hc : count = 0
  · rw [if_pos hc, hc]
    exact DeliverableSet.refl core i
  · rw [if_neg hc]
    refine ⟨rfl, ?_, rfl, rfl, rfl, ⟨rfl, rfl, rfl, rfl⟩, ?_⟩
    · change core.deliverablePending + count + _ = _
      omega
    · intro hi j
      change (if (core.shards i).deliverableCount = 0 then _ else _ : BitVec topicShards).getLsbD j = _
      have hpos : 0 < (core.shards i).deliverableCount + count := by omega
      by_cases hz : (core.shards i).deliverableCount = 0
      · rw [if_pos hz, getLsbD_or_twoPow, decide_eq_true hpos]
      · rw [if_neg hz, decide_eq_true hpos]
        split
        · next hj =>
          subst hj
          rw [hi, decide_eq_true (Nat.pos_of_ne_zero hz)]
        · rfl

theorem recordDeliverableDecrease_set (core : PublishCore V N) {i : ShardIndex} {count : Nat}
    (hs : count ≤ (core.shards i).deliverableCount) (hc : count ≤ core.deliverablePending) :
    ∃ core', core.recordDeliverableDecrease i count = some core' ∧
      DeliverableSet core core' i ((core.shards i).deliverableCount - count) := by
  unfold recordDeliverableDecrease
  by_cases hz : count = 0
  · rw [if_pos hz, hz]
    exact ⟨core, rfl, DeliverableSet.refl core i⟩
  · rw [if_neg hz]
    dsimp only
    rw [checkedSubOrAbort_of_le hs, checkedSubOrAbort_of_le hc]
    refine ⟨_, rfl, rfl, ?_, rfl, rfl, rfl, ⟨rfl, rfl, rfl, rfl⟩, ?_⟩
    · change core.deliverablePending - count + _ = _
      omega
    · intro hi j
      change (if (core.shards i).deliverableCount - count = 0 then _ else _ :
        BitVec topicShards).getLsbD j = _
      by_cases hzero : (core.shards i).deliverableCount - count = 0
      · rw [if_pos hzero, getLsbD_and_not_twoPow, hzero]
        rfl
      · rw [if_neg hzero, decide_eq_true (Nat.pos_of_ne_zero hzero)]
        split
        · next hj =>
          subst hj
          rw [hi, decide_eq_true (by omega)]
        · rfl

end Xlfn.Subscription
