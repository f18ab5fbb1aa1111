import Xlfn.Subscription.Accounting

/-!
# Xlfn — what each shard section does

One specification per shard critical section of the source: under `CoreWf` it
never reaches `fail_stop`, it keeps `CoreWf`, and it changes exactly the named
entries. The invariants over runs are derived from these alone.
-/

namespace Xlfn.Subscription

open Xlfn.Lib Xlfn.Kernel Function PublishCore State Table TopicShard Option ActiveSubscription

variable {V N : Type} {slack : Slack} {core : PublishCore V N} {i : ShardIndex}

-- ---- Removing pending entries.

/-- `core'` is `core` with the pending entries of one topic reduced to those that
`keep` admits. -/
structure Drained (core core' : PublishCore V N) (i : ShardIndex) (t : TopicId)
    (keep : BufferIndex → QueuedUpdate → Bool) : Prop where
  control       : SameControl core core'
  activeQuota   : core'.activeQuota = core.activeQuota
  deliverable   : core'.deliverablePending ≤ core.deliverablePending
  other         : ∀ j, j ≠ i → core'.shards j = core.shards j
  activeByTopic : (core'.shards i).activeByTopic = (core.shards i).activeByTopic
  topicById     : (core'.shards i).topicById = (core.shards i).topicById
  pending       : ∀ b t', ((core'.shards i).pending b).lookup t' =
    if t' = t then (((core.shards i).pending b).lookup t).filter (keep b)
    else ((core.shards i).pending b).lookup t'

variable {t : TopicId} {keep : BufferIndex → QueuedUpdate → Bool} {core' : PublishCore V N}
  {b : BufferIndex} {a : ActiveSubscription V} {generation : ConnectionGeneration}
  {shard : TopicShard V} {id : SubscriptionId}

/-- Nothing is drained where everything is kept. -/
theorem Drained.refl (h : ∀ b q, ((core.shards i).pending b).lookup t = some q → keep b q = true) :
    Drained core core i t keep where
  control := SameControl.refl core
  activeQuota := rfl
  deliverable := le_rfl
  other := fun _ _ => rfl
  activeByTopic := rfl
  topicById := rfl
  pending := by
    intro b t'
    split
    · next ht =>
      subst ht
      cases hq : ((core.shards i).pending b).lookup t' with
      | none => rfl
      | some q => rw [filter_some, if_pos (h b q hq)]
    · rfl

/-- Two drains keep what both keep. -/
theorem Drained.trans {c₁ c₂ c₃ : PublishCore V N} {keep' : BufferIndex → QueuedUpdate → Bool}
    (h : Drained c₁ c₂ i t keep) (h' : Drained c₂ c₃ i t keep') :
    Drained c₁ c₃ i t fun b q => keep b q && keep' b q where
  control := h.control.trans h'.control
  activeQuota := h'.activeQuota.trans h.activeQuota
  deliverable := h'.deliverable.trans h.deliverable
  other := fun j hj => (h'.other j hj).trans (h.other j hj)
  activeByTopic := h'.activeByTopic.trans h.activeByTopic
  topicById := h'.topicById.trans h.topicById
  pending := by
    intro b t'
    rw [h'.pending, h.pending, h.pending]
    by_cases ht : t' = t
    · rw [if_pos ht, if_pos ht, if_pos rfl, filter_filter]
    · rw [if_neg ht, if_neg ht, if_neg ht]

/-- Equal predicates drain alike. -/
theorem Drained.congr {keep' : BufferIndex → QueuedUpdate → Bool}
    (h : Drained core core' i t keep) (hk : ∀ b q, keep b q = keep' b q) :
    Drained core core' i t keep' := by
  have heq : keep = keep' := by
    funext b q
    exact hk b q
  rw [← heq]
  exact h

/-- A drain commits nothing. -/
theorem Drained.isCommitted (h : Drained core core' i t keep) (t' : TopicId) :
    (core'.shards i).isCommitted t' = (core.shards i).isCommitted t' :=
  isCommitted_congr (by rw [h.activeByTopic])

/-- One pending entry less, in all the counters. -/
theorem recordPendingRemoval_set (core : PublishCore V N) (deliverable : Bool)
    (hp : 0 < core.pendingUpdates)
    (hs : deliverable = true → 1 ≤ (core.shards i).deliverableCount)
    (hd : deliverable = true → 1 ≤ core.deliverablePending) :
    ∃ core', core.recordPendingRemoval i deliverable = some core' ∧
      DeliverableSet { core with pendingUpdates := core.pendingUpdates - 1 } core' i
        ((core.shards i).deliverableCount - if deliverable then 1 else 0) := by
  unfold recordPendingRemoval
  rw [checkedAtomicDec_of_pos hp]
  cases deliverable with
  | true =>
    exact recordDeliverableDecrease_set
      { core with pendingUpdates := core.pendingUpdates - 1 } (hs rfl) (hd rfl)
  | false =>
    exact ⟨_, rfl, DeliverableSet.refl { core with pendingUpdates := core.pendingUpdates - 1 } i⟩

/-- A pending entry that is present leaves its table. It is counted in every view,
so no decrement can underflow. -/
theorem eraseQueued_spec (h : CoreWf slack core) {q : QueuedUpdate}
    (hq : ((core.shards i).pending b).lookup t = some q) :
    ∃ core' n, core.removeQueuedIf i b t (fun _ => true) ((core.shards i).isCommitted t) = some core' ∧
      CoreWf slack core' ∧ SameControl core core' ∧ core'.activeQuota = core.activeQuota ∧
      core'.deliverablePending ≤ core.deliverablePending ∧
      core'.shards = Function.update core.shards i
        { (core.shards i).setPending b (((core.shards i).pending b).erase t) with
          deliverableCount := n } := by
  have hsize := size_erase hq
  have hcount := countKeys_erase (core.shards i).isCommitted hq
  have hset := pendingCount_setPending (core.shards i) b (((core.shards i).pending b).erase t)
  have hcommitted := deliverableEntries_setPending (core.shards i) b
    (((core.shards i).pending b).erase t)
  have hwf := (h.shards i).deliverable
  have hle := h.pendingCount_le i
  have hdle := h.deliverableCount_le i
  have hone : (core.shards i).isCommitted t = true → 1 ≤ (core.shards i).deliverableCount := by
    intro hd
    rw [hd, if_pos rfl] at hcount
    omega
  unfold removeQueuedIf
  simp only [hq, if_true, Quota.releaseCount_of_pos (show 0 < core.queuedUpdateQuota.used by omega),
    bind_eq_bind, bind_some]
  obtain ⟨core', hcore', heff⟩ := recordPendingRemoval_set (i := i)
    ({ core with
      queuedUpdateQuota :=
        { core.queuedUpdateQuota with used := core.queuedUpdateQuota.used - 1 } }.setShard i
      ((core.shards i).setPending b (((core.shards i).pending b).erase t)))
    ((core.shards i).isCommitted t)
    (by change 0 < core.pendingUpdates; omega)
    (by
      intro hd
      simp only [setShard, update_self, setPending_deliverableCount]
      exact hone hd)
    (fun hd => (hone hd).trans hdle)
  have hshards := heff.shards
  have hdeliverable := heff.deliverable
  have hready := heff.ready
  simp only [setShard, update_self, update_idem,
    setPending_deliverableCount] at hshards hdeliverable hready
  refine ⟨core', _, hcore', ?_, ⟨heff.control.lifecycle, heff.control.publishEpoch,
    heff.control.notifiedEpoch, heff.control.refresh⟩, heff.activeQuota, by omega, hshards⟩
  refine h.write hshards ((h.shards i).erasePending hq ?_) ?_ hdeliverable ?_ ?_ ?_
  · cases hc : (core.shards i).isCommitted t with
    | true => have := hone hc; simp only [if_true]; omega
    | false => rfl
  · rw [heff.pending]
    change core.pendingUpdates - 1 + _ = core.pendingUpdates +
      pendingCount ((core.shards i).setPending b (((core.shards i).pending b).erase t))
    omega
  · rw [heff.activeQuota]
    rfl
  · rw [heff.queuedQuota]
    change core.queuedUpdateQuota.used - 1 + _ = core.queuedUpdateQuota.used +
      pendingCount ((core.shards i).setPending b (((core.shards i).pending b).erase t))
    omega
  · intro hr j
    exact hready (h.ready hr i) j

/-- **One pending entry leaves if the predicate holds of it.** -/
theorem removeQueuedIf_spec (h : CoreWf slack core) (b : BufferIndex) (t : TopicId)
    (pred : QueuedUpdate → Bool) {deliverable : Bool}
    (hdel : deliverable = (core.shards i).isCommitted t) :
    ∃ core', core.removeQueuedIf i b t pred deliverable = some core' ∧ CoreWf slack core' ∧
      Drained core core' i t fun b' q => !(decide (b' = b) && pred q) := by
  subst hdel
  cases hq : ((core.shards i).pending b).lookup t with
  | none =>
    refine ⟨core, ?_, h, Drained.refl ?_⟩
    · simp only [removeQueuedIf, hq]
    · intro b' q hb'
      by_cases hb : b' = b
      · subst hb
        rw [hq] at hb'
        cases hb'
      · simp [hb]
  | some q =>
    by_cases hpred : pred q = true
    · obtain ⟨core', n, hcore', hwf, hcontrol, hactive, hle, hshards⟩ := eraseQueued_spec h hq
      refine ⟨core', ?_, hwf, hcontrol, hactive, hle, ?_, ?_, ?_, ?_⟩
      · simp only [removeQueuedIf, hq, if_true] at hcore'
        simp only [removeQueuedIf, hq, hpred, if_true]
        exact hcore'
      · intro j hj
        rw [hshards, update_of_ne hj]
      · rw [hshards, update_self]
        rfl
      · rw [hshards, update_self]
        rfl
      · intro b' t'
        rw [hshards, update_self]
        change (((core.shards i).setPending b (((core.shards i).pending b).erase t)).pending b').lookup
          t' = _
        rw [setPending_pending]
        by_cases hb : b' = b
        · subst hb
          rw [if_pos rfl, lookup_erase_ite, hq, filter_some]
          simp [hpred]
        · rw [if_neg hb]
          by_cases ht : t' = t
          · subst ht
            cases ((core.shards i).pending b').lookup t' <;> simp [hb, filter_some]
          · rw [if_neg ht]
    · refine ⟨core, ?_, h, Drained.refl ?_⟩
      · simp only [removeQueuedIf, hq, hpred]
        rfl
      · intro b' q' hb'
        by_cases hb : b' = b
        · subst hb
          rw [hq] at hb'
          cases hb'
          simp [hpred]
        · simp [hb]

/-- **The entries of a topic leave both tables where the predicate holds.** -/
theorem removeBoth_spec (h : CoreWf slack core) (t : TopicId) (pred : QueuedUpdate → Bool)
    {deliverable : Bool} (hdel : deliverable = (core.shards i).isCommitted t) :
    ∃ core₁ core₂, core.removeQueuedIf i .first t pred deliverable = some core₁ ∧
      core₁.removeQueuedIf i .second t pred deliverable = some core₂ ∧
      (core₁.shards i).isCommitted t = deliverable ∧ CoreWf slack core₂ ∧
      Drained core core₂ i t fun _ q => !pred q := by
  obtain ⟨core₁, h₁, hwf₁, hd₁⟩ := removeQueuedIf_spec h .first t pred hdel
  have hdel₁ : deliverable = (core₁.shards i).isCommitted t := hdel.trans (hd₁.isCommitted t).symm
  obtain ⟨core₂, h₂, hwf₂, hd₂⟩ := removeQueuedIf_spec hwf₁ .second t pred hdel₁
  refine ⟨core₁, core₂, h₁, h₂, hdel₁.symm, hwf₂, (hd₁.trans hd₂).congr ?_⟩
  intro b q
  cases b <;> simp

-- ---- Writing the slots of a subscription.

/-- A subscription is rewritten in place. -/
theorem setActive_wf (h : CoreWf slack core) (a' : ActiveSubscription V)
    (ha : (core.shards i).activeByTopic.lookup t = some a) (hid : a'.id = a.id)
    (hg : a'.generation = a.generation) (hc : a'.committed = a.committed) :
    CoreWf slack (core.setShard i ((core.shards i).setActive t a')) := by
  refine h.write rfl ((h.shards i).setActive a' ha hid hg hc) rfl rfl ?_ rfl ?_
  · rw [activeCount_setActive ha]
    rfl
  · intro hr j
    split
    · next hj =>
      subst hj
      exact h.ready hr j
    · rfl

-- ---- Publication.

/-- A subscription after a value was stored in one of its slots. -/
def ActiveSubscription.stored (a : ActiveSubscription V) (b : BufferIndex) (sequence : Nat)
    (value : V) : ActiveSubscription V :=
  { a.setSlot b (.resident ⟨a.generation, sequence, value⟩) with latestSlot := some b }

/-- `core'` is `core` with a value stored for one topic under a sequence. -/
structure Stored (core core' : PublishCore V N) (b : BufferIndex) (t : TopicId)
    (a : ActiveSubscription V) (sequence : Nat) (value : V) : Prop where
  control       : SameControl core core'
  activeQuota   : core'.activeQuota = core.activeQuota
  deliverable   : a.committed = false → core'.deliverablePending = core.deliverablePending
  other         : ∀ j, j ≠ shardIndex t → core'.shards j = core.shards j
  activeByTopic : ∀ t', (core'.shards (shardIndex t)).activeByTopic.lookup t' =
    if t' = t then some (a.stored b sequence value)
    else (core.shards (shardIndex t)).activeByTopic.lookup t'
  pending       : ∀ b' t', ((core'.shards (shardIndex t)).pending b').lookup t' =
    if b' = b ∧ t' = t then some ⟨a.generation, sequence⟩
    else ((core.shards (shardIndex t)).pending b').lookup t'

/-- The shard after a value was stored. -/
def storedShard (shard : TopicShard V) (b : BufferIndex) (t : TopicId) (a : ActiveSubscription V)
    (sequence : Nat) (value : V) : TopicShard V :=
  (shard.setPending b ((shard.pending b).insert t ⟨a.generation, sequence⟩)).setActive t
    (a.stored b sequence value)

variable {sequence : Nat} {value : V}

/-- The rule for a stored value. -/
theorem Stored.of_shards {n : Nat} (hcontrol : SameControl core core')
    (hactive : core'.activeQuota = core.activeQuota)
    (hd : a.committed = false → core'.deliverablePending = core.deliverablePending)
    (hs : core'.shards = Function.update core.shards (shardIndex t)
      { storedShard (core.shards (shardIndex t)) b t a sequence value with
        deliverableCount := n }) : Stored core core' b t a sequence value where
  control := hcontrol
  activeQuota := hactive
  deliverable := hd
  other := by
    intro j hj
    rw [hs, update_of_ne hj]
  activeByTopic := by
    intro t'
    rw [hs, update_self]
    exact lookup_insert_ite ..
  pending := by
    intro b' t'
    rw [hs, update_self]
    change (((core.shards (shardIndex t)).setPending b _).pending b').lookup t' = _
    rw [setPending_pending]
    by_cases hb : b' = b
    · subst hb
      rw [if_pos rfl, lookup_insert_ite]
      simp
    · rw [if_neg hb]
      simp [hb]

/-- One pending entry more, in all the counters. -/
theorem recordPendingInsert_set (core : PublishCore V N) (i : ShardIndex) (deliverable : Bool) :
    DeliverableSet { core with pendingUpdates := core.pendingUpdates + 1 }
      (core.recordPendingInsert i deliverable) i
      ((core.shards i).deliverableCount + if deliverable then 1 else 0) := by
  cases deliverable with
  | true =>
    exact recordDeliverableIncrease_set { core with pendingUpdates := core.pendingUpdates + 1 } i 1
  | false => exact DeliverableSet.refl { core with pendingUpdates := core.pendingUpdates + 1 } i

/-- **Storing a value.** Only a vacant pending entry can be refused, by the quota. -/
theorem storeValue_spec (h : CoreWf slack core)
    (ha : (core.shards (shardIndex t)).activeByTopic.lookup t = some a) (b : BufferIndex)
    (sequence : Nat) (value : V) : core.storeValue b t a sequence value = none ∨
      ∃ core', core.storeValue b t a sequence value = some core' ∧ CoreWf slack core' ∧
        Stored core core' b t a sequence value := by
  have hset := pendingCount_setPending (core.shards (shardIndex t)) b
    (((core.shards (shardIndex t)).pending b).insert t ⟨a.generation, sequence⟩)
  have hcommitted : (core.shards (shardIndex t)).isCommitted t = a.committed :=
    isCommitted_of_lookup ha
  unfold storeValue
  dsimp only
  cases hq : ((core.shards (shardIndex t)).pending b).lookup t with
  | some q₀ =>
    right
    have hsize := size_insert_old (⟨a.generation, sequence⟩ : QueuedUpdate) hq
    have hwf : ShardWf (shardIndex t) (storedShard (core.shards (shardIndex t)) b t a sequence value) :=
      ((h.shards (shardIndex t)).insertOld (q := ⟨a.generation, sequence⟩) ha rfl hq).setActive
        (a.stored b sequence value) ha rfl rfl rfl
    refine ⟨_, rfl, ?_, Stored.of_shards ⟨rfl, rfl, rfl, rfl⟩ rfl (fun _ => rfl) rfl⟩
    refine h.write rfl hwf ?_ rfl ?_ ?_ ?_
    · change core.pendingUpdates + _ = core.pendingUpdates +
        pendingCount ((core.shards (shardIndex t)).setPending b _)
      omega
    · change core.activeQuota.used + _ = core.activeQuota.used +
        activeCount ((core.shards (shardIndex t)).setActive t (a.stored b sequence value))
      rw [activeCount_setActive ha]
    · change core.queuedUpdateQuota.used + _ = core.queuedUpdateQuota.used +
        pendingCount ((core.shards (shardIndex t)).setPending b _)
      omega
    · intro hr j
      split
      · next hj =>
        subst hj
        exact h.ready hr _
      · rfl
  | none =>
    cases hquota : core.queuedUpdateQuota.acquireCount with
    | none => exact .inl rfl
    | some quota =>
      right
      obtain ⟨hused, -, -⟩ := Quota.acquireCount_eq_some hquota
      have hsize := size_insert_new (⟨a.generation, sequence⟩ : QueuedUpdate) hq
      have heff := recordPendingInsert_set ({ core with queuedUpdateQuota := quota }.setShard
        (shardIndex t) (storedShard (core.shards (shardIndex t)) b t a sequence value))
        (shardIndex t) a.committed
      have hshards := heff.shards
      have hdeliverable := heff.deliverable
      have hready := heff.ready
      simp only [setShard, update_self, update_idem]
        at hshards hdeliverable hready
      have hwf := ((h.shards (shardIndex t)).insertNew (q := ⟨a.generation, sequence⟩) ha rfl
        hq).setActive (a.stored b sequence value) ha rfl rfl rfl
      rw [hcommitted] at hwf
      have hsame : a.committed = false →
          (({ core with queuedUpdateQuota := quota }.setShard (shardIndex t)
            (storedShard (core.shards (shardIndex t)) b t a sequence value)).recordPendingInsert
              (shardIndex t) a.committed).deliverablePending = core.deliverablePending := by
        intro hc
        rw [hc]
        rfl
      refine ⟨({ core with queuedUpdateQuota := quota }.setShard (shardIndex t)
        (storedShard (core.shards (shardIndex t)) b t a sequence value)).recordPendingInsert
          (shardIndex t) a.committed, rfl, ?_, Stored.of_shards ⟨heff.control.lifecycle,
            heff.control.publishEpoch, heff.control.notifiedEpoch, heff.control.refresh⟩
            heff.activeQuota hsame hshards⟩
      refine h.write hshards hwf ?_ hdeliverable ?_ ?_ ?_
      · rw [heff.pending]
        change core.pendingUpdates + 1 + _ = core.pendingUpdates +
          pendingCount ((core.shards (shardIndex t)).setPending b _)
        omega
      · rw [heff.activeQuota]
        change core.activeQuota.used + _ = core.activeQuota.used +
          activeCount ((core.shards (shardIndex t)).setActive t (a.stored b sequence value))
        rw [activeCount_setActive ha]
      · rw [heff.queuedQuota]
        change quota.used + _ = core.queuedUpdateQuota.used +
          pendingCount ((core.shards (shardIndex t)).setPending b _)
        omega
      · intro hr j
        exact hready (h.ready hr _) j

/-- The next sequence, which is then spent. -/
theorem allocateSequence_eq_ok {a' : ActiveSubscription V}
    (h : a.allocateSequence = .ok (sequence, a')) :
    sequence = a.nextSequence ∧ a' = { a with nextSequence := a.nextSequence + 1 } := by
  unfold allocateSequence at h
  split at h
  · next next hnext =>
    cases h
    rw [(checkedIncrement_eq_some hnext).1]
    exact ⟨rfl, rfl⟩
  · cases h

/-- A subscription whose next sequence has been taken. -/
def ActiveSubscription.spent (a : ActiveSubscription V) : ActiveSubscription V :=
  { a with nextSequence := a.nextSequence + 1 }

/-- A publication takes the next sequence of the subscription and, unless the
quota refuses it, stores the value under it. -/
inductive CommitValueCase (core core' : PublishCore V N) (b : BufferIndex) (t : TopicId)
    (generation : ConnectionGeneration) (value : V) : CommitOutcome → Prop
  | refused (error : XllError) (hcore : core' = core) :
      CommitValueCase core core' b t generation value (.refused error)
  | duplicate (hcore : core' = core) : CommitValueCase core core' b t generation value .unchanged
  | overloaded (a : ActiveSubscription V)
      (ha : (core.shards (shardIndex t)).activeByTopic.lookup t = some a)
      (hcore : core' = core.setShard (shardIndex t)
        ((core.shards (shardIndex t)).setActive t a.spent)) :
      CommitValueCase core core' b t generation value (.refused .overloaded)
  | accepted (a : ActiveSubscription V)
      (ha : (core.shards (shardIndex t)).activeByTopic.lookup t = some a)
      (hg : a.generation = generation)
      (hstored : Stored core core' b t a.spent a.nextSequence value) :
      CommitValueCase core core' b t generation value (.accepted a.nextSequence a.committed)

/-- A publication leaves the control fields alone. -/
theorem CommitValueCase.control {outcome : CommitOutcome}
    (h : CommitValueCase core core' b t generation value outcome) : SameControl core core' := by
  cases h with
  | refused error hcore | duplicate hcore => exact hcore ▸ SameControl.refl core
  | overloaded a _ hcore =>
    subst hcore
    exact ⟨rfl, rfl, rfl, rfl⟩
  | accepted a _ _ hstored => exact hstored.control

/-- The spent sequence is part of what is stored. -/
theorem Stored.of_spent
    (h : Stored (core.setShard (shardIndex t) ((core.shards (shardIndex t)).setActive t a.spent))
      core' b t a.spent sequence value) : Stored core core' b t a.spent sequence value where
  control := ⟨h.control.lifecycle, h.control.publishEpoch, h.control.notifiedEpoch,
    h.control.refresh⟩
  activeQuota := h.activeQuota
  deliverable := h.deliverable
  other := by
    intro j hj
    rw [h.other j hj]
    exact update_of_ne hj ..
  activeByTopic := by
    intro t'
    rw [h.activeByTopic]
    by_cases ht : t' = t
    · rw [if_pos ht, if_pos ht]
    · rw [if_neg ht, if_neg ht, setShard_self, setActive_lookup, if_neg ht]
  pending := by
    intro b' t'
    rw [h.pending, setShard_self, setActive_pending]

/-- **A publication.** -/
theorem commitValue_spec [BEq V] (h : CoreWf slack core) (b : BufferIndex) (t : TopicId)
    (generation : ConnectionGeneration) (value : V) :
    CoreWf slack (core.commitValue b t generation value).1 ∧
      CommitValueCase core (core.commitValue b t generation value).1 b t generation value
        (core.commitValue b t generation value).2 := by
  unfold commitValue
  dsimp only
  cases ha : (core.shards (shardIndex t)).activeByTopic.lookup t with
  | none => exact ⟨h, .refused _ rfl⟩
  | some a =>
    dsimp only
    by_cases hg : a.generation = generation
    swap
    · rw [if_pos hg]
      exact ⟨h, .refused _ rfl⟩
    rw [if_neg (not_not.mpr hg)]
    by_cases hdup : isDuplicate a value = true
    · rw [if_pos hdup]
      exact ⟨h, .duplicate rfl⟩
    rw [if_neg hdup]
    cases halloc : a.allocateSequence with
    | error error => exact ⟨h, .refused _ rfl⟩
    | ok r =>
      obtain ⟨sequence, a₁⟩ := r
      obtain ⟨rfl, rfl⟩ := allocateSequence_eq_ok halloc
      have hwf := setActive_wf h a.spent ha rfl rfl rfl
      have hlookup : ((core.setShard (shardIndex t) ((core.shards (shardIndex t)).setActive t
          a.spent)).shards (shardIndex t)).activeByTopic.lookup t = some a.spent := by
        rw [setShard_self, setActive_lookup, if_pos rfl]
      rcases storeValue_spec hwf hlookup b a.nextSequence value with
        hnone | ⟨core', hcore', hwf', hstored⟩
      · simp only [spent] at hnone hwf
        simp only [hnone]
        exact ⟨hwf, .overloaded a ha rfl⟩
      · simp only [spent] at hcore'
        simp only [hcore']
        exact ⟨hwf', .accepted a ha hg hstored.of_spent⟩

-- ---- Connections.

/-- The subscription `reserve_connection` creates. -/
def ActiveSubscription.fresh (id : SubscriptionId) (generation : ConnectionGeneration) :
    ActiveSubscription V where
  id           := id
  generation   := generation
  committed    := false
  values       := fun _ => .empty
  latestSlot   := none
  nextSequence := 0

/-- `core'` is `core` with a fresh subscription for an unused topic. -/
structure Reserved (core core' : PublishCore V N) (t : TopicId) (id : SubscriptionId)
    (generation : ConnectionGeneration) : Prop where
  control       : SameControl core core'
  deliverable   : core'.deliverablePending = core.deliverablePending
  other         : ∀ j, j ≠ shardIndex t → core'.shards j = core.shards j
  vacant        : (core.shards (shardIndex t)).activeByTopic.lookup t = none
  activeByTopic : ∀ t', (core'.shards (shardIndex t)).activeByTopic.lookup t' =
    if t' = t then some (.fresh id generation)
    else (core.shards (shardIndex t)).activeByTopic.lookup t'
  pending       : (core'.shards (shardIndex t)).pending = (core.shards (shardIndex t)).pending

/-- **A reservation** either fails without a trace or creates the subscription. -/
theorem reserveConnection_spec (h : CoreWf slack core) (t : TopicId) (id : SubscriptionId)
    (generation : ConnectionGeneration) :
    (∃ error, core.reserveConnection t id generation = (core, .error error)) ∨
      ∃ core', core.reserveConnection t id generation = (core', .ok ()) ∧ CoreWf slack core' ∧
        Reserved core core' t id generation := by
  unfold reserveConnection
  dsimp only
  cases core.ensureOpen with
  | error error => exact .inl ⟨error, rfl⟩
  | ok _ =>
    dsimp only
    cases ha : (core.shards (shardIndex t)).activeByTopic.lookup t with
    | some a => exact .inl ⟨_, rfl⟩
    | none =>
      cases hid : (core.shards (shardIndex t)).topicById.lookup id with
      | some t' => exact .inl ⟨_, rfl⟩
      | none =>
        simp only [isSome_none, Bool.false_eq_true, if_false]
        cases hquota : core.activeQuota.acquireCount with
        | none => exact .inl ⟨_, rfl⟩
        | some quota =>
          right
          obtain ⟨hused, -, -⟩ := Quota.acquireCount_eq_some hquota
          have hsize := size_insert_new
            (fresh id generation : ActiveSubscription V) ha
          have hwf := (h.shards (shardIndex t)).reserve (t := t)
            (a := fresh id generation) rfl ha hid
          refine ⟨_, rfl, h.write rfl hwf rfl rfl ?_ rfl ?_, ⟨rfl, rfl, rfl, rfl⟩, rfl, ?_, ha, ?_, ?_⟩
          · change quota.used + _ = core.activeQuota.used + size
              ((core.shards (shardIndex t)).activeByTopic.insert t (.fresh id generation))
            rw [hsize, activeCount]
            omega
          · intro hr j
            split
            · next hj =>
              subst hj
              exact h.ready hr _
            · rfl
          · intro j hj
            exact update_of_ne hj ..
          · intro t'
            rw [setShard_self]
            exact lookup_insert_ite ..
          · rw [setShard_self]

/-- Which pending entries survive a commit: those newer than the observed value. -/
def newerThan (observed : Option Nat) (q : QueuedUpdate) : Bool := observed.all (· < q.sequence)

/-- The observed entries are dropped. -/
theorem dropObserved_spec (h : CoreWf slack core)
    (ha : (core.shards (shardIndex t)).activeByTopic.lookup t = some a) (observed : Option Nat) :
    ∃ core', core.dropObserved t a.committed observed = some core' ∧ CoreWf slack core' ∧
      Drained core core' (shardIndex t) t fun _ q => newerThan observed q := by
  cases observed with
  | none => exact ⟨core, rfl, h, Drained.refl fun _ _ _ => rfl⟩
  | some observed =>
    obtain ⟨core₁, core₂, h₁, h₂, -, hwf, hdrained⟩ := removeBoth_spec (i := shardIndex t) h t
      (fun q => decide (q.sequence ≤ observed)) (isCommitted_of_lookup ha).symm
    refine ⟨core₂, ?_, hwf, hdrained.congr ?_⟩
    · simp only [dropObserved, h₁, bind_eq_bind, bind_some, h₂]
    · intro b q
      change (!decide (q.sequence ≤ observed)) = decide (observed < q.sequence)
      rw [← decide_not, decide_eq_decide]
      exact not_le

/-- `core'` is `core` with a topic's subscription committed. -/
structure Committed (core core' : PublishCore V N) (t : TopicId) (a : ActiveSubscription V)
    (observed : Option Nat) : Prop where
  control       : SameControl core core'
  other         : ∀ j, j ≠ shardIndex t → core'.shards j = core.shards j
  activeByTopic : ∀ t', (core'.shards (shardIndex t)).activeByTopic.lookup t' =
    if t' = t then some { a with committed := true }
    else (core.shards (shardIndex t)).activeByTopic.lookup t'
  pending       : ∀ b t', ((core'.shards (shardIndex t)).pending b).lookup t' =
    if t' = t then (((core.shards (shardIndex t)).pending b).lookup t).filter (newerThan observed)
    else ((core.shards (shardIndex t)).pending b).lookup t'

/-- Where all entries are newer, the unobserved are the pending ones. -/
theorem unobservedCount_eq (h : ShardWf i shard) (ha : shard.activeByTopic.lookup t = some a)
    {observed : Option Nat}
    (hnewer : ∀ b q, (shard.pending b).lookup t = some q → newerThan observed q = true) :
    unobservedCount shard t a.generation observed = pendingBuffers shard t := by
  have hbuf : ∀ b, (((shard.pending b).lookup t).any fun q =>
      decide (q.connectionGeneration = a.generation) && observed.all (· < q.sequence)) =
      ((shard.pending b).lookup t).isSome := by
    intro b
    cases hq : (shard.pending b).lookup t with
    | none => rfl
    | some q =>
      obtain ⟨a', ha', hg⟩ := h.pendingActive b t q hq
      rw [ha] at ha'
      cases ha'
      have hnew := hnewer b q hq
      rw [newerThan] at hnew
      simp [hg, hnew]
  simp only [unobservedCount, BufferIndex.all, List.countP_cons, List.countP_nil, hbuf,
    pendingBuffers, sumBuffers]
  omega

/-- **A commit** fails without a trace or commits the subscription. -/
theorem commitConnection_spec (h : CoreWf slack core) (t : TopicId)
    (generation : ConnectionGeneration) (observed : Option Nat) :
    (∃ error, core.commitConnection t generation observed = some (core, .error error)) ∨
      ∃ core' hasPending a, core.commitConnection t generation observed =
          some (core', .ok hasPending) ∧
        (core.shards (shardIndex t)).activeByTopic.lookup t = some a ∧
        a.generation = generation ∧ CoreWf slack core' ∧ Committed core core' t a observed ∧
        (hasPending = false → core'.deliverablePending ≤ core.deliverablePending) := by
  unfold commitConnection
  dsimp only
  cases ha : (core.shards (shardIndex t)).activeByTopic.lookup t with
  | none => exact .inl ⟨_, rfl⟩
  | some a =>
    dsimp only
    by_cases hg : a.generation = generation
    swap
    · rw [if_pos hg]
      exact .inl ⟨_, rfl⟩
    right
    subst hg
    rw [if_neg (not_not.mpr rfl)]
    obtain ⟨core₁, hcore₁, hwf₁, hdrained⟩ := dropObserved_spec h ha observed
    have ha₁ : (core₁.shards (shardIndex t)).activeByTopic.lookup t = some a := by
      rw [hdrained.activeByTopic, ha]
    have hcount : unobservedCount (core₁.shards (shardIndex t)) t a.generation observed =
        pendingBuffers (core₁.shards (shardIndex t)) t := by
      refine unobservedCount_eq (hwf₁.shards _) ha₁ fun b q hq => ?_
      rw [hdrained.pending, if_pos rfl] at hq
      exact (filter_eq_some_iff.mp hq).2
    simp only [hcore₁, bind_eq_bind, bind_some, hcount]
    have hlookup : ∀ t', ((core₁.shards (shardIndex t)).setActive t
        { a with committed := true }).activeByTopic.lookup t' =
        if t' = t then some { a with committed := true }
        else (core.shards (shardIndex t)).activeByTopic.lookup t' := by
      intro t'
      rw [setActive_lookup, hdrained.activeByTopic]
    cases hc : a.committed with
    | true =>
      -- A second commit leaves every count as it is.
      simp only [Bool.true_eq_false, if_false]
      refine ⟨_, _, a, rfl, rfl, rfl, setActive_wf hwf₁ _ ha₁ rfl rfl hc.symm, ?_, ?_⟩
      · refine ⟨hdrained.control.trans ⟨rfl, rfl, rfl, rfl⟩, ?_, ?_, ?_⟩
        · intro j hj
          exact (setShard_ne _ _ hj).trans (hdrained.other j hj)
        · intro t'
          rw [setShard_self, hlookup]
        · intro b t'
          rw [setShard_self, setActive_pending]
          exact hdrained.pending b t'
      · intro _
        exact hdrained.deliverable
    | false =>
      have heff := recordDeliverableIncrease_set (core₁.setShard (shardIndex t)
        ((core₁.shards (shardIndex t)).setActive t { a with committed := true })) (shardIndex t)
        (pendingBuffers (core₁.shards (shardIndex t)) t)
      have hshards := heff.shards
      have hdeliverable := heff.deliverable
      have hready := heff.ready
      simp only [setShard, update_self, update_idem,
        setActive_deliverableCount] at hshards hdeliverable hready
      simp only [if_true]
      refine ⟨_, _, a, rfl, rfl, rfl, ?_, ?_, ?_⟩
      · refine hwf₁.write hshards ((hwf₁.shards _).commit ha₁ hc) ?_ hdeliverable ?_ ?_ ?_
        · exact congrArg (· + _) heff.pending
        · refine (congrArg (·.used + _) heff.activeQuota).trans ?_
          change core₁.activeQuota.used + _ = core₁.activeQuota.used + activeCount
            ((core₁.shards (shardIndex t)).setActive t { a with committed := true })
          rw [activeCount_setActive ha₁]
        · exact congrArg (·.used + _) heff.queuedQuota
        · intro hr j
          exact hready (hwf₁.ready hr _) j
      · refine ⟨hdrained.control.trans ⟨heff.control.lifecycle, heff.control.publishEpoch,
          heff.control.notifiedEpoch, heff.control.refresh⟩, ?_, ?_, ?_⟩
        · intro j hj
          refine (congrFun hshards j).trans ?_
          rw [update_of_ne hj]
          exact hdrained.other j hj
        · intro t'
          refine (congrArg (fun f => (f (shardIndex t)).activeByTopic.lookup t') hshards).trans ?_
          rw [update_self]
          exact hlookup t'
        · intro b t'
          refine (congrArg (fun f => ((f (shardIndex t)).pending b).lookup t') hshards).trans ?_
          rw [update_self]
          exact hdrained.pending b t'
      · intro hnone
        have hzero : pendingBuffers (core₁.shards (shardIndex t)) t = 0 := by simpa using hnone
        refine le_trans ?_ hdrained.deliverable
        simp only [setShard]
        omega

/-- `core'` is `core` with the pending entries of a topic reduced to those `keep`
admits and, if `gone`, without its subscription. -/
structure Withdrawn (core core' : PublishCore V N) (t : TopicId) (keep : QueuedUpdate → Bool)
    (gone : Bool) : Prop where
  control       : SameControl core core'
  deliverable   : core'.deliverablePending ≤ core.deliverablePending
  other         : ∀ j, j ≠ shardIndex t → core'.shards j = core.shards j
  activeByTopic : ∀ t', (core'.shards (shardIndex t)).activeByTopic.lookup t' =
    if t' = t ∧ gone = true then none else (core.shards (shardIndex t)).activeByTopic.lookup t'
  pending       : ∀ b t', ((core'.shards (shardIndex t)).pending b).lookup t' =
    if t' = t then (((core.shards (shardIndex t)).pending b).lookup t).filter keep
    else ((core.shards (shardIndex t)).pending b).lookup t'

/-- A withdrawal that finds the topic with another connection. -/
theorem Withdrawn.of_kept {core₂ : PublishCore V N} {keep : QueuedUpdate → Bool}
    (h : Drained core core₂ (shardIndex t) t fun _ => keep) (hcontrol : SameControl core₂ core')
    (hd : core'.deliverablePending = core₂.deliverablePending) (hs : core'.shards = core₂.shards) :
    Withdrawn core core' t keep false where
  control := h.control.trans hcontrol
  deliverable := hd ▸ h.deliverable
  other := by
    intro j hj
    rw [hs, h.other j hj]
  activeByTopic := by
    intro t'
    rw [hs, h.activeByTopic]
    simp
  pending := by
    rw [hs]
    exact h.pending

/-- A withdrawal that removes the subscription. -/
theorem Withdrawn.of_removed {core₂ : PublishCore V N} {keep : QueuedUpdate → Bool}
    {topicById : Table SubscriptionId TopicId} {quota : Quota}
    (h : Drained core core₂ (shardIndex t) t fun _ => keep) :
    Withdrawn core ({ core₂ with activeQuota := quota }.setShard (shardIndex t)
      { core₂.shards (shardIndex t) with
        activeByTopic := (core.shards (shardIndex t)).activeByTopic.erase t
        topicById := topicById }) t keep true where
  control := h.control.trans ⟨rfl, rfl, rfl, rfl⟩
  deliverable := h.deliverable
  other := by
    intro j hj
    exact (setShard_ne _ _ hj).trans (h.other j hj)
  activeByTopic := by
    intro t'
    rw [setShard_self, lookup_erase_ite]
    simp
  pending := by
    intro b t'
    rw [setShard_self]
    exact h.pending b t'

/-- A subscription without pending entries is removed. -/
theorem removeActive_wf (h : CoreWf slack core)
    (ha : (core.shards i).activeByTopic.lookup t = some a)
    (hq : ∀ b, ((core.shards i).pending b).lookup t = none) :
    ∃ quota, core.activeQuota.releaseCount = some quota ∧
      CoreWf slack ({ core with activeQuota := quota }.setShard i
        { core.shards i with
          activeByTopic := (core.shards i).activeByTopic.erase t
          topicById := (core.shards i).topicById.erase a.id }) := by
  have hsize := size_erase ha
  have hle := h.activeCount_le i
  rw [activeCount] at hle
  refine ⟨_, Quota.releaseCount_of_pos (by omega), ?_⟩
  refine h.write rfl ((h.shards i).remove ha hq) rfl rfl ?_ rfl ?_
  · change core.activeQuota.used - 1 + size (core.shards i).activeByTopic =
      core.activeQuota.used + size ((core.shards i).activeByTopic.erase t)
    omega
  · intro hr j
    split
    · next hj =>
      subst hj
      exact h.ready hr _
    · rfl

/-- Its id goes with it. -/
theorem forgetId_of_removed (h : ShardWf i shard) (ha : shard.activeByTopic.lookup t = some a)
    (generation : ConnectionGeneration) :
    forgetId shard.topicById (shard.activeByTopic.erase t) generation a.id =
      shard.topicById.erase a.id := by
  have hid := (h.inverse a.id t).mpr ⟨a, ha, rfl⟩
  rw [forgetId, hid, any_some, AList.lookup_erase]
  rfl

/-- Without a removal the ids stay. -/
theorem forgetId_of_kept (h : ShardWf i shard)
    (hown : ∀ t' a, shard.activeByTopic.lookup t' = some a → a.generation = generation →
      t' = t ∧ a.id = id)
    (hkept : (shard.activeByTopic.lookup t).any (·.generation = generation) = false) :
    forgetId shard.topicById shard.activeByTopic generation id = shard.topicById := by
  rw [forgetId, if_neg]
  intro hany
  obtain ⟨t', ht', hall⟩ := (any_eq_true ..).mp hany
  obtain ⟨a, ha, -⟩ := (h.inverse id t').mp ht'
  rw [ha, all_some, decide_eq_true_eq] at hall
  obtain ⟨rfl, -⟩ := hown t' a ha hall
  rw [ha, any_some, decide_eq_false_iff_not] at hkept
  exact hkept hall

/-- **A rollback** withdraws the transaction's own subscription, if it is still
there, and nothing else, and says whether it was there. The transaction owns its
generation. -/
theorem rollbackConnection_withdrawn (h : CoreWf slack core)
    (hown : ∀ t' a, (core.shards (shardIndex t)).activeByTopic.lookup t' = some a →
      a.generation = generation → t' = t ∧ a.id = id) :
    ∃ core', core.rollbackConnection t generation id = some (core',
        ((core.shards (shardIndex t)).activeByTopic.lookup t).any (·.generation = generation)) ∧
      CoreWf slack core' ∧
      Withdrawn core core' t (fun q => !decide (q.connectionGeneration = generation))
        (((core.shards (shardIndex t)).activeByTopic.lookup t).any (·.generation = generation)) := by
  obtain ⟨core₁, core₂, h₁, h₂, hsame, hwf, hdrained⟩ := removeBoth_spec (i := shardIndex t) h t
    (fun q => decide (q.connectionGeneration = generation)) rfl
  have hactive := hdrained.activeByTopic
  unfold rollbackConnection removePendingIf withdrawConnection
  simp only [h₁, bind_eq_bind, bind_some, hsame, h₂, hactive]
  cases hgone : ((core.shards (shardIndex t)).activeByTopic.lookup t).any
      (fun a => decide (a.generation = generation)) with
  | false =>
    -- Another connection has the topic by now, or none: only pending entries left.
    rw [← hactive] at hown hgone
    have hkept := forgetId_of_kept (hwf.shards (shardIndex t)) hown hgone
    rw [hactive] at hkept
    simp only [hkept, Bool.false_eq_true, if_false]
    have hsame : core₂.setShard (shardIndex t) (core₂.shards (shardIndex t)) = core₂ := by
      rw [setShard, update_eq_self]
    refine ⟨core₂, ?_, hwf, Withdrawn.of_kept hdrained (SameControl.refl _) rfl rfl⟩
    rw [← hactive]
    exact congrArg (fun c => some (c, false)) hsame
  | true =>
    obtain ⟨a, ha, hg⟩ := (any_eq_true ..).mp hgone
    rw [decide_eq_true_eq] at hg
    have hnone : ∀ b, ((core₂.shards (shardIndex t)).pending b).lookup t = none := by
      intro b
      rw [hdrained.pending, if_pos rfl]
      cases hq : ((core.shards (shardIndex t)).pending b).lookup t with
      | none => rfl
      | some q =>
        obtain ⟨a', ha', hg'⟩ := (h.shards _).pendingActive b t q hq
        rw [ha] at ha'
        cases ha'
        rw [filter_some]
        simp [← hg', hg]
    obtain ⟨-, rfl⟩ := hown t a ha hg
    rw [← hactive] at ha
    obtain ⟨quota, hquota, hwf'⟩ := removeActive_wf hwf ha hnone
    have hforget := forgetId_of_removed (hwf.shards (shardIndex t)) ha generation
    rw [hactive] at hforget hwf'
    simp only [if_true, hquota, bind_some, hforget]
    exact ⟨_, rfl, hwf', Withdrawn.of_removed hdrained⟩

/-- **A disconnect** fails without a trace, finds nothing, or withdraws the
subscription of the topic with all its pending entries. -/
theorem disconnectConnection_spec (h : CoreWf slack core) (t : TopicId) :
    ∃ core' result, core.disconnectConnection t = some (core', result) ∧ CoreWf slack core' ∧
      (core' = core ∨ Withdrawn core core' t (fun _ => false) true) := by
  unfold disconnectConnection
  dsimp only
  cases core.ensureOpen with
  | error error => exact ⟨_, _, rfl, h, .inl rfl⟩
  | ok _ =>
    dsimp only
    cases ha : (core.shards (shardIndex t)).activeByTopic.lookup t with
    | none => exact ⟨_, _, rfl, h, .inl rfl⟩
    | some a =>
      obtain ⟨core₁, core₂, h₁, h₂, -, hwf, hdrained⟩ := removeBoth_spec (i := shardIndex t) h t
        (fun _ => true) (isCommitted_of_lookup ha).symm
      have hnone : ∀ b, ((core₂.shards (shardIndex t)).pending b).lookup t = none := by
        intro b
        rw [hdrained.pending, if_pos rfl]
        cases ((core.shards (shardIndex t)).pending b).lookup t <;> rfl
      have ha₂ : (core₂.shards (shardIndex t)).activeByTopic.lookup t = some a := by
        rw [hdrained.activeByTopic, ha]
      obtain ⟨quota, hquota, hwf'⟩ := removeActive_wf hwf ha₂ hnone
      simp only [h₁, h₂, hquota, bind_eq_bind, bind_some]
      refine ⟨_, _, rfl, hwf', .inr ?_⟩
      rw [hdrained.activeByTopic]
      exact Withdrawn.of_removed hdrained

-- ---- Refresh.

/-- Moving one value into the batch changes a slot of one subscription. -/
theorem pushDeliverable_cases (activeByTopic : Table TopicId (ActiveSubscription V))
    (updates : List (RtdUpdate V)) (item : CollectItem) :
    pushDeliverable activeByTopic updates item = (activeByTopic, updates) ∨
      ∃ a versioned, activeByTopic.lookup item.topicId = some a ∧ a.committed = true ∧
        a.generation = item.queued.connectionGeneration ∧
        a.values item.buffer = .resident versioned ∧
        versioned.generation = item.queued.connectionGeneration ∧
        versioned.sequence = item.queued.sequence ∧
        pushDeliverable activeByTopic updates item =
          (activeByTopic.insert item.topicId (a.setSlot item.buffer
              (.inFlight item.queued.connectionGeneration item.queued.sequence)),
            updates ++ [⟨item.queued.sequence, item.topicId, item.queued.connectionGeneration,
              item.buffer, versioned.value⟩]) := by
  unfold pushDeliverable
  cases ha : activeByTopic.lookup item.topicId with
  | none => exact .inl rfl
  | some a =>
    dsimp only
    split
    · exact .inl rfl
    · next hok =>
      cases hslot : a.values item.buffer with
      | empty | inFlight _ _ => exact .inl rfl
      | resident versioned =>
        dsimp only
        split
        · exact .inl rfl
        · next hmatch =>
          simp only [Bool.or_eq_true, decide_eq_true_eq, not_or, Bool.not_eq_false, ne_eq,
            not_not] at hok hmatch
          exact .inr ⟨a, versioned, rfl, hok.1, hok.2, hslot, hmatch.1, hmatch.2, rfl⟩

/-- The collection loop over part of its items. -/
def collectLoop (activeByTopic : Table TopicId (ActiveSubscription V))
    (updates : List (RtdUpdate V)) (items : List CollectItem) :
    Table TopicId (ActiveSubscription V) × List (RtdUpdate V) :=
  items.foldl (fun acc item => PublishCore.pushDeliverable acc.1 acc.2 item) (activeByTopic, updates)

/-- The loop takes one item and goes on. -/
theorem collectLoop_cons (activeByTopic : Table TopicId (ActiveSubscription V))
    (updates : List (RtdUpdate V)) (item : CollectItem) (items : List CollectItem) :
    collectLoop activeByTopic updates (item :: items) =
      collectLoop (pushDeliverable activeByTopic updates item).1
        (pushDeliverable activeByTopic updates item).2 items := rfl

/-- The core with the subscriptions of one shard replaced. -/
def PublishCore.withActive (core : PublishCore V N) (i : ShardIndex)
    (activeByTopic : Table TopicId (ActiveSubscription V)) : PublishCore V N :=
  core.setShard i { core.shards i with activeByTopic }

/-- The loop keeps the accounting. -/
theorem collectLoop_wf (items : List CollectItem) :
    ∀ (activeByTopic : Table TopicId (ActiveSubscription V)) (updates : List (RtdUpdate V)),
      CoreWf slack (core.withActive i activeByTopic) →
      CoreWf slack (core.withActive i (collectLoop activeByTopic updates items).1) := by
  induction items with
  | nil =>
    intro activeByTopic updates h
    exact h
  | cons item items ih =>
    intro activeByTopic updates h
    rw [collectLoop_cons]
    refine ih _ _ ?_
    rcases pushDeliverable_cases activeByTopic updates item with
      heq | ⟨a, versioned, ha, -, -, -, -, -, heq⟩
    · rw [heq]
      exact h
    · rw [heq]
      have ha' : ((core.withActive i activeByTopic).shards i).activeByTopic.lookup item.topicId =
          some a := by
        rw [withActive, setShard_self]
        exact ha
      have hset := setActive_wf h (a.setSlot item.buffer
        (.inFlight item.queued.connectionGeneration item.queued.sequence)) ha' rfl rfl rfl
      refine hset.congr ?_ rfl rfl rfl rfl rfl
      simp only [withActive, setShard, update_self, update_idem, setActive]

/-- A shard without candidates is left alone. -/
theorem collectShard_eq (core : PublishCore V N) (i : ShardIndex) (updates : List (RtdUpdate V)) :
    core.collectShard i updates = (core, updates) ∨
      core.collectShard i updates =
        (core.withActive i (collectLoop (core.shards i).activeByTopic updates
            (collectItems (core.shards i))).1,
          (collectLoop (core.shards i).activeByTopic updates
            (collectItems (core.shards i))).2) := by
  unfold collectShard
  dsimp only
  split
  · exact .inl rfl
  · exact .inr rfl

/-- **Collecting a shard** moves values and counts nothing. -/
theorem collectShard_wf (h : CoreWf slack core) (updates : List (RtdUpdate V)) :
    CoreWf slack (core.collectShard i updates).1 ∧
      SameControl core (core.collectShard i updates).1 ∧
      (core.collectShard i updates).1.deliverablePending = core.deliverablePending := by
  rcases collectShard_eq core i updates with heq | heq
  · rw [heq]
    exact ⟨h, SameControl.refl core, rfl⟩
  · rw [heq]
    refine ⟨collectLoop_wf _ _ _ ?_, ⟨rfl, rfl, rfl, rfl⟩, rfl⟩
    refine h.congr ?_ rfl rfl rfl rfl rfl
    simp only [withActive, setShard, update_eq_self]

/-- A slot is restored only for its own update. -/
theorem restoreSlot_cases (core : PublishCore V N) (update : RtdUpdate V)
    (slot : ActiveSubscription V → ValueSlot V) :
    core.restoreSlot update slot = core ∨
      ∃ a, (core.shards (shardIndex update.topicId)).activeByTopic.lookup update.topicId = some a ∧
        ownsSlot a update = true ∧
        core.restoreSlot update slot = core.setShard (shardIndex update.topicId)
          ((core.shards (shardIndex update.topicId)).setActive update.topicId
            (a.setSlot update.buffer (slot a))) := by
  unfold restoreSlot
  dsimp only
  cases ha : (core.shards (shardIndex update.topicId)).activeByTopic.lookup update.topicId with
  | none => exact .inl rfl
  | some a =>
    dsimp only
    split
    · next hown => exact .inr ⟨a, rfl, hown, rfl⟩
    · exact .inl rfl

/-- Restoring a slot keeps the accounting. -/
theorem restoreSlot_wf (h : CoreWf slack core) (update : RtdUpdate V)
    (slot : ActiveSubscription V → ValueSlot V) :
    CoreWf slack (core.restoreSlot update slot) ∧
      SameControl core (core.restoreSlot update slot) ∧
      (core.restoreSlot update slot).deliverablePending = core.deliverablePending := by
  rcases restoreSlot_cases core update slot with heq | ⟨a, ha, -, heq⟩
  · rw [heq]
    exact ⟨h, SameControl.refl core, rfl⟩
  · rw [heq]
    exact ⟨setActive_wf h _ ha rfl rfl rfl, ⟨rfl, rfl, rfl, rfl⟩, rfl⟩

/-- The subscription of a topic after `retire_pending_through` has emptied its
outdated slots. -/
def retireSlots (shard : TopicShard V) (t : TopicId) (generation : ConnectionGeneration)
    (delivered : Nat) (a : ActiveSubscription V) : ActiveSubscription V :=
  { a with values := fun b =>
      if PublishCore.slotRetired shard a t generation delivered b then .empty else a.values b }

/-- What `retire_pending_through` removes. -/
def retired (generation : ConnectionGeneration) (delivered : Nat) (q : QueuedUpdate) : Bool :=
  decide (q.connectionGeneration = generation) && decide (q.sequence ≤ delivered)

/-- **Retiring a delivered update.** -/
theorem retirePendingThrough_spec (h : CoreWf slack core) (t : TopicId)
    (generation : ConnectionGeneration) (delivered : Nat) :
    ∃ core₂ core', core.retirePendingThrough t generation delivered = some core' ∧
      CoreWf slack core' ∧
      Drained core core₂ (shardIndex t) t (fun _ q => !retired generation delivered q) ∧
      (((core.shards (shardIndex t)).activeByTopic.lookup t = none ∧ core' = core₂) ∨
        ∃ a, (core.shards (shardIndex t)).activeByTopic.lookup t = some a ∧
          core' = core₂.setShard (shardIndex t) ((core₂.shards (shardIndex t)).setActive t
            (retireSlots (core₂.shards (shardIndex t)) t generation delivered a))) := by
  obtain ⟨core₁, core₂, h₁, h₂, hsame, hwf, hdrained⟩ := removeBoth_spec (i := shardIndex t) h t
    (retired generation delivered) rfl
  unfold retirePendingThrough removePendingIf
  have hpred : (fun q : QueuedUpdate => decide (q.connectionGeneration = generation) &&
      decide (q.sequence ≤ delivered)) = retired generation delivered := rfl
  simp only [hpred, h₁, bind_eq_bind, bind_some, hsame, h₂]
  cases ha : (core₂.shards (shardIndex t)).activeByTopic.lookup t with
  | none =>
    refine ⟨core₂, core₂, rfl, hwf, hdrained, .inl ⟨?_, rfl⟩⟩
    rw [← hdrained.activeByTopic, ha]
  | some a =>
    refine ⟨core₂, _, rfl, setActive_wf hwf _ ha rfl rfl rfl, hdrained, .inr ⟨a, ?_, rfl⟩⟩
    rw [← hdrained.activeByTopic, ha]

/-- **Completing one update** counts what it retires. -/
theorem completeUpdate_spec (h : CoreWf slack core) (outcome : RefreshOutcome)
    (update : RtdUpdate V) :
    ∃ core', core.completeUpdate outcome update = some core' ∧ CoreWf slack core' ∧
      SameControl core core' ∧ core'.deliverablePending ≤ core.deliverablePending := by
  unfold completeUpdate
  cases outcome with
  | failed =>
    obtain ⟨hwf, hcontrol, hd⟩ := restoreSlot_wf h update fun _ => residentOf update
    exact ⟨_, rfl, hwf, hcontrol, hd.le⟩
  | delivered =>
    dsimp only
    obtain ⟨hwf, hcontrol, hd⟩ := restoreSlot_wf h update fun a =>
      if a.latestSlot = some update.buffer then residentOf update else .empty
    obtain ⟨core₂, core', heq, hwf', hdrained, hlast⟩ := retirePendingThrough_spec hwf
      update.topicId update.connectionGeneration update.sequence
    have hdle := hdrained.deliverable
    rw [hd] at hdle
    refine ⟨core', heq, hwf', ?_, ?_⟩
    · refine (hcontrol.trans hdrained.control).trans ?_
      rcases hlast with ⟨-, rfl⟩ | ⟨a, -, rfl⟩ <;> exact ⟨rfl, rfl, rfl, rfl⟩
    · rcases hlast with ⟨-, rfl⟩ | ⟨a, -, rfl⟩ <;> exact hdle

-- ---- Termination.

/-- **Clearing a shard** takes its entries out of the tables but not out of the
shared counters, and leaves its ready bit behind. -/
theorem clearShard_spec (h : CoreWf slack core) (i : ShardIndex) :
    ∃ core', core.clearShard i = some core' ∧ SameControl core core' ∧
      core'.deliverablePending = core.deliverablePending ∧
      core'.shards = Function.update core.shards i
        { core.shards i with pending := fun _ => ∅, deliverableCount := 0 } ∧
      CoreWf { slack with
        pending := slack.pending + pendingCount (core.shards i)
        deliverable := slack.deliverable + (core.shards i).deliverableCount
        ready := false } core' := by
  have hle := (h.pendingCount_le i).2
  rw [pendingCount] at hle
  unfold clearShard
  dsimp only
  rw [checkedSubOrAbort_of_le hle]
  refine ⟨_, rfl, ⟨rfl, rfl, rfl, rfl⟩, rfl, rfl, ?_⟩
  refine h.writeSlack rfl (h.shards i).clear ?_ ?_ rfl ?_ ?_
  · change core.pendingUpdates + pendingCount (core.shards i) + slack.pending =
      core.pendingUpdates + 0 + (slack.pending + pendingCount (core.shards i))
    omega
  · change core.deliverablePending + (core.shards i).deliverableCount + slack.deliverable =
      core.deliverablePending + 0 + (slack.deliverable + (core.shards i).deliverableCount)
    omega
  · change core.queuedUpdateQuota.used - _ + pendingCount (core.shards i) + slack.queued =
      core.queuedUpdateQuota.used + 0 + slack.queued
    rw [pendingCount]
    omega
  · intro hr
    cases hr

end Xlfn.Subscription
