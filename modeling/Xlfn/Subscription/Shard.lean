import Xlfn.Subscription.Machine

/-!
# Xlfn — representation invariant of one topic shard

A shard keeps the same facts several times: the active subscriptions, their
inverse map, two tables of pending updates and the count of those that can be
delivered. `ShardWf` says that the copies agree; the lemmas below say that each
kind of write the operations perform keeps them in agreement.
-/

namespace Xlfn.Subscription

open Xlfn.Lib Function Table TopicShard

variable {V N : Type}

-- ---- Counting over both buffers.

/-- The total over the two buffers. -/
def sumBuffers (f : BufferIndex → Nat) : Nat := f .first + f .second

theorem sumBuffers_update {α : Type} (g : α → Nat) (f : BufferIndex → α) (b : BufferIndex) (x : α) :
    sumBuffers (fun b' => g (update f b x b')) + g (f b) =
      sumBuffers (fun b' => g (f b')) + g x := by
  cases b <;> simp [sumBuffers, update] <;> omega

theorem sumBuffers_congr {f g : BufferIndex → Nat} (h : ∀ b, f b = g b) :
    sumBuffers f = sumBuffers g := by
  rw [sumBuffers, sumBuffers, h, h]

/-- The pending entries of committed subscriptions. -/
def deliverableEntries (shard : TopicShard V) : Nat :=
  sumBuffers fun b => Table.countKeys shard.isCommitted (shard.pending b)

theorem pendingCount_eq (shard : TopicShard V) :
    State.pendingCount shard = sumBuffers fun b => size (shard.pending b) := rfl

theorem deliverableEntries_le (shard : TopicShard V) :
    deliverableEntries shard ≤ State.pendingCount shard := by
  have h₀ := countKeys_le_size shard.isCommitted (shard.pending .first)
  have h₁ := countKeys_le_size shard.isCommitted (shard.pending .second)
  simp only [deliverableEntries, sumBuffers, State.pendingCount]
  omega

-- ---- Reading a shard after one write.

variable {shard : TopicShard V}

namespace TopicShard

@[simp] theorem setPending_deliverableCount (shard : TopicShard V) (b : BufferIndex)
    (p : Table TopicId QueuedUpdate) :
    (shard.setPending b p).deliverableCount = shard.deliverableCount := rfl

@[simp] theorem setActive_topicById (shard : TopicShard V) (t : TopicId)
    (a : ActiveSubscription V) : (shard.setActive t a).topicById = shard.topicById := rfl

@[simp] theorem setActive_pending (shard : TopicShard V) (t : TopicId)
    (a : ActiveSubscription V) : (shard.setActive t a).pending = shard.pending := rfl

@[simp] theorem setActive_deliverableCount (shard : TopicShard V) (t : TopicId)
    (a : ActiveSubscription V) :
    (shard.setActive t a).deliverableCount = shard.deliverableCount := rfl

theorem setPending_pending (shard : TopicShard V) (b b' : BufferIndex)
    (p : Table TopicId QueuedUpdate) :
    (shard.setPending b p).pending b' = if b' = b then p else shard.pending b' := by
  by_cases h : b' = b
  · subst h
    rw [if_pos rfl]
    exact update_self ..
  · rw [if_neg h]
    exact update_of_ne h ..

theorem setActive_lookup (shard : TopicShard V) (t t' : TopicId) (a : ActiveSubscription V) :
    (shard.setActive t a).activeByTopic.lookup t' =
      if t' = t then some a else shard.activeByTopic.lookup t' :=
  lookup_insert_ite ..

theorem isCommitted_of_lookup {t : TopicId} {a : ActiveSubscription V}
    (h : shard.activeByTopic.lookup t = some a) : shard.isCommitted t = a.committed := by
  rw [isCommitted, h]
  rfl

theorem isCommitted_congr {shard' : TopicShard V} {t : TopicId}
    (h : shard'.activeByTopic.lookup t = shard.activeByTopic.lookup t) :
    shard'.isCommitted t = shard.isCommitted t := by
  rw [isCommitted, isCommitted, h]

theorem setActive_isCommitted {t : TopicId} {a a' : ActiveSubscription V}
    (h : shard.activeByTopic.lookup t = some a) (hc : a'.committed = a.committed) :
    (shard.setActive t a').isCommitted = shard.isCommitted := by
  funext t'
  by_cases ht : t' = t
  · subst ht
    rw [isCommitted_of_lookup h, ← hc]
    refine isCommitted_of_lookup (a := a') ?_
    rw [setActive_lookup, if_pos rfl]
  · refine isCommitted_congr ?_
    rw [setActive_lookup, if_neg ht]

end TopicShard

-- ---- The invariant.

/-- **The representation invariant of a shard.** -/
structure ShardWf (index : ShardIndex) (shard : TopicShard V) : Prop where
  /-- A pending entry belongs to an active subscription of the same generation. -/
  pendingActive : ∀ b t q, (shard.pending b).lookup t = some q →
    ∃ a, shard.activeByTopic.lookup t = some a ∧ a.generation = q.connectionGeneration
  /-- The count is the number of pending entries of committed subscriptions. -/
  deliverable : shard.deliverableCount = deliverableEntries shard
  /-- The topic map and the subscription map are inverse to each other. -/
  inverse : ∀ id t, shard.topicById.lookup id = some t ↔
    ∃ a, shard.activeByTopic.lookup t = some a ∧ a.id = id
  /-- Every topic is in the shard its number selects. -/
  located : ∀ t a, shard.activeByTopic.lookup t = some a → shardIndex t = index

theorem ShardWf.default (index : ShardIndex) : ShardWf index (default : TopicShard V) where
  pendingActive := by
    intro b t q h
    cases h
  deliverable := rfl
  inverse := by
    intro id t
    constructor
    · intro h
      cases h
    · rintro ⟨a, h, -⟩
      cases h
  located := by
    intro t a h
    cases h

section

variable {index : ShardIndex} {b : BufferIndex} {t : TopicId}

theorem deliverableEntries_setPending (shard : TopicShard V) (b : BufferIndex)
    (p : Table TopicId QueuedUpdate) :
    deliverableEntries (shard.setPending b p) + countKeys shard.isCommitted (shard.pending b) =
      deliverableEntries shard + countKeys shard.isCommitted p :=
  sumBuffers_update (countKeys shard.isCommitted) shard.pending b p

theorem pendingCount_setPending (shard : TopicShard V) (b : BufferIndex)
    (p : Table TopicId QueuedUpdate) :
    State.pendingCount (shard.setPending b p) + size (shard.pending b) =
      State.pendingCount shard + size p :=
  sumBuffers_update size shard.pending b p

/-- One pending entry goes, comes or is overwritten. -/
theorem ShardWf.erasePending (h : ShardWf index shard) {q : QueuedUpdate} {n : Nat}
    (hq : (shard.pending b).lookup t = some q)
    (hn : n + (if shard.isCommitted t then 1 else 0) = shard.deliverableCount) :
    ShardWf index
      { shard.setPending b ((shard.pending b).erase t) with deliverableCount := n } where
  pendingActive := by
    intro b' t' q' hq'
    replace hq' : ((shard.setPending b ((shard.pending b).erase t)).pending b').lookup t' =
      some q' := hq'
    rw [setPending_pending] at hq'
    split at hq'
    · rw [lookup_erase_ite] at hq'
      split at hq'
      · cases hq'
      · exact h.pendingActive b t' q' hq'
    · exact h.pendingActive b' t' q' hq'
  deliverable := by
    have hset := deliverableEntries_setPending shard b ((shard.pending b).erase t)
    have herase := countKeys_erase shard.isCommitted hq
    have hold := h.deliverable
    change n = deliverableEntries (shard.setPending b ((shard.pending b).erase t))
    omega
  inverse := h.inverse
  located := h.located

variable {a : ActiveSubscription V}

/-- A pending entry of an active subscription appears and the count follows. -/
theorem ShardWf.insertNew (h : ShardWf index shard) {q : QueuedUpdate}
    (ha : shard.activeByTopic.lookup t = some a) (hg : a.generation = q.connectionGeneration)
    (hq : (shard.pending b).lookup t = none) : ShardWf index
      { shard.setPending b ((shard.pending b).insert t q) with
        deliverableCount := shard.deliverableCount + if shard.isCommitted t then 1 else 0 } where
  pendingActive := by
    intro b' t' q' hq'
    replace hq' : ((shard.setPending b ((shard.pending b).insert t q)).pending b').lookup t' =
      some q' := hq'
    rw [setPending_pending] at hq'
    split at hq'
    · rw [lookup_insert_ite] at hq'
      split at hq'
      · next ht =>
        cases hq'
        subst ht
        exact ⟨a, ha, hg⟩
      · exact h.pendingActive b t' q' hq'
    · exact h.pendingActive b' t' q' hq'
  deliverable := by
    have hset := deliverableEntries_setPending shard b ((shard.pending b).insert t q)
    have hins := countKeys_insert_new shard.isCommitted q hq
    have hold := h.deliverable
    change shard.deliverableCount + _ =
      deliverableEntries (shard.setPending b ((shard.pending b).insert t q))
    omega
  inverse := h.inverse
  located := h.located

theorem ShardWf.insertOld (h : ShardWf index shard) {q q₀ : QueuedUpdate}
    (ha : shard.activeByTopic.lookup t = some a) (hg : a.generation = q.connectionGeneration)
    (hq : (shard.pending b).lookup t = some q₀) :
    ShardWf index (shard.setPending b ((shard.pending b).insert t q)) where
  pendingActive := by
    intro b' t' q' hq'
    rw [setPending_pending] at hq'
    split at hq'
    · rw [lookup_insert_ite] at hq'
      split at hq'
      · next ht =>
        cases hq'
        subst ht
        exact ⟨a, ha, hg⟩
      · exact h.pendingActive b t' q' hq'
    · exact h.pendingActive b' t' q' hq'
  deliverable := by
    have hset := deliverableEntries_setPending shard b ((shard.pending b).insert t q)
    have hins := countKeys_insert_old shard.isCommitted q hq
    have hold := h.deliverable
    rw [setPending_deliverableCount]
    omega
  inverse := h.inverse
  located := h.located

theorem activeCount_setActive {a' : ActiveSubscription V}
    (ha : shard.activeByTopic.lookup t = some a) :
    State.activeCount (shard.setActive t a') = State.activeCount shard :=
  size_insert_old a' ha

/-- The slots of a subscription change; its identity and commitment do not. -/
theorem ShardWf.setActive (h : ShardWf index shard) (a' : ActiveSubscription V)
    (ha : shard.activeByTopic.lookup t = some a) (hid : a'.id = a.id)
    (hg : a'.generation = a.generation) (hc : a'.committed = a.committed) :
    ShardWf index (shard.setActive t a') where
  pendingActive := by
    intro b' t' q' hq'
    obtain ⟨a₀, ha₀, hg₀⟩ := h.pendingActive b' t' q' hq'
    rw [setActive_lookup]
    split
    · next ht =>
      subst ht
      rw [ha] at ha₀
      cases ha₀
      exact ⟨a', rfl, hg.trans hg₀⟩
    · exact ⟨a₀, ha₀, hg₀⟩
  deliverable := by
    rw [setActive_deliverableCount, deliverableEntries,
      setActive_isCommitted ha hc]
    exact h.deliverable
  inverse := by
    intro id t'
    rw [setActive_topicById, h.inverse, setActive_lookup]
    split
    · next ht =>
      subst ht
      rw [ha]
      constructor
      · rintro ⟨a₀, ha₀, rfl⟩
        cases ha₀
        exact ⟨a', rfl, hid⟩
      · rintro ⟨a₀, ha₀, rfl⟩
        cases ha₀
        exact ⟨a, rfl, hid.symm⟩
    · exact Iff.rfl
  located := by
    intro t' a₀ ha₀
    rw [setActive_lookup] at ha₀
    split at ha₀
    · next ht =>
      subst ht
      exact h.located t' a ha
    · exact h.located t' a₀ ha₀

/-- How many buffers have a pending entry of the topic. -/
def pendingBuffers (shard : TopicShard V) (t : TopicId) : Nat :=
  sumBuffers fun b => if ((shard.pending b).lookup t).isSome then 1 else 0

/-- An uncommitted subscription becomes committed. -/
theorem ShardWf.commit (h : ShardWf index shard) (ha : shard.activeByTopic.lookup t = some a)
    (hc : a.committed = false) : ShardWf index
      { shard.setActive t { a with committed := true } with
        deliverableCount := shard.deliverableCount + pendingBuffers shard t } where
  pendingActive := by
    intro b' t' q' hq'
    obtain ⟨a₀, ha₀, hg₀⟩ := h.pendingActive b' t' q' hq'
    change ∃ a', (shard.setActive t { a with committed := true }).activeByTopic.lookup t' = some a' ∧ _
    rw [setActive_lookup]
    split
    · next ht =>
      subst ht
      rw [ha] at ha₀
      cases ha₀
      exact ⟨_, rfl, hg₀⟩
    · exact ⟨a₀, ha₀, hg₀⟩
  deliverable := by
    change shard.deliverableCount + _ =
      deliverableEntries (shard.setActive t { a with committed := true })
    have hnew : (shard.setActive t { a with committed := true }).isCommitted t = true :=
      isCommitted_of_lookup (a := { a with committed := true })
        (by rw [setActive_lookup, if_pos rfl])
    have hold : shard.isCommitted t = false := (isCommitted_of_lookup ha).trans hc
    have hother : ∀ t', t' ≠ t → shard.isCommitted t' =
        (shard.setActive t { a with committed := true }).isCommitted t' := by
      intro t' ht
      symm
      refine isCommitted_congr ?_
      rw [setActive_lookup, if_neg ht]
    -- Each buffer gains one deliverable entry exactly where the topic is pending.
    have hbuf : ∀ b', countKeys (shard.setActive t { a with committed := true }).isCommitted
          (shard.pending b') =
        countKeys shard.isCommitted (shard.pending b') +
          if ((shard.pending b').lookup t).isSome then 1 else 0 := by
      intro b'
      cases hq : (shard.pending b').lookup t with
      | none =>
        rw [← countKeys_congr_absent hq hother]
        rfl
      | some q =>
        rw [countKeys_switch hq hold hnew hother]
        rfl
    have h₀ := hbuf .first
    have h₁ := hbuf .second
    have hd := h.deliverable
    simp only [deliverableEntries, pendingBuffers, sumBuffers, setActive_pending] at *
    omega
  inverse := by
    intro id t'
    change shard.topicById.lookup id = some t' ↔
      ∃ a', (shard.setActive t { a with committed := true }).activeByTopic.lookup t' = some a' ∧ _
    rw [h.inverse, setActive_lookup]
    split
    · next ht =>
      subst ht
      rw [ha]
      constructor
      · rintro ⟨a₀, ha₀, rfl⟩
        cases ha₀
        exact ⟨_, rfl, rfl⟩
      · rintro ⟨a₀, ha₀, rfl⟩
        cases ha₀
        exact ⟨a, rfl, rfl⟩
    · exact Iff.rfl
  located := by
    intro t' a₀ ha₀
    change (shard.setActive t { a with committed := true }).activeByTopic.lookup t' = some a₀ at ha₀
    rw [setActive_lookup] at ha₀
    split at ha₀
    · next ht =>
      subst ht
      exact h.located t' a ha
    · exact h.located t' a₀ ha₀

theorem ShardWf.pending_none (h : ShardWf index shard) (ha : shard.activeByTopic.lookup t = none)
    (b : BufferIndex) : (shard.pending b).lookup t = none := by
  cases hq : (shard.pending b).lookup t with
  | none => rfl
  | some q =>
    obtain ⟨a, ha', -⟩ := h.pendingActive b t q hq
    rw [ha] at ha'
    cases ha'

/-- A fresh, uncommitted subscription of an unused topic and an unused identity. -/
theorem ShardWf.reserve (h : ShardWf index shard) (hloc : shardIndex t = index)
    (ha : shard.activeByTopic.lookup t = none) (hid : shard.topicById.lookup a.id = none) :
    ShardWf index
      { shard with
        topicById := shard.topicById.insert a.id t
        activeByTopic := shard.activeByTopic.insert t a } where
  pendingActive := by
    intro b' t' q' hq'
    obtain ⟨a₀, ha₀, hg₀⟩ := h.pendingActive b' t' q' hq'
    refine ⟨a₀, ?_, hg₀⟩
    rw [lookup_insert_ite, if_neg]
    · exact ha₀
    · rintro rfl
      rw [ha] at ha₀
      cases ha₀
  deliverable := by
    have hcongr : ∀ b', countKeys (shard.setActive t a).isCommitted (shard.pending b') =
        countKeys shard.isCommitted (shard.pending b') := by
      intro b'
      refine countKeys_congr_absent (k := t) (h.pending_none ha b') fun t' ht => ?_
      refine isCommitted_congr ?_
      rw [setActive_lookup, if_neg ht]
    refine h.deliverable.trans (sumBuffers_congr fun b' => ?_)
    exact (hcongr b').symm
  inverse := by
    intro id t'
    rw [lookup_insert_ite, lookup_insert_ite]
    by_cases hi : id = a.id
    · subst hi
      rw [if_pos rfl]
      constructor
      · intro ht
        cases ht
        exact ⟨a, if_pos rfl, rfl⟩
      · rintro ⟨a₀, ha₀, hid₀⟩
        split at ha₀
        · next ht => rw [ht]
        · have := (h.inverse a.id t').mpr ⟨a₀, ha₀, hid₀⟩
          rw [hid] at this
          cases this
    · rw [if_neg hi, h.inverse]
      by_cases ht : t' = t
      · subst ht
        rw [if_pos rfl, ha]
        constructor
        · rintro ⟨a₀, ha₀, -⟩
          cases ha₀
        · rintro ⟨a₀, ha₀, rfl⟩
          cases ha₀
          exact absurd rfl hi
      · rw [if_neg ht]
  located := by
    intro t' a₀ ha₀
    rw [lookup_insert_ite] at ha₀
    split at ha₀
    · next ht => rw [ht, hloc]
    · exact h.located t' a₀ ha₀

/-- A subscription without pending entries is withdrawn from both maps. -/
theorem ShardWf.remove (h : ShardWf index shard) (ha : shard.activeByTopic.lookup t = some a)
    (hq : ∀ b, (shard.pending b).lookup t = none) : ShardWf index
      { shard with
        activeByTopic := shard.activeByTopic.erase t
        topicById := shard.topicById.erase a.id } where
  pendingActive := by
    intro b' t' q' hq'
    obtain ⟨a₀, ha₀, hg₀⟩ := h.pendingActive b' t' q' hq'
    refine ⟨a₀, ?_, hg₀⟩
    rw [lookup_erase_ite, if_neg]
    · exact ha₀
    · rintro rfl
      rw [hq b'] at hq'
      cases hq'
  deliverable := by
    refine h.deliverable.trans (sumBuffers_congr fun b' => ?_)
    refine countKeys_congr_absent (k := t) (hq b') fun t' ht => ?_
    refine (isCommitted_congr ?_).symm
    rw [lookup_erase_ite, if_neg ht]
  inverse := by
    intro id t'
    rw [lookup_erase_ite, lookup_erase_ite]
    by_cases hi : id = a.id
    · subst hi
      rw [if_pos rfl]
      constructor
      · intro ht
        cases ht
      · rintro ⟨a₀, ha₀, hid₀⟩
        split at ha₀
        · cases ha₀
        · next ht =>
          -- The identity has one topic, and that topic is the one withdrawn.
          have h₁ := (h.inverse a.id t).mpr ⟨a, ha, rfl⟩
          have h₂ := (h.inverse a.id t').mpr ⟨a₀, ha₀, hid₀⟩
          rw [h₁] at h₂
          cases h₂
          exact absurd rfl ht
    · rw [if_neg hi, h.inverse]
      by_cases ht : t' = t
      · subst ht
        rw [if_pos rfl, ha]
        constructor
        · rintro ⟨a₀, ha₀, rfl⟩
          cases ha₀
          exact absurd rfl hi
        · rintro ⟨a₀, ha₀, -⟩
          cases ha₀
      · rw [if_neg ht]
  located := by
    intro t' a₀ ha₀
    rw [lookup_erase_ite] at ha₀
    split at ha₀
    · cases ha₀
    · exact h.located t' a₀ ha₀

theorem ShardWf.clear (h : ShardWf index shard) :
    ShardWf index { shard with pending := fun _ => ∅, deliverableCount := 0 } where
  pendingActive := by
    intro b' t' q' hq'
    cases hq'
  deliverable := rfl
  inverse := h.inverse
  located := h.located

end

end Xlfn.Subscription
