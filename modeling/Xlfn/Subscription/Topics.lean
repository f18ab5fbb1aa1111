import Xlfn.Subscription.Sections

/-!
# Xlfn — the view of one topic

A topic sees two things of the core: its subscription and its pending entry in each
buffer. Every shard section other than a collection changes the view of one topic
(`Touches`); a collection takes at most one value of each topic of its shard
(`Collected`). The invariants about the order of updates are about views.
-/

namespace Xlfn.Subscription

open Xlfn.Lib Xlfn.Kernel List PublishCore

variable {V N : Type} {slack : Slack} {core core' : PublishCore V N}

/-- The subscription of a topic. -/
def PublishCore.active? (core : PublishCore V N) (t : TopicId) : Option (ActiveSubscription V) :=
  (core.shards (shardIndex t)).activeByTopic.lookup t

/-- The pending entry of a topic in a buffer. -/
def PublishCore.queued? (core : PublishCore V N) (t : TopicId) (b : BufferIndex) :
    Option QueuedUpdate :=
  ((core.shards (shardIndex t)).pending b).lookup t

variable {t : TopicId}

theorem CoreWf.active_of_lookup (h : CoreWf slack core) {i : ShardIndex} {a : ActiveSubscription V}
    (ha : (core.shards i).activeByTopic.lookup t = some a) :
    shardIndex t = i ∧ core.active? t = some a := by
  have hi := (h.shards i).located t a ha
  subst hi
  exact ⟨rfl, ha⟩

theorem CoreWf.queued_none (h : CoreWf slack core) (ha : core.active? t = none) (b : BufferIndex) :
    core.queued? t b = none :=
  (h.shards _).pending_none ha b

-- ---- Sections that touch one topic.

/-- The view of `t` is now `active` and `queued`, every other topic sees no change. -/
structure Touches (core core' : PublishCore V N) (t : TopicId)
    (active : Option (ActiveSubscription V)) (queued : BufferIndex → Option QueuedUpdate) :
    Prop where
  active      : core'.active? t = active
  queued      : core'.queued? t = queued
  otherActive : ∀ t', t' ≠ t → core'.active? t' = core.active? t'
  otherQueued : ∀ t', t' ≠ t → core'.queued? t' = core.queued? t'

theorem Touches.refl (core : PublishCore V N) (t : TopicId) :
    Touches core core t (core.active? t) (core.queued? t) :=
  ⟨rfl, rfl, fun _ _ => rfl, fun _ _ => rfl⟩

theorem Touches.of_shard {active : Option (ActiveSubscription V)}
    {queued : BufferIndex → Option QueuedUpdate}
    (hother : ∀ j, j ≠ shardIndex t → core'.shards j = core.shards j)
    (hactive : ∀ t', (core'.shards (shardIndex t)).activeByTopic.lookup t' =
      if t' = t then active else (core.shards (shardIndex t)).activeByTopic.lookup t')
    (hqueued : ∀ b t', ((core'.shards (shardIndex t)).pending b).lookup t' =
      if t' = t then queued b else ((core.shards (shardIndex t)).pending b).lookup t') :
    Touches core core' t active queued where
  active := (hactive t).trans (if_pos rfl)
  queued := by
    funext b
    exact (hqueued b t).trans (if_pos rfl)
  otherActive := by
    intro t' ht
    unfold active?
    by_cases hi : shardIndex t' = shardIndex t
    · rw [hi, hactive t', if_neg ht]
    · rw [hother _ hi]
  otherQueued := by
    intro t' ht
    funext b
    unfold queued?
    by_cases hi : shardIndex t' = shardIndex t
    · rw [hi, hqueued b t', if_neg ht]
    · rw [hother _ hi]

theorem Touches.trans {c₁ c₂ c₃ : PublishCore V N} {active active' : Option (ActiveSubscription V)}
    {queued queued' : BufferIndex → Option QueuedUpdate} (h : Touches c₁ c₂ t active queued)
    (h' : Touches c₂ c₃ t active' queued') : Touches c₁ c₃ t active' queued' where
  active := h'.active
  queued := h'.queued
  otherActive := fun t' ht => (h'.otherActive t' ht).trans (h.otherActive t' ht)
  otherQueued := fun t' ht => (h'.otherQueued t' ht).trans (h.otherQueued t' ht)

theorem Touches.setActive (core : PublishCore V N) (t : TopicId) (a : ActiveSubscription V) :
    Touches core (core.setShard (shardIndex t) ((core.shards (shardIndex t)).setActive t a)) t
      (some a) (core.queued? t) := by
  refine Touches.of_shard ?_ ?_ ?_
  · intro j hj
    exact setShard_ne _ _ hj
  · intro t'
    rw [setShard_self, TopicShard.setActive_lookup]
  · intro b t'
    rw [setShard_self, TopicShard.setActive_pending]
    split
    · next ht =>
      subst ht
      rfl
    · rfl

section

variable {a : ActiveSubscription V}

theorem Drained.touches {keep : BufferIndex → QueuedUpdate → Bool}
    (h : Drained core core' (shardIndex t) t keep) :
    Touches core core' t (core.active? t) fun b => (core.queued? t b).filter (keep b) := by
  refine Touches.of_shard h.other ?_ h.pending
  intro t'
  rw [h.activeByTopic]
  split
  · next ht =>
    subst ht
    rfl
  · rfl

theorem Stored.touches {b : BufferIndex} {sequence : Nat} {value : V}
    (h : Stored core core' b t a sequence value) :
    Touches core core' t (some (a.stored b sequence value))
      (Function.update (core.queued? t) b (some ⟨a.generation, sequence⟩)) := by
  refine Touches.of_shard h.other h.activeByTopic ?_
  intro b' t'
  rw [h.pending]
  by_cases ht : t' = t
  · subst ht
    by_cases hb : b' = b
    · subst hb
      rw [if_pos ⟨rfl, rfl⟩, if_pos rfl, Function.update_self]
    · rw [if_neg (fun hboth => hb hboth.1), if_pos rfl, Function.update_of_ne hb]
      rfl
  · rw [if_neg (fun hboth => ht hboth.2), if_neg ht]

theorem Reserved.touches {id : SubscriptionId} {generation : ConnectionGeneration}
    (h : Reserved core core' t id generation) :
    Touches core core' t (some (.fresh id generation)) (core.queued? t) := by
  refine Touches.of_shard h.other h.activeByTopic ?_
  intro b t'
  rw [h.pending]
  split
  · next ht =>
    subst ht
    rfl
  · rfl

theorem Committed.touches {observed : Option Nat} (h : Committed core core' t a observed) :
    Touches core core' t (some { a with committed := true })
      fun b => (core.queued? t b).filter (newerThan observed) :=
  Touches.of_shard h.other h.activeByTopic h.pending

theorem Withdrawn.touches {keep : QueuedUpdate → Bool} {gone : Bool}
    (h : Withdrawn core core' t keep gone) :
    Touches core core' t (if gone then none else core.active? t)
      fun b => (core.queued? t b).filter keep := by
  refine Touches.of_shard h.other ?_ h.pending
  intro t'
  rw [h.activeByTopic]
  by_cases ht : t' = t
  · subst ht
    cases gone <;> simp [active?]
  · rw [if_neg (fun hboth => ht hboth.1), if_neg ht]

end

-- ---- Completion of an update.

/-- The slot an update goes back to, by its outcome. -/
def returnedSlot (outcome : RefreshOutcome) (update : RtdUpdate V) (a : ActiveSubscription V) :
    ValueSlot V :=
  match outcome with
  | .delivered =>
    if a.latestSlot = some update.buffer then PublishCore.residentOf update else .empty
  | .failed => PublishCore.residentOf update

/-- The subscription of a topic after an update of it was given back. -/
def ActiveSubscription.returned (a : ActiveSubscription V) (outcome : RefreshOutcome)
    (update : RtdUpdate V) : ActiveSubscription V :=
  if PublishCore.ownsSlot a update then a.setSlot update.buffer (returnedSlot outcome update a)
  else a

/-- Whether a pending entry stays after an update was completed. -/
def staysPending (outcome : RefreshOutcome) (update : RtdUpdate V) (q : QueuedUpdate) : Bool :=
  match outcome with
  | .delivered => !retired update.connectionGeneration update.sequence q
  | .failed => true

/-- `a'` has the identity and the counters of `a`, and its slots wherever an entry
is pending. -/
structure SameBut (queued : BufferIndex → Option QueuedUpdate) (a a' : ActiveSubscription V) :
    Prop where
  id           : a'.id = a.id
  generation   : a'.generation = a.generation
  committed    : a'.committed = a.committed
  nextSequence : a'.nextSequence = a.nextSequence
  values       : ∀ b, queued b ≠ none → a'.values b = a.values b

theorem ActiveSubscription.returned_same (a : ActiveSubscription V) (outcome : RefreshOutcome)
    (update : RtdUpdate V) :
    (a.returned outcome update).id = a.id ∧
      (a.returned outcome update).generation = a.generation ∧
      (a.returned outcome update).committed = a.committed ∧
      (a.returned outcome update).nextSequence = a.nextSequence := by
  unfold ActiveSubscription.returned
  split <;> exact ⟨rfl, rfl, rfl, rfl⟩

theorem restoreSlot_touches (core : PublishCore V N) (outcome : RefreshOutcome)
    (update : RtdUpdate V) :
    Touches core (core.restoreSlot update (returnedSlot outcome update)) update.topicId
      ((core.active? update.topicId).map (·.returned outcome update))
      (core.queued? update.topicId) := by
  unfold restoreSlot
  dsimp only
  cases ha : (core.shards (shardIndex update.topicId)).activeByTopic.lookup update.topicId with
  | none =>
    have hactive : core.active? update.topicId = none := ha
    have hrefl := Touches.refl core update.topicId
    rw [hactive] at hrefl ⊢
    exact hrefl
  | some a =>
    have hactive : core.active? update.topicId = some a := ha
    rw [hactive, Option.map_some, ActiveSubscription.returned]
    dsimp only
    split
    · exact Touches.setActive core update.topicId _
    · have hrefl := Touches.refl core update.topicId
      rw [hactive] at hrefl
      exact hrefl

/-- **Completing an update** touches its topic: the slot is given back, and a
delivered update retires what is pending up to it. -/
theorem completeUpdate_touches (h : CoreWf slack core) {outcome : RefreshOutcome}
    {update : RtdUpdate V} (heq : core.completeUpdate outcome update = some core') :
    ∃ active, Touches core core' update.topicId active
        (fun b => (core.queued? update.topicId b).filter (staysPending outcome update)) ∧
      ∀ a', active = some a' → ∃ a, core.active? update.topicId = some a ∧
        SameBut (fun b => (core.queued? update.topicId b).filter (staysPending outcome update))
          (a.returned outcome update) a' := by
  have hrestore := restoreSlot_touches core outcome update
  cases outcome with
  | failed =>
    cases heq
    have hkeep : (fun b => (core.queued? update.topicId b).filter
        (staysPending RefreshOutcome.failed update)) = core.queued? update.topicId := by
      funext b
      cases core.queued? update.topicId b <;> rfl
    rw [hkeep]
    refine ⟨_, hrestore, ?_⟩
    intro a' ha'
    obtain ⟨a, ha, rfl⟩ := Option.map_eq_some_iff.mp ha'
    exact ⟨a, ha, rfl, rfl, rfl, rfl, fun _ _ => rfl⟩
  | delivered =>
    have hslot : (fun a : ActiveSubscription V => if a.latestSlot = some update.buffer then
        residentOf update else .empty) = returnedSlot .delivered update := rfl
    unfold completeUpdate at heq
    dsimp only at heq
    rw [hslot] at heq
    obtain ⟨hwf, -, -⟩ := restoreSlot_wf h update (returnedSlot .delivered update)
    obtain ⟨core₂, core₃, heq', -, hdrained, hlast⟩ := retirePendingThrough_spec hwf
      update.topicId update.connectionGeneration update.sequence
    rw [heq'] at heq
    cases heq
    have hdrain := hrestore.trans hdrained.touches
    rw [hrestore.active, hrestore.queued] at hdrain
    rcases hlast with ⟨hnone, rfl⟩ | ⟨a, ha, rfl⟩
    · refine ⟨_, hdrain, ?_⟩
      intro a' ha'
      rw [← hrestore.active] at ha'
      cases hnone.symm.trans ha'
    · have ha : (core.active? update.topicId).map (·.returned .delivered update) = some a :=
        hrestore.active.symm.trans ha
      obtain ⟨a₀, ha₀, rfl⟩ := Option.map_eq_some_iff.mp ha
      have hset := hdrain.trans (Touches.setActive core₂ update.topicId
        (retireSlots (core₂.shards (shardIndex update.topicId)) update.topicId
          update.connectionGeneration update.sequence (a₀.returned .delivered update)))
      rw [hdrain.queued] at hset
      refine ⟨_, hset, ?_⟩
      intro a' ha'
      cases ha'
      refine ⟨a₀, ha₀, rfl, rfl, rfl, rfl, ?_⟩
      intro b hb
      -- A slot with a pending entry is never retired.
      have hpending : core₂.queued? update.topicId b ≠ none := by
        rw [hdrain.queued]
        exact hb
      change (if slotRetired _ _ _ _ _ b then _ else _) = _
      rw [if_neg]
      intro hretired
      unfold slotRetired at hretired
      split at hretired
      · rw [Bool.and_eq_true] at hretired
        exact hpending (Option.isNone_iff_eq_none.mp hretired.2)
      · cases hretired

-- ---- Collection.

theorem filterMap_map_sublist {α β κ : Type} {f : α → Option β} {key : α → κ} {key' : β → κ}
    {l : List α} (h : ∀ a ∈ l, ∀ b, f a = some b → key' b = key a) :
    ((l.filterMap f).map key').Sublist (l.map key) := by
  induction l with
  | nil => exact List.Sublist.refl _
  | cons a l ih =>
    have hrest := ih fun x hx => h x (mem_cons_of_mem _ hx)
    cases hf : f a with
    | none =>
      rw [filterMap_cons_none hf]
      exact hrest.cons _
    | some b =>
      rw [filterMap_cons_some hf, map_cons, h a mem_cons_self b hf]
      exact hrest.cons_cons _

theorem selectNewest_spec {shard : TopicShard V} {active : ActiveSubscription V} {q : QueuedUpdate}
    {item : CollectItem} (hq : (shard.pending .first).lookup t = some q)
    (h : selectNewest active t q ((shard.pending .second).lookup t) = some item) :
    item.topicId = t ∧ (shard.pending item.buffer).lookup item.topicId = some item.queued := by
  unfold selectNewest at h
  split at h
  · cases h
  dsimp only at h
  split at h
  · next q₁ _ hq₁ =>
    have hsecond := (Option.filter_eq_some_iff.mp hq₁).1
    split at h
    · cases h
      exact ⟨rfl, hsecond⟩
    · cases h
      exact ⟨rfl, hq⟩
  · cases h
    exact ⟨rfl, hq⟩
  · next q₁ _ hq₁ =>
    cases h
    exact ⟨rfl, (Option.filter_eq_some_iff.mp hq₁).1⟩
  · cases h

/-- The entries a collection visits are pending, and no topic occurs twice. -/
theorem collectItems_spec (shard : TopicShard V) : ((collectItems shard).map (·.topicId)).Nodup ∧
      ∀ item ∈ collectItems shard,
        (shard.pending item.buffer).lookup item.topicId = some item.queued := by
  have hkeys : ∀ b, ((shard.pending b).entries.map (·.1)).Nodup := by
    intro b
    exact (shard.pending b).nodupKeys
  have hlookup : ∀ b, ∀ e ∈ (shard.pending b).entries,
      (shard.pending b).lookup e.1 = some e.2 :=
    fun b e he => Table.lookup_of_mem_entries he
  unfold collectItems
  dsimp only
  split
  · constructor
    · rw [map_map]
      exact hkeys .first
    · intro item hitem
      obtain ⟨e, he, rfl⟩ := mem_map.mp hitem
      exact hlookup .first e he
  · split
    · constructor
      · rw [map_map]
        exact hkeys .second
      · intro item hitem
        obtain ⟨e, he, rfl⟩ := mem_map.mp hitem
        exact hlookup .second e he
    · -- Both tables: the first contributes one entry a topic, the second the rest.
      have hfirst : ∀ e ∈ (shard.pending .first).entries, ∀ item,
          ((shard.activeByTopic.lookup e.1).bind fun active =>
            selectNewest active e.1 e.2 ((shard.pending .second).lookup e.1)) =
              some item →
          item.topicId = e.1 ∧ (shard.pending item.buffer).lookup item.topicId = some item.queued := by
        intro e he item hitem
        obtain ⟨active, -, hselect⟩ := Option.bind_eq_some_iff.mp hitem
        exact selectNewest_spec (hlookup .first e he) hselect
      constructor
      · rw [map_append, nodup_append]
        refine ⟨?_, ?_, ?_⟩
        · refine List.Nodup.sublist ?_ (hkeys .first)
          refine filterMap_map_sublist ?_
          intro e he item hitem
          exact (hfirst e he item hitem).1
        · rw [map_map]
          exact (hkeys .second).sublist (filter_sublist.map _)
        · intro t ht t' ht' heq
          subst heq
          obtain ⟨item, hitem, rfl⟩ := mem_map.mp ht
          obtain ⟨e, he, hsome⟩ := mem_filterMap.mp hitem
          obtain ⟨item', hitem', htopic⟩ := mem_map.mp ht'
          obtain ⟨e', he', rfl⟩ := mem_map.mp hitem'
          have hnone := Option.isNone_iff_eq_none.mp (mem_filter.mp he').2
          have hkey : e'.1 = e.1 := htopic.trans (hfirst e he item hsome).1
          rw [hkey, hlookup .first e he] at hnone
          cases hnone
      · intro item hitem
        rcases mem_append.mp hitem with hitem | hitem
        · obtain ⟨e, he, hsome⟩ := mem_filterMap.mp hitem
          exact (hfirst e he item hsome).2
        · obtain ⟨e, he, rfl⟩ := mem_map.mp hitem
          exact hlookup .second e (mem_filter.mp he).1

/-- `core'` is `core` with the values of the updates `taken` moved into the batch. -/
structure Collected (core core' : PublishCore V N) (i : ShardIndex) (taken : List (RtdUpdate V)) :
    Prop where
  queued  : ∀ t, core'.queued? t = core.queued? t
  topics  : (taken.map (·.topicId)).Nodup
  located : ∀ u ∈ taken, shardIndex u.topicId = i
  moved   : ∀ u ∈ taken, ∃ a versioned, core.active? u.topicId = some a ∧ a.committed = true ∧
    a.generation = u.connectionGeneration ∧
    core.queued? u.topicId u.buffer = some ⟨u.connectionGeneration, u.sequence⟩ ∧
    a.values u.buffer = .resident versioned ∧
    core'.active? u.topicId =
      some (a.setSlot u.buffer (.inFlight u.connectionGeneration u.sequence))
  kept    : ∀ t, (∀ u ∈ taken, u.topicId ≠ t) → core'.active? t = core.active? t

/-- What the collection loop takes, by induction over its items: a topic is visited
once, so the subscription an item sees is the one before the loop. -/
theorem collectLoop_spec (items : List CollectItem) :
    ∀ (m : Table TopicId (ActiveSubscription V)) (updates : List (RtdUpdate V)),
      (items.map (·.topicId)).Nodup →
      ∃ taken, (collectLoop m updates items).2 = updates ++ taken ∧
        (taken.map (·.topicId)).Sublist (items.map (·.topicId)) ∧
        (∀ u ∈ taken, ∃ a versioned, ∃ item ∈ items, item.topicId = u.topicId ∧
          item.buffer = u.buffer ∧ item.queued = ⟨u.connectionGeneration, u.sequence⟩ ∧
          m.lookup u.topicId = some a ∧ a.committed = true ∧
          a.generation = u.connectionGeneration ∧ a.values u.buffer = .resident versioned ∧
          (collectLoop m updates items).1.lookup u.topicId =
            some (a.setSlot u.buffer (.inFlight u.connectionGeneration u.sequence))) ∧
        ∀ t, (∀ u ∈ taken, u.topicId ≠ t) → (collectLoop m updates items).1.lookup t = m.lookup t := by
  induction items with
  | nil =>
    intro m updates _
    refine ⟨[], (append_nil _).symm, List.Sublist.refl _, ?_, fun _ _ => rfl⟩
    intro u hu
    cases hu
  | cons item items ih =>
    intro m updates hnodup
    rw [map_cons, nodup_cons] at hnodup
    obtain ⟨hfresh, hnodup⟩ := hnodup
    rw [collectLoop_cons]
    rcases pushDeliverable_cases m updates item with
      heq | ⟨a, versioned, ha, hcommitted, hgeneration, hslot, -, -, heq⟩
    · rw [heq]
      obtain ⟨taken, hupdates, hsub, htaken, hkept⟩ := ih m updates hnodup
      refine ⟨taken, hupdates, hsub.cons _, ?_, hkept⟩
      intro u hu
      obtain ⟨a, versioned, item', hitem', hrest⟩ := htaken u hu
      exact ⟨a, versioned, item', mem_cons_of_mem _ hitem', hrest⟩
    · rw [heq]
      obtain ⟨taken, hupdates, hsub, htaken, hkept⟩ := ih (m.insert item.topicId
        (a.setSlot item.buffer (.inFlight item.queued.connectionGeneration item.queued.sequence)))
        (updates ++ [⟨item.queued.sequence, item.topicId, item.queued.connectionGeneration,
          item.buffer, versioned.value⟩]) hnodup
      have hne : ∀ u ∈ taken, u.topicId ≠ item.topicId := by
        intro u hu htopic
        refine hfresh (hsub.subset ?_)
        rw [← htopic]
        exact mem_map_of_mem hu
      refine ⟨⟨item.queued.sequence, item.topicId, item.queued.connectionGeneration, item.buffer,
        versioned.value⟩ :: taken, ?_, hsub.cons_cons _, ?_, ?_⟩
      · rw [hupdates, append_assoc, singleton_append]
      · intro u hu
        rcases mem_cons.mp hu with rfl | hu
        · refine ⟨a, versioned, item, mem_cons_self, rfl, rfl, rfl, ha, hcommitted, hgeneration,
            hslot, ?_⟩
          rw [hkept item.topicId hne, AList.lookup_insert]
        · obtain ⟨a', versioned', item', hitem', h₁, h₂, h₃, ha', hrest⟩ := htaken u hu
          rw [AList.lookup_insert_ne (hne u hu)] at ha'
          exact ⟨a', versioned', item', mem_cons_of_mem _ hitem', h₁, h₂, h₃, ha', hrest⟩
      · intro t ht
        rw [hkept t fun u hu => ht u (mem_cons_of_mem _ hu),
          AList.lookup_insert_ne (ht _ mem_cons_self).symm]

/-- **Collecting a shard** moves at most one value of each of its topics. -/
theorem collectShard_collected (h : CoreWf slack core) (i : ShardIndex)
    (updates : List (RtdUpdate V)) :
    ∃ taken, (core.collectShard i updates).2 = updates ++ taken ∧
      Collected core (core.collectShard i updates).1 i taken := by
  rcases collectShard_eq core i updates with heq | heq
  · rw [heq]
    refine ⟨[], (append_nil _).symm, fun _ => rfl, nodup_nil, ?_, ?_, fun _ _ => rfl⟩
    · intro u hu
      cases hu
    · intro u hu
      cases hu
  · rw [heq]
    obtain ⟨hnodup, hpending⟩ := collectItems_spec (core.shards i)
    obtain ⟨taken, hupdates, hsub, htaken, hkept⟩ :=
      collectLoop_spec _ (core.shards i).activeByTopic updates hnodup
    have hlocated : ∀ u ∈ taken, shardIndex u.topicId = i := by
      intro u hu
      obtain ⟨a, -, item, -, -, -, -, ha, -⟩ := htaken u hu
      exact (h.active_of_lookup ha).1
    have hqueued : ∀ t, (core.withActive i (collectLoop (core.shards i).activeByTopic updates
        (collectItems (core.shards i))).1).queued? t = core.queued? t := by
      intro t
      funext b
      unfold queued? withActive
      by_cases ht : shardIndex t = i
      · subst ht
        rw [setShard_self]
      · rw [setShard_ne _ _ ht]
    refine ⟨taken, hupdates, hqueued, hnodup.sublist hsub, hlocated, ?_, ?_⟩
    · intro u hu
      have hi := hlocated u hu
      obtain ⟨a, versioned, item, hitem, h₁, h₂, h₃, ha, hcommitted, hgeneration, hslot, hfinal⟩ :=
        htaken u hu
      have hq := hpending item hitem
      rw [h₁, h₂, h₃, ← hi] at hq
      refine ⟨a, versioned, ?_, hcommitted, hgeneration, hq, hslot, ?_⟩
      · unfold active?
        rw [hi]
        exact ha
      · unfold active? withActive
        rw [hi, setShard_self]
        exact hfinal
    · intro t ht
      unfold active? withActive
      by_cases hi : shardIndex t = i
      · subst hi
        rw [setShard_self]
        exact hkept t ht
      · rw [setShard_ne _ _ hi]

end Xlfn.Subscription
