import Xlfn.Subscription.Ordering

/-!
# Xlfn — what a refresh collects

`begin_refresh` plans a refresh and visits the candidate shards. Seen from one topic it takes the
newest pending update of a committed connection whose value is resident (`deliverable`), and it
takes that one whatever else the shard holds.
-/

namespace Xlfn.Subscription

open Xlfn.Lib Xlfn.Kernel List PublishCore

variable {V N : Type} {slack : Slack} {core core' : PublishCore V N} {s s' : State V N}

namespace PublishCore

/-- `PlannedRtdRefresh::collect`, nobody interfering. -/
def collectShards (core : PublishCore V N) (shards : List ShardIndex)
    (updates : List (RtdUpdate V)) : PublishCore V N × List (RtdUpdate V) :=
  shards.foldl (fun acc index => acc.1.collectShard index acc.2) (core, updates)

/-- `begin_refresh`: the updates of the batch. -/
def beginRefresh (core : PublishCore V N) :
    PublishCore V N × Except XllError (List (RtdUpdate V)) :=
  match core.planRefresh with
  | (core, .error error) => (core, .error error)
  | (core, .ok plan) =>
    let (core, updates) := core.collectShards plan.shards []
    (core, .ok updates)

/-- The newest of the pending entries of a topic; at a draw, the one of the first buffer. -/
def newest (queued : BufferIndex → Option QueuedUpdate) : Option (BufferIndex × QueuedUpdate) :=
  match queued .first, queued .second with
  | some q₀, some q₁ => if q₀.sequence < q₁.sequence then some (.second, q₁) else some (.first, q₀)
  | some q₀, none => some (.first, q₀)
  | none, some q₁ => some (.second, q₁)
  | none, none => none

/-- The update a pending entry stands for, if its subscription can deliver it. -/
def pushed (active : Option (ActiveSubscription V)) (item : CollectItem) : Option (RtdUpdate V) :=
  match active with
  | none => none
  | some a =>
    if a.committed = false || a.generation ≠ item.queued.connectionGeneration then none
    else
      match a.values item.buffer with
      | .resident versioned =>
        if versioned.generation ≠ item.queued.connectionGeneration ||
            versioned.sequence ≠ item.queued.sequence then none
        else
          some { sequence             := item.queued.sequence
                 topicId              := item.topicId
                 connectionGeneration := item.queued.connectionGeneration
                 buffer               := item.buffer
                 value                := versioned.value }
      | _ => none

/-- The update a topic has for the next refresh. -/
def deliverable (active : Option (ActiveSubscription V))
    (queued : BufferIndex → Option QueuedUpdate) (t : TopicId) : Option (RtdUpdate V) :=
  (newest queued).bind fun entry => pushed active ⟨entry.1, t, entry.2⟩

end PublishCore

-- ---- The collection loop.

theorem pushDeliverable_eq (m : Table TopicId (ActiveSubscription V))
    (updates : List (RtdUpdate V)) (item : CollectItem) :
    (pushDeliverable m updates item).2 =
        updates ++ (PublishCore.pushed (m.lookup item.topicId) item).toList ∧
      ∀ t, t ≠ item.topicId →
        (pushDeliverable m updates item).1.lookup t = m.lookup t := by
  unfold pushDeliverable PublishCore.pushed
  cases m.lookup item.topicId with
  | none => exact ⟨(append_nil _).symm, fun _ _ => rfl⟩
  | some a =>
    dsimp only
    split
    · exact ⟨(append_nil _).symm, fun _ _ => rfl⟩
    · cases a.values item.buffer with
      | empty | inFlight generation sequence => exact ⟨(append_nil _).symm, fun _ _ => rfl⟩
      | resident versioned =>
        dsimp only
        split
        · exact ⟨(append_nil _).symm, fun _ _ => rfl⟩
        · exact ⟨rfl, fun t ht => AList.lookup_insert_ne ht⟩

/-- **The loop pushes item by item**, by induction over the items: no two are of one topic, so
each finds the subscription as it was. -/
theorem mem_collectLoop_iff (items : List CollectItem) (u : RtdUpdate V) :
    ∀ (m : Table TopicId (ActiveSubscription V)) (updates : List (RtdUpdate V)),
      (items.map (·.topicId)).Nodup →
      (u ∈ (collectLoop m updates items).2 ↔
        u ∈ updates ∨ ∃ item ∈ items, PublishCore.pushed (m.lookup item.topicId) item = some u) := by
  induction items with
  | nil =>
    intro m updates _
    simp [collectLoop]
  | cons item items ih =>
    intro m updates hnodup
    rw [map_cons, nodup_cons] at hnodup
    obtain ⟨hfresh, hnodup⟩ := hnodup
    obtain ⟨hpushed, hkept⟩ := pushDeliverable_eq m updates item
    have hlookup : ∀ item' ∈ items,
        (pushDeliverable m updates item).1.lookup item'.topicId =
          m.lookup item'.topicId := by
      intro item' hitem'
      refine hkept item'.topicId ?_
      rintro heq
      exact hfresh (heq ▸ mem_map_of_mem hitem')
    rw [collectLoop_cons, ih _ _ hnodup, hpushed, mem_append, Option.mem_toList]
    constructor
    · rintro ((hu | hu) | ⟨item', hitem', hu⟩)
      · exact .inl hu
      · exact .inr ⟨item, mem_cons_self, hu⟩
      · rw [hlookup item' hitem'] at hu
        exact .inr ⟨item', mem_cons_of_mem _ hitem', hu⟩
    · rintro (hu | ⟨item', hitem', hu⟩)
      · exact .inl (.inl hu)
      · rcases mem_cons.mp hitem' with rfl | hitem'
        · exact .inl (.inr hu)
        · refine .inr ⟨item', hitem', ?_⟩
          rw [hlookup item' hitem']
          exact hu

variable {u : RtdUpdate V}

theorem pushed_topicId {active : Option (ActiveSubscription V)} {item : CollectItem}
    (h : PublishCore.pushed active item = some u) : u.topicId = item.topicId := by
  unfold PublishCore.pushed at h
  split at h
  · cases h
  · split at h
    · cases h
    · split at h
      · split at h
        · cases h
        · cases h
          rfl
      · cases h

theorem pushed_spec {active : Option (ActiveSubscription V)} {item : CollectItem}
    (h : PublishCore.pushed active item = some u) :
    ∃ a, active = some a ∧ a.committed = true ∧ a.generation = item.queued.connectionGeneration ∧
      a.values item.buffer = residentOf u ∧
      u = ⟨item.queued.sequence, item.topicId, item.queued.connectionGeneration, item.buffer,
        u.value⟩ := by
  unfold PublishCore.pushed at h
  split at h
  · cases h
  · next a =>
    split at h
    · cases h
    · next hok =>
      split at h
      · next versioned hslot =>
        split at h
        · cases h
        · next hmatch =>
          cases h
          simp only [Bool.or_eq_true, decide_eq_true_eq, not_or, Bool.not_eq_false, ne_eq,
            not_not] at hok hmatch
          obtain ⟨generation, sequence, value⟩ := versioned
          obtain ⟨rfl, rfl⟩ := hmatch
          exact ⟨a, rfl, hok.1, hok.2, hslot, rfl⟩
      · cases h

-- ---- The items of a shard.

theorem lookup_none_of_isEmpty {K W : Type} [DecidableEq K] {m : Table K W}
    (h : m.entries.isEmpty = true) (k : K) : m.lookup k = none := by
  refine Table.size_eq_zero_iff.mp ?_ k
  rw [Table.size, List.isEmpty_iff.mp h]
  rfl

theorem selectNewest_eq {a : ActiveSubscription V} {t : TopicId} {q₀ : QueuedUpdate}
    {queued : BufferIndex → Option QueuedUpdate} (hcommitted : a.committed = true)
    (hfirst : queued .first = some q₀)
    (hgeneration : ∀ b q, queued b = some q → q.connectionGeneration = a.generation) :
    selectNewest a t q₀ (queued .second) =
      (PublishCore.newest queued).map fun entry => ⟨entry.1, t, entry.2⟩ := by
  have hq₀ := hgeneration .first q₀ hfirst
  unfold selectNewest PublishCore.newest
  rw [hcommitted, if_neg Bool.noConfusion, hfirst, hq₀]
  cases hsecond : queued .second with
  | none => simp
  | some q₁ =>
    have hq₁ := hgeneration .second q₁ hsecond
    simp only [decide_true, Option.filter_some, hq₁, if_true]
    split <;> rfl

section

variable {i : ShardIndex} {shard : TopicShard V} {t : TopicId} {a : ActiveSubscription V}

/-- **The items of a shard** are, of each topic with a committed connection, its newest entry. -/
theorem mem_collectItems_iff (h : ShardWf i shard) (ha : shard.activeByTopic.lookup t = some a)
    (hcommitted : a.committed = true) (b : BufferIndex) (q : QueuedUpdate) :
    ⟨b, t, q⟩ ∈ collectItems shard ↔
      PublishCore.newest (fun b => (shard.pending b).lookup t) = some (b, q) := by
  have hmem : ∀ b' q', ⟨t, q'⟩ ∈ (shard.pending b').entries ↔
      (shard.pending b').lookup t = some q' := fun b' q' => AList.mem_lookup_iff.symm
  have hgeneration : ∀ b' q', (shard.pending b').lookup t = some q' →
      q'.connectionGeneration = a.generation := by
    intro b' q' hq'
    obtain ⟨a', ha', hg⟩ := h.pendingActive b' t q' hq'
    rw [ha] at ha'
    cases ha'
    exact hg.symm
  -- A whole table contributes its entry of the topic.
  have htable : ∀ b' : BufferIndex, (⟨b, t, q⟩ : CollectItem) ∈
      (shard.pending b').entries.map (fun entry => ⟨b', entry.1, entry.2⟩) ↔
        b' = b ∧ (shard.pending b').lookup t = some q := by
    intro b'
    rw [mem_map]
    constructor
    · rintro ⟨⟨t', q'⟩, hentry, heq⟩
      cases heq
      exact ⟨rfl, (hmem _ _).mp hentry⟩
    · rintro ⟨hb, hq⟩
      subst hb
      exact ⟨⟨t, q⟩, (hmem b' q).mpr hq, rfl⟩
  unfold collectItems
  dsimp only
  split
  · next hempty =>
    have hsecond := lookup_none_of_isEmpty hempty t
    rw [htable .first, PublishCore.newest, hsecond]
    cases hfirst : (shard.pending .first).lookup t with
    | none => simp
    | some q₀ => simp [Prod.ext_iff]
  · split
    · next hempty =>
      have hfirst := lookup_none_of_isEmpty hempty t
      rw [htable .second, PublishCore.newest, hfirst]
      cases hsecond : (shard.pending .second).lookup t with
      | none => simp
      | some q₁ => simp [Prod.ext_iff]
    · rw [mem_append, mem_filterMap, mem_map]
      cases hfirst : (shard.pending .first).lookup t with
      | none =>
        have hnewest : PublishCore.newest (fun b => (shard.pending b).lookup t) =
            ((shard.pending .second).lookup t).map fun q₁ => (.second, q₁) := by
          rw [PublishCore.newest, hfirst]
          cases (shard.pending .second).lookup t <;> rfl
        rw [hnewest, Option.map_eq_some_iff]
        constructor
        · rintro (⟨⟨t', q'⟩, hentry, hselect⟩ | ⟨⟨t', q'⟩, hentry, heq⟩)
          · obtain ⟨a', -, hselect⟩ := Option.bind_eq_some_iff.mp hselect
            have hlookup := AList.mem_lookup_iff.mpr hentry
            obtain ⟨htopic, -⟩ := selectNewest_spec hlookup hselect
            dsimp only at htopic
            rw [← htopic, hfirst] at hlookup
            cases hlookup
          · cases heq
            exact ⟨q', (hmem .second q').mp (mem_filter.mp hentry).1, rfl⟩
        · rintro ⟨q₁, hq₁, heq⟩
          cases heq
          refine .inr ⟨⟨t, q⟩, mem_filter.mpr ⟨(hmem .second q).mpr hq₁, ?_⟩, rfl⟩
          exact Option.isNone_iff_eq_none.mpr hfirst
      | some q₀ =>
        have hselected : ((shard.activeByTopic.lookup t).bind fun active =>
            selectNewest active t q₀ ((shard.pending .second).lookup t)) =
              (PublishCore.newest fun b => (shard.pending b).lookup t).map
                fun entry => ⟨entry.1, t, entry.2⟩ := by
          rw [ha, Option.bind_some]
          exact selectNewest_eq hcommitted hfirst hgeneration
        constructor
        · rintro (⟨⟨t', q'⟩, hentry, hselect⟩ | ⟨⟨t', q'⟩, hentry, heq⟩)
          · have hlookup := AList.mem_lookup_iff.mpr hentry
            have htopic : t = t' := by
              obtain ⟨a', -, hselect⟩ := Option.bind_eq_some_iff.mp hselect
              exact (selectNewest_spec hlookup hselect).1
            subst htopic
            have hq' : q' = q₀ := Option.some.inj (hlookup.symm.trans hfirst)
            subst hq'
            obtain ⟨⟨b', q'⟩, hnewest, heq⟩ := Option.map_eq_some_iff.mp (hselected.symm.trans hselect)
            cases heq
            exact hnewest
          · cases heq
            have hnone := Option.isNone_iff_eq_none.mp (mem_filter.mp hentry).2
            rw [hfirst] at hnone
            cases hnone
        · intro hnewest
          refine .inl ⟨⟨t, q₀⟩, (hmem .first q₀).mpr hfirst, hselected.trans ?_⟩
          rw [hnewest, Option.map_some]

end

-- ---- A shard, and all candidate shards.

/-- The update the core has for a topic. -/
def PublishCore.deliverable? (core : PublishCore V N) (t : TopicId) : Option (RtdUpdate V) :=
  PublishCore.deliverable (core.active? t) (core.queued? t) t

theorem CoreWf.deliverableCount_pos (h : CoreWf slack core) {t : TopicId}
    (hu : core.deliverable? t = some u) : 0 < (core.shards (shardIndex t)).deliverableCount := by
  obtain ⟨⟨b, q⟩, hnewest, hpushed⟩ := Option.bind_eq_some_iff.mp hu
  obtain ⟨a, ha, hcommitted, -⟩ := pushed_spec hpushed
  have hitem := (mem_collectItems_iff (h.shards (shardIndex t)) ha hcommitted b q).mpr hnewest
  have hq := (collectItems_spec (core.shards (shardIndex t))).2 _ hitem
  have hcount := (h.shards (shardIndex t)).deliverable
  have hpos : 0 < Table.countKeys (core.shards (shardIndex t)).isCommitted
      ((core.shards (shardIndex t)).pending b) := by
    refine countP_pos_iff.mpr ⟨t, Table.mem_keys_of_lookup hq, ?_⟩
    rw [TopicShard.isCommitted_of_lookup ha, hcommitted]
  rw [hcount, deliverableEntries, sumBuffers]
  cases b with
  | first => exact Nat.add_pos_left hpos _
  | second => exact Nat.add_pos_right _ hpos

/-- **The updates one shard gives.** -/
theorem mem_collectShard_iff (h : CoreWf slack core) (i : ShardIndex)
    (updates : List (RtdUpdate V)) (u : RtdUpdate V) :
    u ∈ (core.collectShard i updates).2 ↔
      u ∈ updates ∨ (shardIndex u.topicId = i ∧ core.deliverable? u.topicId = some u) := by
  by_cases hzero : (core.shards i).deliverableCount = 0
  · have hskip : core.collectShard i updates = (core, updates) := if_pos hzero
    rw [hskip]
    refine ⟨.inl, fun hor => hor.resolve_right ?_⟩
    rintro ⟨rfl, hu⟩
    have hpos := h.deliverableCount_pos hu
    omega
  · have hloop : (core.collectShard i updates).2 =
        (collectLoop (core.shards i).activeByTopic updates (collectItems (core.shards i))).2 := by
      unfold collectShard
      dsimp only
      rw [if_neg hzero]
      rfl
    obtain ⟨hnodup, -⟩ := collectItems_spec (core.shards i)
    rw [hloop, mem_collectLoop_iff _ u _ _ hnodup]
    refine or_congr_right ⟨?_, ?_⟩
    · rintro ⟨⟨b, t, q⟩, hitem, hpushed⟩
      obtain ⟨a, ha, hcommitted, -⟩ := pushed_spec hpushed
      obtain ⟨rfl, hactive⟩ := h.active_of_lookup ha
      have htopic : u.topicId = t := pushed_topicId hpushed
      have hnewest := (mem_collectItems_iff (h.shards _) ha hcommitted b q).mp hitem
      rw [htopic]
      exact ⟨rfl, Option.bind_eq_some_iff.mpr ⟨(b, q), hnewest, hpushed⟩⟩
    · rintro ⟨rfl, hu⟩
      obtain ⟨⟨b, q⟩, hnewest, hpushed⟩ := Option.bind_eq_some_iff.mp hu
      obtain ⟨a, ha, hcommitted, -⟩ := pushed_spec hpushed
      exact ⟨⟨b, u.topicId, q⟩, (mem_collectItems_iff (h.shards _) ha hcommitted b q).mpr hnewest,
        hpushed⟩

theorem collectShard_other (h : CoreWf slack core) (i : ShardIndex) (updates : List (RtdUpdate V))
    {t : TopicId} (ht : shardIndex t ≠ i) :
    (core.collectShard i updates).1.deliverable? t = core.deliverable? t := by
  obtain ⟨taken, -, hcollected⟩ := collectShard_collected h i updates
  have hactive : (core.collectShard i updates).1.active? t = core.active? t := by
    refine hcollected.kept t ?_
    rintro u hu rfl
    exact ht (hcollected.located u hu)
  rw [deliverable?, deliverable?, hactive, hcollected.queued t]

/-- Shard after shard, by induction: a topic waits for the visit of its shard. -/
theorem mem_collectShards_iff (shards : List ShardIndex) (u : RtdUpdate V) :
    ∀ (core : PublishCore V N) (updates : List (RtdUpdate V)), CoreWf slack core → shards.Nodup →
      (u ∈ (core.collectShards shards updates).2 ↔
        u ∈ updates ∨ (shardIndex u.topicId ∈ shards ∧ core.deliverable? u.topicId = some u)) := by
  induction shards with
  | nil =>
    intro core updates _ _
    simp [PublishCore.collectShards]
  | cons i shards ih =>
    intro core updates h hnodup
    rw [nodup_cons] at hnodup
    obtain ⟨hfresh, hnodup⟩ := hnodup
    obtain ⟨hwf, -⟩ := collectShard_wf (i := i) h updates
    have hrest := ih (core.collectShard i updates).1 (core.collectShard i updates).2 hwf hnodup
    have hcons : core.collectShards (i :: shards) updates =
        (core.collectShard i updates).1.collectShards shards (core.collectShard i updates).2 := rfl
    rw [hcons, hrest, mem_collectShard_iff h, or_assoc]
    refine or_congr_right ?_
    rw [mem_cons, or_and_right]
    refine or_congr_right (and_congr_right fun hmem => ?_)
    rw [collectShard_other h i updates]
    rintro rfl
    exact hfresh hmem

/-- **A refresh collects the deliverable updates and no others.** The ready bits do not hide a
shard that has one. -/
theorem mem_beginRefresh_iff (h : CoreWf slack core) (hready : slack.ready = true)
    {updates : List (RtdUpdate V)} (hbegin : core.beginRefresh.2 = .ok updates) (u : RtdUpdate V) :
    u ∈ updates ↔ core.deliverable? u.topicId = some u := by
  unfold PublishCore.beginRefresh at hbegin
  split at hbegin
  · cases hbegin
  · next core' plan hplan =>
    obtain ⟨hdata, -⟩ := planRefresh_spec hplan
    have hcandidates : plan.candidateShards = core.readyShards := by
      unfold planRefresh at hplan
      split at hplan
      · cases hplan
      · dsimp only at hplan
        split at hplan
        · cases hplan
        · split at hplan
          · cases hplan
          · cases hplan
            rfl
    cases hbegin
    have hsame : core'.deliverable? u.topicId = core.deliverable? u.topicId := by
      unfold deliverable? active? queued?
      rw [hdata.shards]
    have hnodup : plan.shards.Nodup := (nodup_finRange _).filter _
    have hcollect := mem_collectShards_iff plan.shards u core' [] (h.sameData hdata) hnodup
    refine hcollect.trans ?_
    rw [hsame]
    refine ⟨fun hu => (hu.resolve_left (not_mem_nil)).2, fun hu => .inr ⟨?_, hu⟩⟩
    refine mem_filter.mpr ⟨mem_finRange _, ?_⟩
    rw [hcandidates, h.ready hready]
    exact decide_eq_true (h.deliverableCount_pos hu)

-- ---- The batch of the running refresh.

/-- What a shard gives is resident there, and the batch had nothing of its topic. -/
theorem resident_of_collected (h : Ordered s) (hwf : Accounted s) {batch : RefreshBatch V}
    {index : ShardIndex} {remaining : List ShardIndex} (hbefore : s.batch = some batch)
    (hstage : batch.stage = .collecting (index :: remaining)) {taken : List (RtdUpdate V)}
    (htaken : (s.core.collectShard index batch.updates).2 = batch.updates ++ taken)
    (hcollected : Collected s.core (s.core.collectShard index batch.updates).1 index taken) (hu : u ∈ taken) :
    (∀ u' ∈ batch.updates, u'.topicId ≠ u.topicId) ∧
      ∃ a, s.core.active? u.topicId = some a ∧ a.generation = u.connectionGeneration ∧
        a.values u.buffer = residentOf u ∧
        (s.core.collectShard index batch.updates).1.active? u.topicId =
          some (a.setSlot u.buffer (.inFlight u.connectionGeneration u.sequence)) := by
  obtain ⟨-, hvisited⟩ := (h.batch batch hbefore).remaining _ hstage
  have hfresh : ∀ u' ∈ batch.updates, u'.topicId ≠ u.topicId := by
    intro u' hu' heq
    refine hvisited u' hu' ?_
    rw [heq, hcollected.located u hu]
    exact mem_cons_self
  refine ⟨hfresh, ?_⟩
  have hmem : u ∈ (s.core.collectShard index batch.updates).2 := by
    rw [htaken]
    exact mem_append_right _ hu
  have hdeliverable := (((mem_collectShard_iff hwf.core index batch.updates u).mp hmem).resolve_left
    fun hold => hfresh u hold rfl).2
  obtain ⟨⟨b, q⟩, -, hpushed⟩ := Option.bind_eq_some_iff.mp hdeliverable
  obtain ⟨a, ha, -, -, hslot, heq⟩ := pushed_spec hpushed
  have hbuffer : u.buffer = b := congrArg RtdUpdate.buffer heq
  obtain ⟨a', versioned, ha', -, hgeneration, -, -, hafter⟩ := hcollected.moved u hu
  rw [ha] at ha'
  cases ha'
  rw [← hbuffer] at hslot
  exact ⟨a, ha, hgeneration, hslot, hafter⟩

theorem Ordered.startBatch (h : Ordered s)
    (hbatch : s'.batch = State.startBatch s.batch s.core.planRefresh.2) :
    s'.batch = s.batch ∨ s.batch = none ∧
      ∃ plan : RefreshPlan, s'.batch = some ⟨plan, [], .collecting plan.shards⟩ := by
  cases hplan : s.core.planRefresh with
  | mk core result =>
    rw [hplan] at hbatch
    obtain ⟨-, -, -, ⟨error, rfl, -⟩ | ⟨plan, rfl, hrunning, -⟩⟩ :=
      planRefresh_spec hplan
    · exact .inl hbatch
    · refine .inr ⟨?_, plan, hbatch⟩
      rw [h.running] at hrunning
      exact Option.map_eq_none_iff.mp hrunning

end Xlfn.Subscription
