import Xlfn.Subscription.Invariant
import Xlfn.Subscription.TopicOrder

/-!
# Xlfn — no update is lost and none is reordered

Every step of the data plane is, for each topic, a step of the topic's own machine
(`topicStep_of_touches`), so on an open server every topic is `TopicOrdered`. What the
topics need from each other is that a batch takes at most one value of a topic
(`BatchWf`), that the batch is the one of the running refresh, and that a connection
reserves its topic with a generation no topic has seen.
-/

namespace Xlfn.Subscription

open Xlfn.Lib Xlfn.Kernel List Option PublishCore State Operation

variable {V N : Type} {s s' : State V N} {action : Action V N}

-- ---- The view of a topic.

/-- The updates the batch holds. -/
def batchUpdates (batch : Option (RefreshBatch V)) : List (RtdUpdate V) :=
  match batch with
  | some batch => batch.updates
  | none => []

/-- The records of one topic. -/
def recordsOf (t : TopicId) (records : List UpdateRecord) : List QueuedUpdate :=
  (records.filter (·.topicId = t)).map fun r => ⟨r.generation, r.sequence⟩

/-- What a topic sees of a state. -/
def State.view (s : State V N) (t : TopicId) : TopicView V where
  accepted  := recordsOf t s.history.accepted
  observed  := recordsOf t s.history.observed
  delivered := recordsOf t s.history.delivered
  taken     := (batchUpdates s.batch).filter (·.topicId = t)
  active    := s.core.active? t
  queued    := s.core.queued? t

/-- A new record of the topic comes first. -/
theorem recordsOf_cons_self (r : UpdateRecord) (records : List UpdateRecord) :
    recordsOf r.topicId (r :: records) = ⟨r.generation, r.sequence⟩ :: recordsOf r.topicId records := by
  simp [recordsOf]

variable {t : TopicId} {op : Nat} {batch : RefreshBatch V} {c : Connection}
  {updates : List (RtdUpdate V)}

/-- A record of another topic is not seen. -/
theorem recordsOf_cons_ne {r : UpdateRecord} (h : t ≠ r.topicId) (records : List UpdateRecord) :
    recordsOf t (r :: records) = recordsOf t records := by
  simp [recordsOf, h.symm]

/-- The view depends on the view of the core, the updates of the batch and the history. -/
theorem State.view_congr (hactive : s'.core.active? t = s.core.active? t)
    (hqueued : s'.core.queued? t = s.core.queued? t)
    (hbatch : (batchUpdates s'.batch).filter (·.topicId = t) =
      (batchUpdates s.batch).filter (·.topicId = t)) (hhistory : s'.history = s.history) :
    s'.view t = s.view t := by
  unfold view
  rw [hactive, hqueued, hbatch, hhistory]

/-- The view of a topic depends on data, batch and history alone. -/
theorem view_of_data (hdata : SameData s.core s'.core)
    (hbatch : batchUpdates s'.batch = batchUpdates s.batch) (hhistory : s'.history = s.history)
    (t : TopicId) : s'.view t = s.view t := by
  refine view_congr ?_ ?_ ?_ hhistory
  · rw [active?, hdata.shards]
    rfl
  · funext b
    rw [queued?, hdata.shards]
    rfl
  · rw [hbatch]

/-- A section that touches one topic is a step of that topic and none of the others. -/
theorem topicStep_of_touches {fresh : Option ConnectionGeneration} {t₀ : TopicId}
    {active : Option (ActiveSubscription V)} {queued : BufferIndex → Option QueuedUpdate}
    (h : Touches s.core s'.core t₀ active queued) (hbatch : s'.batch = s.batch)
    (hhistory : ∀ t, t ≠ t₀ → recordsOf t s'.history.accepted = recordsOf t s.history.accepted ∧
      recordsOf t s'.history.observed = recordsOf t s.history.observed ∧
      recordsOf t s'.history.delivered = recordsOf t s.history.delivered)
    (hself : TopicStep fresh (s.view t₀) { s'.view t₀ with active := active, queued := queued }) :
    ∀ t, TopicStep fresh (s.view t) (s'.view t) := by
  intro t
  by_cases ht : t = t₀
  · subst ht
    have hview : s'.view t = { s'.view t with active := active, queued := queued } := by
      rw [← h.active, ← h.queued]
      rfl
    rw [hview]
    exact hself
  · have hview : s'.view t = s.view t := by
      obtain ⟨h₁, h₂, h₃⟩ := hhistory t ht
      unfold view
      rw [h.otherActive t ht, h.otherQueued t ht, hbatch, h₁, h₂, h₃]
    rw [hview]
    exact .same

-- ---- The invariant.

/-- A batch holds at most one update of a topic and has visited every shard once. -/
structure BatchWf (batch : RefreshBatch V) : Prop where
  topics    : (batch.updates.map (·.topicId)).Nodup
  remaining : ∀ shards, batch.stage = .collecting shards →
    shards.Nodup ∧ ∀ u ∈ batch.updates, shardIndex u.topicId ∉ shards

/-- **The order of updates over the whole server.** -/
structure Ordered (s : State V N) : Prop where
  topics     : ∀ t, TopicOrdered (s.view t)
  running    : s.core.refresh.running? = s.batch.map (·.plan.refreshId)
  batch      : ∀ batch, s.batch = some batch → BatchWf batch
  usedBelow  : ∀ t g, (s.view t).Uses g → g.raw < s.nextGeneration
  /-- A transaction that has not reserved its topic has an unused generation. -/
  unreserved : ∀ k o c, s.operations.lookup k = some o → o.knowledge? = some (c, .unreserved) →
    ∀ t, ¬(s.view t).Uses c.generation
  /-- What a transaction has observed was accepted. -/
  observed   : ∀ k o c n, s.operations.lookup k = some o →
    o.knowledge? = some (c, .observed (some n)) →
    ⟨c.generation, n⟩ ∈ (s.view c.topicId).accepted

/-- No transaction of `s'` has learned anything. -/
def KnowledgeKept (s s' : State V N) : Prop :=
  ∀ k o' x, s'.operations.lookup k = some o' → o'.knowledge? = some x →
    ∃ o, s.operations.lookup k = some o ∧ o.knowledge? = some x

/-- The operations are the same. -/
theorem KnowledgeKept.of_eq (h : s'.operations = s.operations) : KnowledgeKept s s' := by
  intro k o' x ho' hx
  rw [h] at ho'
  exact ⟨o', ho', hx⟩

/-- An entry that learns nothing new. -/
theorem OpChange.knowledge {before after : Option (Operation V N)}
    (h : OpChange s s' op before after) (hafter : ∀ p ∈ after, ∀ x, p.knowledge? = some x →
      ∃ o, before = some o ∧ o.knowledge? = some x) : KnowledgeKept s s' := by
  intro k o' x ho' hx
  rw [h.after k] at ho'
  split at ho'
  · next hk =>
    obtain ⟨o, ho, hox⟩ := hafter o' ho' x hx
    refine ⟨o, ?_, hox⟩
    rw [hk, h.before, ho]
  · exact ⟨o', ho', hx⟩

/-- Without a connection nothing is known. -/
theorem Operation.knowledge?_of_connection {o : Operation V N} (h : o.connection? = none) :
    o.knowledge? = none := by
  unfold knowledge?
  split
  · cases h
  · cases h
  · cases h
  · rfl

/-- An entry that knows nothing. -/
theorem OpChange.knowledge_of_none {before after : Option (Operation V N)}
    (h : OpChange s s' op before after) (hafter : ∀ p ∈ after, p.knowledge? = none) :
    KnowledgeKept s s' := by
  refine h.knowledge ?_
  intro p hp x hx
  rw [hafter p hp] at hx
  cases hx

/-- **The rule for a step**: every topic makes a step of its own. -/
theorem Ordered.of_steps (h : Ordered s) (hsteps : ∀ t, TopicStep none (s.view t) (s'.view t))
    (hrunning : s'.core.refresh.running? = s'.batch.map (·.plan.refreshId))
    (hbatch : ∀ batch, s'.batch = some batch → BatchWf batch)
    (hnext : s.nextGeneration ≤ s'.nextGeneration) (hknow : KnowledgeKept s s') : Ordered s' := by
  have huses : ∀ t g, (s'.view t).Uses g → (s.view t).Uses g := by
    intro t g hg
    rcases (hsteps t).uses hg with hold | hfresh
    · exact hold
    · cases hfresh
  refine ⟨fun t => (hsteps t).ordered (h.topics t), hrunning, hbatch, ?_, ?_, ?_⟩
  · intro t g hg
    exact (h.usedBelow t g (huses t g hg)).trans_le hnext
  · intro k o' c ho' hx t hg
    obtain ⟨o, ho, hox⟩ := hknow k o' _ ho' hx
    exact h.unreserved k o c ho hox t (huses t _ hg)
  · intro k o' c n ho' hx
    obtain ⟨o, ho, hox⟩ := hknow k o' _ ho' hx
    exact (hsteps c.topicId).accepted (h.observed k o c n ho hox)

/-- A step that no topic sees. -/
theorem Ordered.unseen (h : Ordered s) (hview : ∀ t, s'.view t = s.view t)
    (hbatch : s'.batch = s.batch)
    (hrunning : s'.core.refresh.running? = s.core.refresh.running?)
    (hnext : s.nextGeneration ≤ s'.nextGeneration) (hknow : KnowledgeKept s s') : Ordered s' := by
  refine h.of_steps ?_ ?_ ?_ hnext hknow
  · intro t
    rw [hview t]
    exact .same
  · rw [hrunning, hbatch]
    exact h.running
  · rw [hbatch]
    exact h.batch

/-- A section that touches a topic, outside a refresh. -/
theorem Ordered.touch (h : Ordered s) (hframe : Frame s s')
    (hsteps : ∀ t, TopicStep none (s.view t) (s'.view t)) (hbatch : s'.batch = s.batch)
    (hcontrol : SameControl s.core s'.core) (hknow : KnowledgeKept s s') : Ordered s' := by
  refine h.of_steps hsteps ?_ ?_ hframe.nextGeneration.ge hknow
  · rw [hcontrol.refresh, hbatch]
    exact h.running
  · rw [hbatch]
    exact h.batch

/-- A section that leaves the data alone. -/
theorem Ordered.rewrite (h : Ordered s) (hframe : Frame s s')
    (hcore : Rewritten s.core s'.core) (hbatch : s'.batch = s.batch)
    (hhistory : s'.history = s.history) (hknow : KnowledgeKept s s') : Ordered s' :=
  h.unseen (view_of_data hcore.data (by rw [hbatch]) hhistory) hbatch hcore.running
    hframe.nextGeneration.ge hknow

/-- The core is the same. -/
theorem Rewritten.of_eq {core core' : PublishCore V N} (h : core' = core) :
    Rewritten core core' := by
  subst h
  exact ⟨SameData.refl _, rfl, rfl⟩

/-- The end of a refresh whose batch is empty. -/
theorem Ordered.ended (h : Ordered s) (hframe : Frame s s') (hbefore : s.batch = some batch)
    (hempty : batch.updates = []) (hdata : SameData s.core s'.core)
    (hrunning : s'.core.refresh.running? = none) (hbatch : s'.batch = none)
    (hhistory : s'.history = s.history) (hknow : KnowledgeKept s s') : Ordered s' := by
  have hupdates : batchUpdates s'.batch = batchUpdates s.batch := by
    rw [hbatch, hbefore]
    exact hempty.symm
  refine h.of_steps ?_ ?_ ?_ hframe.nextGeneration.ge hknow
  · intro t
    rw [view_of_data hdata hupdates hhistory t]
    exact .same
  · rw [hbatch]
    exact hrunning
  · intro batch' hbatch'
    rw [hbatch] at hbatch'
    cases hbatch'

-- ---- Transactions learn something.

/-- A new connection has a generation that no record carries. -/
theorem Ordered.connected (h : Ordered s)
    (hframe : Frame { s with nextGeneration := s.nextGeneration + 1 } s')
    (hcore : s'.core = s.core) (hbatch : s'.batch = s.batch) (hhistory : s'.history = s.history)
    (hop : OpChange s s' op none (some (.connecting c .catalogReserved)))
    (hg : c.generation.raw = s.nextGeneration) : Ordered s' := by
  have hview : ∀ t, s'.view t = s.view t :=
    view_of_data (hcore ▸ SameData.refl _) (by rw [hbatch]) hhistory
  have hnext : s'.nextGeneration = s.nextGeneration + 1 := hframe.nextGeneration
  have hcases : ∀ k o' x, s'.operations.lookup k = some o' → o'.knowledge? = some x →
      x = (c, .unreserved) ∨ ∃ o, s.operations.lookup k = some o ∧ o.knowledge? = some x := by
    intro k o' x ho' hx
    rw [hop.after k] at ho'
    split at ho'
    · cases ho'
      cases hx
      exact .inl rfl
    · exact .inr ⟨o', ho', hx⟩
  refine ⟨?_, ?_, ?_, ?_, ?_, ?_⟩
  · intro t
    rw [hview]
    exact h.topics t
  · rw [hcore, hbatch]
    exact h.running
  · rw [hbatch]
    exact h.batch
  · intro t g hused
    rw [hview] at hused
    rw [hnext]
    exact (h.usedBelow t g hused).trans (Nat.lt_succ_self _)
  · intro k o' c' ho' hx t hused
    rw [hview] at hused
    rcases hcases k o' _ ho' hx with heq | ⟨o, ho, hox⟩
    · cases heq
      have hlt := h.usedBelow t _ hused
      rw [hg] at hlt
      exact lt_irrefl _ hlt
    · exact h.unreserved k o c' ho hox t hused
  · intro k o' c' n ho' hx
    rw [hview]
    rcases hcases k o' _ ho' hx with heq | ⟨o, ho, hox⟩
    · cases heq
    · exact h.observed k o c' n ho hox

/-- A reserved topic starts without a record of its generation. -/
theorem Ordered.reserved (h : Ordered s) (hwf : Accounted s) (hframe : Frame s s')
    {o' : Option (Operation V N)} (hbatch : s'.batch = s.batch)
    (hhistory : s'.history = s.history)
    (hreserved : Reserved s.core s'.core c.topicId c.id c.generation)
    (hop : OpChange s s' op (some (.connecting c .catalogReserved)) o')
    (hknow : ∀ p ∈ o', p.knowledge? = none) : Ordered s' := by
  have hfresh := h.unreserved op _ c hop.before rfl
  have hsteps : ∀ t, TopicStep (some c.generation) (s.view t) (s'.view t) := by
    refine topicStep_of_touches hreserved.touches hbatch ?_ ?_
    · intro t _
      rw [hhistory]
      exact ⟨rfl, rfl, rfl⟩
    · have hview : ({ s'.view c.topicId with
          active := some (.fresh c.id c.generation), queued := s.core.queued? c.topicId } :
            TopicView V) = { s.view c.topicId with active := some (.fresh c.id c.generation) } := by
        unfold view
        rw [hbatch, hhistory]
      rw [hview]
      refine .reserved c.id c.generation rfl (hwf.core.queued_none hreserved.vacant) ?_
      intro r hr hg
      exact hfresh c.topicId (.inr ⟨r, hr, hg⟩)
  have hkept := hop.knowledge_of_none hknow
  refine ⟨fun t => (hsteps t).ordered (h.topics t), ?_, ?_, ?_, ?_, ?_⟩
  · rw [hreserved.control.refresh, hbatch]
    exact h.running
  · rw [hbatch]
    exact h.batch
  · intro t g hused
    rw [hframe.nextGeneration]
    rcases (hsteps t).uses hused with hold | hnew
    · exact h.usedBelow t g hold
    · cases hnew
      exact hwf.owned.opBelow op _ c hop.before rfl
  · intro k o c' ho hx t hused
    obtain ⟨p, hp, hpx⟩ := hkept k o _ ho hx
    rcases (hsteps t).uses hused with hold | hnew
    · exact h.unreserved k p c' hp hpx t hold
    · -- Another transaction with this generation would be the one that just reserved.
      have hconnection : p.connection? = some c' := by
        unfold knowledge? at hpx
        split at hpx <;> cases hpx
        rfl
      have hk := hwf.owned.opInjective k op p _ c' c hp hop.before hconnection rfl
        (some.inj hnew).symm
      subst hk
      rw [hop.after k, if_pos rfl] at ho
      rw [hknow o ho] at hx
      cases hx
  · intro k o c' n ho hx
    obtain ⟨p, hp, hpx⟩ := hkept k o _ ho hx
    exact (hsteps c'.topicId).accepted (h.observed k p c' n hp hpx)

/-- The observed sequence is a pending one. -/
theorem queued_of_observedSequence {core : PublishCore V N} {g : ConnectionGeneration} {n : Nat}
    (h : core.observedSequence t g = some n) : ∃ b, core.queued? t b = some ⟨g, n⟩ := by
  have hmem := max?_mem h
  obtain ⟨b, -, hb⟩ := mem_filterMap.mp hmem
  obtain ⟨q, hq, hif⟩ := bind_eq_some_iff.mp hb
  split at hif
  · next hg =>
    cases hif
    subst hg
    exact ⟨b, hq⟩
  · cases hif

/-- An installed connection knows the sequence it observed. -/
theorem Ordered.installed (h : Ordered s) (hframe : Frame s s') (hcore : s'.core = s.core)
    (hbatch : s'.batch = s.batch) (hhistory : s'.history = s.history)
    (hop : OpChange s s' op (some (.connecting c .publishReserved))
      (some (.connecting c (.installed (s.core.observedSequence c.topicId c.generation))))) :
    Ordered s' := by
  have hview : ∀ t, s'.view t = s.view t :=
    view_of_data (hcore ▸ SameData.refl _) (by rw [hbatch]) hhistory
  have hcases : ∀ k o' x, s'.operations.lookup k = some o' → o'.knowledge? = some x →
      x = (c, .observed (s.core.observedSequence c.topicId c.generation)) ∨
        ∃ o, s.operations.lookup k = some o ∧ o.knowledge? = some x := by
    intro k o' x ho' hx
    rw [hop.after k] at ho'
    split at ho'
    · cases ho'
      cases hx
      exact .inl rfl
    · exact .inr ⟨o', ho', hx⟩
  refine ⟨?_, ?_, ?_, ?_, ?_, ?_⟩
  · intro t
    rw [hview]
    exact h.topics t
  · rw [hcore, hbatch]
    exact h.running
  · rw [hbatch]
    exact h.batch
  · intro t g hused
    rw [hview] at hused
    rw [hframe.nextGeneration]
    exact h.usedBelow t g hused
  · intro k o' c' ho' hx t hused
    rw [hview] at hused
    rcases hcases k o' _ ho' hx with heq | ⟨o, ho, hox⟩
    · cases heq
    · exact h.unreserved k o c' ho hox t hused
  · intro k o' c' n ho' hx
    rw [hview]
    rcases hcases k o' _ ho' hx with heq | ⟨o, ho, hox⟩
    · obtain ⟨rfl, hsequence⟩ := Prod.mk.inj heq
      obtain ⟨b, hb⟩ := queued_of_observedSequence (Knowledge.observed.inj hsequence).symm
      exact (h.topics c'.topicId).queued b _ hb
    · exact h.observed k o c' n ho hox

-- ---- Publication and commit.

/-- **A publication is a step of its topic.** -/
theorem published_topicStep {sink : PublishSink} {b : BufferIndex} {value : V}
    {outcome : CommitOutcome}
    (hcase : CommitValueCase s.core s'.core b sink.topicId sink.connectionGeneration value outcome)
    (hbatch : s'.batch = s.batch) (hhistory : s'.history = s.history.accept sink outcome) :
    ∀ t, TopicStep none (s.view t) (s'.view t) := by
  cases hcase with
  | refused error hcore | duplicate hcore =>
    intro t
    rw [view_of_data (hcore ▸ SameData.refl _) (by rw [hbatch]) hhistory t]
    exact .same
  | overloaded a ha hcore =>
    have htouches := Touches.setActive s.core sink.topicId a.spent
    rw [← hcore] at htouches
    have hsame : s'.history = s.history := hhistory
    refine topicStep_of_touches htouches hbatch ?_ ?_
    · intro t _
      rw [hsame]
      exact ⟨rfl, rfl, rfl⟩
    · have hview : ({ s'.view sink.topicId with
          active := some a.spent, queued := s.core.queued? sink.topicId } : TopicView V) =
            { s.view sink.topicId with active := some a.spent } := by
        unfold view
        rw [hbatch, hsame]
      rw [hview]
      exact .spent a ha
  | accepted a ha hg hstored =>
    have hrecords : s'.history.accepted =
        ⟨sink.topicId, a.generation, a.nextSequence⟩ :: s.history.accepted := by
      rw [hhistory, hg]
      rfl
    have hobserved : s'.history.observed = s.history.observed := by rw [hhistory]; rfl
    have hdelivered : s'.history.delivered = s.history.delivered := by rw [hhistory]; rfl
    refine topicStep_of_touches hstored.touches hbatch ?_ ?_
    · intro t ht
      rw [hrecords, hobserved, hdelivered, recordsOf_cons_ne ht]
      exact ⟨rfl, rfl, rfl⟩
    · have hview : ({ s'.view sink.topicId with
          active := some (a.spent.stored b a.nextSequence value),
          queued := Function.update (s.core.queued? sink.topicId) b
            (some ⟨a.spent.generation, a.nextSequence⟩) } : TopicView V) =
          { s.view sink.topicId with
            accepted := ⟨a.generation, a.nextSequence⟩ :: (s.view sink.topicId).accepted
            active := some (a.spent.stored b a.nextSequence value)
            queued := Function.update (s.view sink.topicId).queued b
              (some ⟨a.generation, a.nextSequence⟩) } := by
        unfold view
        rw [hbatch, hrecords, hobserved, hdelivered,
          recordsOf_cons_self ⟨sink.topicId, a.generation, a.nextSequence⟩]
        rfl
      rw [hview]
      exact .stored a b value ha

/-- **A commit is a step of its topic.** -/
theorem committed_topicStep (h : Ordered s) {observed : Option Nat} {epoch : Nat}
    {a : ActiveSubscription V} {hasPending : Bool}
    (hop : s.operations.lookup op = some (.connecting c (.committing observed epoch)))
    (ha : s.core.active? c.topicId = some a) (hg : a.generation = c.generation)
    (hcommitted : Committed s.core s'.core c.topicId a observed) (hbatch : s'.batch = s.batch)
    (hhistory : s'.history = s.history.observe c (.ok hasPending) observed) :
    ∀ t, TopicStep none (s.view t) (s'.view t) := by
  have haccepted : s'.history.accepted = s.history.accepted := by
    rw [hhistory]
    cases observed <;> rfl
  have hdelivered : s'.history.delivered = s.history.delivered := by
    rw [hhistory]
    cases observed <;> rfl
  have hself : recordsOf c.topicId s'.history.observed =
      observeRecord a.generation observed (recordsOf c.topicId s.history.observed) := by
    rw [hhistory, hg]
    cases observed with
    | none => rfl
    | some n => exact recordsOf_cons_self ⟨c.topicId, c.generation, n⟩ _
  refine topicStep_of_touches hcommitted.touches hbatch ?_ ?_
  · intro t ht
    refine ⟨by rw [haccepted], ?_, by rw [hdelivered]⟩
    rw [hhistory]
    cases observed with
    | none => rfl
    | some n => exact recordsOf_cons_ne (r := ⟨c.topicId, c.generation, n⟩) ht _
  · have hview : ({ s'.view c.topicId with
        active := some { a with committed := true },
        queued := fun b => (s.core.queued? c.topicId b).filter (newerThan observed) } :
          TopicView V) =
        { s.view c.topicId with
          observed := observeRecord a.generation observed (s.view c.topicId).observed
          active := some { a with committed := true }
          queued := fun b => ((s.view c.topicId).queued b).filter (newerThan observed) } := by
      unfold view
      rw [hbatch, haccepted, hdelivered, hself]
    rw [hview]
    refine .committed a observed ha ?_
    intro n hn
    subst hn
    rw [hg]
    exact h.observed op _ c n hop rfl

/-- **A withdrawal is a step of its topic.** -/
theorem withdrawn_topicStep {t₀ : TopicId} {keep : QueuedUpdate → Bool} {gone : Bool}
    (hwithdrawn : Withdrawn s.core s'.core t₀ keep gone)
    (hkeep : gone = false → ∀ a q, s.core.active? t₀ = some a →
      q.connectionGeneration = a.generation → keep q = true)
    (hbatch : s'.batch = s.batch) (hhistory : s'.history = s.history) :
    ∀ t, TopicStep none (s.view t) (s'.view t) := by
  refine topicStep_of_touches hwithdrawn.touches hbatch ?_ ?_
  · intro t _
    rw [hhistory]
    exact ⟨rfl, rfl, rfl⟩
  · have hview : ({ s'.view t₀ with
        active := if gone then none else s.core.active? t₀,
        queued := fun b => (s.core.queued? t₀ b).filter keep } : TopicView V) =
        { s.view t₀ with
          active := if gone then none else (s.view t₀).active
          queued := fun b => ((s.view t₀).queued b).filter keep } := by
      unfold view
      rw [hbatch, hhistory]
    rw [hview]
    exact .withdrawn keep gone hkeep

-- ---- Refresh.

/-- A batch with one update a topic, filtered by a topic of it. -/
theorem filter_topic_of_mem (h : (updates.map (·.topicId)).Nodup) {u : RtdUpdate V}
    (hu : u ∈ updates) : updates.filter (·.topicId = u.topicId) = [u] := by
  induction updates with
  | nil => cases hu
  | cons u' updates ih =>
    rw [map_cons, nodup_cons] at h
    rcases mem_cons.mp hu with rfl | hu
    · have hnone : updates.filter (fun x => decide (x.topicId = u.topicId)) = [] := by
        refine filter_eq_nil_iff.mpr ?_
        intro x hx htopic
        exact h.1 (of_decide_eq_true htopic ▸ List.mem_map_of_mem hx)
      rw [filter_cons, if_pos (decide_eq_true rfl), hnone]
    · have hne : ¬decide (u'.topicId = u.topicId) = true := by
        intro htopic
        rw [of_decide_eq_true htopic] at h
        exact h.1 (List.mem_map_of_mem hu)
      rw [filter_cons, if_neg hne]
      exact ih h.2 hu

/-- And by another topic. -/
theorem filter_topic_of_forall (h : ∀ u ∈ updates, u.topicId ≠ t) :
    updates.filter (·.topicId = t) = [] := by
  refine filter_eq_nil_iff.mpr ?_
  intro u hu htopic
  exact h u hu (of_decide_eq_true htopic)

/-- **A collection is a step of every topic of its shard.** The shard is visited for the
first time, so the batch holds nothing of its topics yet. -/
theorem Ordered.collected (h : Ordered s) (hframe : Frame s s') {index : ShardIndex}
    {remaining : List ShardIndex} {taken : List (RtdUpdate V)} (hbefore : s.batch = some batch)
    (hstage : batch.stage = .collecting (index :: remaining))
    (hcollected : Collected s.core s'.core index taken) (hcontrol : SameControl s.core s'.core)
    (hbatch : s'.batch = some ⟨batch.plan, batch.updates ++ taken, .collecting remaining⟩)
    (hhistory : s'.history = s.history) (hknow : KnowledgeKept s s') : Ordered s' := by
  have hwf := h.batch batch hbefore
  obtain ⟨hnodup, hvisited⟩ := hwf.remaining _ hstage
  rw [nodup_cons] at hnodup
  have hfirst : ∀ u ∈ taken, ∀ u' ∈ batch.updates, u'.topicId ≠ u.topicId := by
    intro u hu u' hu' htopic
    refine hvisited u' hu' ?_
    rw [htopic, hcollected.located u hu]
    exact mem_cons_self
  have hupdates : batchUpdates s'.batch = batchUpdates s.batch ++ taken := by
    rw [hbatch, hbefore]
    rfl
  refine h.of_steps ?_ ?_ ?_ hframe.nextGeneration.ge hknow
  · intro t
    by_cases ht : ∃ u ∈ taken, u.topicId = t
    · obtain ⟨u, hu, rfl⟩ := ht
      obtain ⟨a, versioned, ha, -, -, hqueued, -, hactive⟩ := hcollected.moved u hu
      have hnone : (batchUpdates s.batch).filter (·.topicId = u.topicId) = [] := by
        rw [hbefore]
        exact filter_topic_of_forall (hfirst u hu)
      have hview : s'.view u.topicId = { s.view u.topicId with
          taken := [u]
          active := some (a.setSlot u.buffer (.inFlight u.connectionGeneration u.sequence)) } := by
        unfold view
        rw [hhistory, hupdates, filter_append, hnone,
          filter_topic_of_mem hcollected.topics hu, hactive, hcollected.queued]
        rfl
      rw [hview]
      exact .collected a u ha hnone hqueued
    · have hother : ∀ u ∈ taken, u.topicId ≠ t := fun u hu htopic => ht ⟨u, hu, htopic⟩
      have hview : s'.view t = s.view t := by
        refine view_congr (hcollected.kept t hother) (hcollected.queued t) ?_ hhistory
        rw [hupdates, filter_append, filter_topic_of_forall hother, append_nil]
      rw [hview]
      exact .same
  · rw [hcontrol.refresh, h.running, hbefore, hbatch]
    rfl
  · intro batch' hbatch'
    rw [hbatch] at hbatch'
    cases hbatch'
    constructor
    · rw [map_append, nodup_append]
      refine ⟨hwf.topics, hcollected.topics, ?_⟩
      intro t ht t' ht' heq
      obtain ⟨u', hu', rfl⟩ := List.mem_map.mp ht
      obtain ⟨u, hu, rfl⟩ := List.mem_map.mp ht'
      exact hfirst u hu u' hu' heq
    · intro shards hshards
      cases hshards
      refine ⟨hnodup.2, ?_⟩
      intro u hu
      rcases mem_append.mp hu with hu | hu
      · exact fun hmem => hvisited u hu (mem_cons_of_mem _ hmem)
      · rw [hcollected.located u hu]
        exact hnodup.1

/-- **Completing an update is a step of its topic.** -/
theorem Ordered.completed (h : Ordered s) (hwf : Accounted s) (hframe : Frame s s')
    {update : RtdUpdate V} {outcome : RefreshOutcome} {ticketError : Bool}
    (hbefore : s.batch = some batch) (hstage : batch.stage = .completing outcome ticketError)
    (hupdates : batch.updates = updates ++ [update])
    (hcomplete : s.core.completeUpdate outcome update = some s'.core)
    (hcontrol : SameControl s.core s'.core) (hbatch : s'.batch = some { batch with updates })
    (hhistory : s'.history = s.history.deliver update outcome) (hknow : KnowledgeKept s s') :
    Ordered s' := by
  have hb := h.batch batch hbefore
  have hnodup := hb.topics
  rw [hupdates] at hnodup
  have htopics : (updates.map (·.topicId)).Nodup ∧
      ∀ u ∈ updates, u.topicId ≠ update.topicId := by
    rw [map_append, nodup_append] at hnodup
    refine ⟨hnodup.1, ?_⟩
    intro u hu htopic
    exact hnodup.2.2 _ (List.mem_map_of_mem hu) _ (List.mem_map_of_mem mem_cons_self) htopic
  have htaken : (batchUpdates s.batch).filter (·.topicId = update.topicId) = [update] := by
    rw [hbefore, batchUpdates, hupdates]
    exact filter_topic_of_mem hnodup (mem_append_right _ mem_cons_self)
  have hrest : ∀ t, t ≠ update.topicId → (batchUpdates s'.batch).filter (·.topicId = t) =
      (batchUpdates s.batch).filter (·.topicId = t) := by
    intro t ht
    rw [hbatch, hbefore]
    dsimp only [batchUpdates]
    rw [hupdates, filter_append]
    simp [ht.symm]
  have haccepted : s'.history.accepted = s.history.accepted := by
    rw [hhistory]
    cases outcome <;> rfl
  have hobserved : s'.history.observed = s.history.observed := by
    rw [hhistory]
    cases outcome <;> rfl
  have hdelivered : recordsOf update.topicId s'.history.delivered =
      deliverRecord update outcome (recordsOf update.topicId s.history.delivered) := by
    rw [hhistory]
    cases outcome with
    | failed => rfl
    | delivered =>
      exact recordsOf_cons_self ⟨update.topicId, update.connectionGeneration, update.sequence⟩ _
  have hothers : ∀ t, t ≠ update.topicId →
      recordsOf t s'.history.delivered = recordsOf t s.history.delivered := by
    intro t ht
    rw [hhistory]
    cases outcome with
    | failed => rfl
    | delivered =>
      exact recordsOf_cons_ne
        (r := ⟨update.topicId, update.connectionGeneration, update.sequence⟩) ht _
  obtain ⟨active, htouches, hactive⟩ := completeUpdate_touches hwf.core hcomplete
  refine h.of_steps ?_ ?_ ?_ hframe.nextGeneration.ge hknow
  · intro t
    by_cases ht : t = update.topicId
    · subst ht
      have hview : s'.view update.topicId = { s.view update.topicId with
          delivered := deliverRecord update outcome (s.view update.topicId).delivered
          taken := []
          active := active
          queued := fun b => ((s.view update.topicId).queued b).filter
            (staysPending outcome update) } := by
        have hnone : (batchUpdates s'.batch).filter (·.topicId = update.topicId) = [] := by
          rw [hbatch]
          exact filter_topic_of_forall htopics.2
        unfold view
        rw [haccepted, hobserved, hdelivered, hnone, htouches.active, htouches.queued]
      rw [hview]
      exact .completed update outcome active htaken hactive
    · have hview : s'.view t = s.view t := by
        unfold view
        rw [haccepted, hobserved, hothers t ht, hrest t ht, htouches.otherActive t ht,
          htouches.otherQueued t ht]
      rw [hview]
      exact .same
  · rw [hcontrol.refresh, h.running, hbefore, hbatch]
    rfl
  · intro batch' hbatch'
    rw [hbatch] at hbatch'
    cases hbatch'
    refine ⟨htopics.1, ?_⟩
    intro shards hshards
    rw [hstage] at hshards
    cases hshards

/-- A refresh starts with an empty batch and every candidate shard ahead. -/
theorem Ordered.planned (h : Ordered s) (hframe : Frame s s') {result : Except XllError RefreshPlan}
    (hplan : s.core.planRefresh = (s'.core, result))
    (hbatch : s'.batch = State.startBatch s.batch result) (hhistory : s'.history = s.history)
    (hknow : KnowledgeKept s s') : Ordered s' := by
  obtain ⟨hdata, -, -, ⟨error, rfl, -, hphase, -⟩ | ⟨plan, rfl, hidle, hrunning, -⟩⟩ :=
    planRefresh_spec hplan
  · refine h.unseen (view_of_data hdata (by rw [hbatch]; rfl) hhistory) hbatch ?_
      hframe.nextGeneration.ge hknow
    unfold RefreshState.running?
    rw [hphase]
  · have hnone : s.batch = none := by
      have hmap := h.running
      rw [hidle] at hmap
      exact map_eq_none_iff.mp hmap.symm
    have hupdates : batchUpdates s'.batch = batchUpdates s.batch := by
      rw [hbatch, hnone]
      rfl
    refine h.of_steps ?_ ?_ ?_ hframe.nextGeneration.ge hknow
    · intro t
      rw [view_of_data hdata hupdates hhistory t]
      exact .same
    · rw [hrunning, hbatch]
      rfl
    · intro batch' hbatch'
      rw [hbatch] at hbatch'
      cases hbatch'
      refine ⟨nodup_nil, ?_⟩
      intro shards hshards
      cases hshards
      refine ⟨(nodup_finRange _).filter _, ?_⟩
      intro u hu
      cases hu

-- ---- One step.

/-- The batch of an ordered state passes the opening section of its completion. -/
theorem Ordered.not_mismatched (h : Ordered s) (hbefore : s.batch = some batch) (error : XllError) :
    s.core.checkRefresh batch.plan.refreshId ≠ .error error := by
  intro hcheck
  have hrunning := h.running
  rw [hbefore, map_some] at hrunning
  rw [checkRefresh_of_running hrunning] at hcheck
  cases hcheck

/-- **One step on an open server keeps the order.** -/
theorem Ordered.step [BEq V] (h : Ordered s) (hwf : Accounted s)
    (hopen : s.core.lifecycle = .opened) (heffect : Effect s action s') : Ordered s' := by
  have hterm := hwf.lifecycle.mp hopen
  cases heffect with
  | progress op o o' hframe hcore hbatch hhistory hop hprogress =>
    refine h.rewrite hframe (.of_eq hcore) hbatch hhistory (hop.knowledge ?_)
    intro p hp x hx
    rcases hprogress.knowledge p hp with hnone | hsame
    · rw [hnone] at hx
      cases hx
    · exact ⟨o, rfl, hsame.symm.trans hx⟩
  | admitted op o hframe hcore hbatch hhistory hop hconnection =>
    refine h.rewrite hframe (.of_eq hcore) hbatch hhistory (hop.knowledge_of_none ?_)
    intro p hp
    cases hp
    exact knowledge?_of_connection hconnection
  | connected op c hframe hcore hbatch hhistory hop hgeneration =>
    exact h.connected hframe hcore hbatch hhistory hop hgeneration
  | installed op c a hframe hcore hbatch hhistory _ _ hop =>
    exact h.installed hframe hcore hbatch hhistory hop
  | published op o o' sink value epoch outcome _ hframe hbatch hvalue hhistory hop _ hconnection _ =>
    obtain ⟨-, hcase⟩ := commitValue_spec hwf.core (BufferIndex.fromEpoch epoch) sink.topicId
      sink.connectionGeneration value
    rw [hvalue] at hcase
    refine h.touch hframe (published_topicStep hcase hbatch hhistory) hbatch hcase.control
      (hop.knowledge_of_none ?_)
    exact fun p hp => knowledge?_of_connection (hconnection p hp)
  | reserved op c o' hframe hbatch hhistory result hreserve hop hnext =>
    have hknow : ∀ p ∈ o', p.knowledge? = none := by
      intro p hp
      rcases hnext with hnone | hsome
      · rw [hnone] at hp
        cases hp
      · rw [hsome] at hp
        cases hp
        rfl
    rcases hwf.core.reserved hreserve with hcore | ⟨-, hreserved⟩
    · exact h.rewrite hframe (.of_eq hcore) hbatch hhistory (hop.knowledge_of_none hknow)
    · exact h.reserved hwf hframe hbatch hhistory hreserved hop hknow
  | committed op c observed epoch o' result _ hframe hbatch hcommit hhistory hop _ hknowledge _ =>
    have hknow : KnowledgeKept s s' := by
      refine hop.knowledge_of_none ?_
      intro p hp
      cases hp
      exact hknowledge
    rcases hwf.core.committed hcommit with
      ⟨error, hcore, rfl⟩ | ⟨hasPending, a, rfl, ha, hg, -, hcommitted, -⟩
    · exact h.rewrite hframe (.of_eq hcore) hbatch hhistory hknow
    · exact h.touch hframe (committed_topicStep h hop.before ha hg hcommitted hbatch hhistory)
        hbatch hcommitted.control hknow
  | rolledBack op c removed hframe hbatch hhistory hrollback hop =>
    obtain ⟨-, hwithdrawn⟩ := hwf.rolledBack hop.before hrollback
    refine h.touch hframe (withdrawn_topicStep hwithdrawn ?_ hbatch hhistory) hbatch
      hwithdrawn.control (hop.knowledge_of_none ?_)
    · intro hgone a q ha hg
      -- The subscription that stays has another generation, and so have its entries.
      have ha' : (s.core.shards (shardIndex c.topicId)).activeByTopic.lookup c.topicId = some a := ha
      rw [ha', any_some] at hgone
      rw [hg, hgone]
      rfl
    · intro p hp
      cases hp
  | prepared op after o' hframe hcore hbatch hhistory hop _ hknowledge =>
    exact h.rewrite hframe (hcore ▸ s.core.prepareNotification_rewritten true) hbatch hhistory
      (hop.knowledge_of_none hknowledge)
  | attached op notifier o' _ hframe hcore hbatch hhistory hop hconnection =>
    refine h.rewrite hframe (hcore ▸ s.core.attachUpdateNotifier_rewritten notifier) hbatch hhistory
      (hop.knowledge_of_none ?_)
    exact fun p hp => knowledge?_of_connection (hconnection p hp)
  | pulsed op o' _ hframe hcore hbatch hhistory hop hconnection =>
    refine h.rewrite hframe (hcore ▸ s.core.pulseNotification_rewritten) hbatch hhistory
      (hop.knowledge_of_none ?_)
    exact fun p hp => knowledge?_of_connection (hconnection p hp)
  | planned op result _ hframe hplan hbatch hhistory hop =>
    refine h.planned hframe hplan hbatch hhistory (hop.knowledge_of_none ?_)
    intro p hp
    cases hp
  | driven op attempt after succeeded o' hframe hcore hbatch hhistory hop _ hknowledge =>
    exact h.rewrite hframe (hcore ▸ (s.core.finishNotificationAttempt_spec attempt succeeded).1)
      hbatch hhistory (hop.knowledge_of_none hknowledge)
  | disconnected t result hframe hbatch hhistory hdisconnect hops =>
    rcases (hwf.core.disconnected hdisconnect).2 with hcore | hwithdrawn
    · exact h.rewrite hframe (.of_eq hcore) hbatch hhistory (.of_eq hops)
    · refine h.touch hframe (withdrawn_topicStep hwithdrawn ?_ hbatch hhistory) hbatch
        hwithdrawn.control (.of_eq hops)
      intro hgone
      cases hgone
  | detached hcore hbatch hhistory hops hframe =>
    rcases hframe with hframe | ⟨hstored, -⟩
    · exact h.rewrite hframe (hcore ▸ s.core.detachUpdateNotifier_rewritten) hbatch hhistory
        (.of_eq hops)
    · rw [hstored] at hterm
      cases hterm
  | collected batch index remaining hframe hbefore hstage hcore hbatch hhistory hops =>
    obtain ⟨-, hcontrol, -⟩ := collectShard_wf (i := index) hwf.core batch.updates
    obtain ⟨taken, htaken, hcollected⟩ := collectShard_collected hwf.core index batch.updates
    rw [← hcore] at hcontrol hcollected
    rw [htaken] at hbatch
    exact h.collected hframe hbefore hstage hcollected hcontrol hbatch hhistory (.of_eq hops)
  | completing batch remaining outcome ticketError hframe hbefore hstage _ hcore hbatch hhistory
      hops =>
    refine h.of_steps ?_ ?_ ?_ hframe.nextGeneration.ge (.of_eq hops)
    · intro t
      rw [view_of_data (hcore ▸ SameData.refl _) (by rw [hbatch, hbefore]; rfl) hhistory t]
      exact .same
    · rw [hcore, h.running, hbefore, hbatch]
      rfl
    · intro batch' hbatch'
      rw [hbatch] at hbatch'
      cases hbatch'
      refine ⟨(h.batch batch hbefore).topics, ?_⟩
      intro shards hshards
      cases hshards
  | mismatched batch error hframe hbefore hcheck => exact absurd hcheck (h.not_mismatched hbefore error)
  | abandoned batch op o' hframe hbefore hempty hcore hbatch hhistory hop hconnection =>
    have hrunning := h.running
    rw [hbefore, map_some] at hrunning
    refine h.ended hframe hbefore hempty (hcore ▸ s.core.abortEmptyRefresh_data _) ?_ hbatch
      hhistory (hop.knowledge_of_none ?_)
    · rw [hcore, (abortEmptyRefresh_spec hrunning).running]
      rfl
    · exact fun p hp => knowledge?_of_connection (hconnection p hp)
  | completed batch updates update outcome ticketError hframe hbefore hstage hupdates hcomplete
      hbatch hhistory hops =>
    obtain ⟨core', heq, -, hcontrol, -⟩ := completeUpdate_spec hwf.core outcome update
    rw [hcomplete] at heq
    cases heq
    exact h.completed hwf hframe hbefore hstage hupdates hcomplete hcontrol hbatch hhistory
      (.of_eq hops)
  | refreshed batch outcome ticketError op o' hframe hbefore hstage hempty hcore hbatch hhistory hop
      hconnection =>
    have hrunning := h.running
    rw [hbefore, map_some] at hrunning
    refine h.ended hframe hbefore hempty (hcore ▸ s.core.finishRefresh_data _ _) ?_ hbatch
      hhistory (hop.knowledge_of_none ?_)
    · rw [hcore]
      rcases finishRefresh_spec hrunning ticketError with ⟨-, heq⟩ | ⟨-, hprepared⟩
      · rw [heq]
        rfl
      · rw [hprepared.running]
        rfl
    · exact fun p hp => knowledge?_of_connection (hconnection p hp)
  | closing next gateOpen hnext hframe hbatch hhistory hops =>
    have hcore : Rewritten s.core s'.core ∨ s'.core = { s.core with lifecycle := .closing } := by
      rcases hnext with ⟨-, -, heq⟩ | ⟨-, -, heq⟩
      · exact .inl (.of_eq heq)
      · exact .inr heq
    refine h.unseen ?_ hbatch ?_ hframe.nextGeneration.ge (.of_eq hops)
    · intro t
      rcases hcore with hcore | hcore
      · exact view_of_data hcore.data (by rw [hbatch]) hhistory t
      · refine view_congr ?_ ?_ (by rw [hbatch]) hhistory
        · rw [hcore]
          rfl
        · rw [hcore]
          rfl
    · rcases hcore with hcore | hcore
      · exact hcore.running
      · rw [hcore]
  | cleared _ _ _ hclearing | resetPending _ _ _ hclearing | resetDeliverable _ hclearing
  | resetReady hclearing | finished hclearing =>
    rw [hclearing] at hterm
    cases hterm
  | foreignActive _ _ _ hframe hcore hbatch hhistory hops
  | foreignQueued _ _ _ hframe hcore hbatch hhistory hops =>
    refine h.unseen (fun t => view_congr ?_ ?_ (by rw [hbatch]) hhistory) hbatch ?_
      hframe.nextGeneration.ge (.of_eq hops) <;> rw [hcore] <;> rfl
  | foreignGeneration hframe hcore hbatch hhistory hops =>
    refine h.unseen (view_of_data (hcore ▸ SameData.refl _) (by rw [hbatch]) hhistory) hbatch ?_
      ?_ (.of_eq hops)
    · rw [hcore]
    · rw [hframe.nextGeneration]
      exact Nat.le_succ _
  | aborted _ hsection => exact absurd hsection hwf.no_abort

-- ---- Runs.

/-- A new server. -/
theorem Ordered.init (activeQuota queuedUpdateQuota : Quota) (nextGeneration : Nat) :
    Ordered (State.init activeQuota queuedUpdateQuota nextGeneration : State V N) where
  topics := by
    intro t
    refine ⟨?_, ?_, ?_, ?_, ?_, ?_, List.Pairwise.nil, List.Pairwise.nil, ?_, ?_, ?_⟩
    · intro a b q ha
      cases ha
    · intro a b q ha
      cases ha
    · intro b q hq
      cases hq
    · intro u hu
      cases hu
    · intro r hr
      cases hr
    · intro a r ha
      cases ha
    · intro b q hq
      cases hq
    · intro u hu
      cases hu
    · intro a r ha
      cases ha
  running := rfl
  batch := by
    intro batch hbatch
    cases hbatch
  usedBelow := by
    rintro t g (⟨a, ha, -⟩ | ⟨r, hr, -⟩)
    · cases ha
    · cases hr
  unreserved := by
    intro k o c ho
    cases ho
  observed := by
    intro k o c n ho
    cases ho

/-- The records of one connection, newest first. -/
def connectionRecords (t : TopicId) (g : ConnectionGeneration) (records : List UpdateRecord) :
    List UpdateRecord :=
  records.filter fun r => decide (r.topicId = t) && decide (r.generation = g)

/-- The last sequence accepted for a connection. -/
def History.lastAccepted (history : History) (t : TopicId) (g : ConnectionGeneration) :
    Option Nat :=
  (connectionRecords t g history.accepted).head?.map (·.sequence)

/-- The records of a topic. -/
theorem mem_recordsOf {q : QueuedUpdate} {records : List UpdateRecord} :
    q ∈ recordsOf t records ↔ ⟨t, q.connectionGeneration, q.sequence⟩ ∈ records := by
  constructor
  · intro h
    obtain ⟨r, hr, rfl⟩ := List.mem_map.mp h
    obtain ⟨hr, ht⟩ := mem_filter.mp hr
    rw [← of_decide_eq_true ht]
    exact hr
  · intro h
    exact List.mem_map.mpr ⟨_, mem_filter.mpr ⟨h, decide_eq_true rfl⟩, rfl⟩

/-- Within one connection the records are strictly decreasing from the newest on. -/
theorem connectionRecords_sorted {records : List UpdateRecord}
    (h : (recordsOf t records).Pairwise Newer) (g : ConnectionGeneration) :
    ((connectionRecords t g records).map (·.sequence)).Pairwise (· > ·) := by
  have hfilter : connectionRecords t g records =
      (records.filter (·.topicId = t)).filter (·.generation = g) := by
    rw [connectionRecords, List.filter_filter]
    congr 1
    funext r
    exact Bool.and_comm ..
  have hnewer := List.Pairwise.filter (fun r : UpdateRecord => decide (r.generation = g))
    (pairwise_map.mp h)
  rw [hfilter, pairwise_map]
  refine hnewer.imp_of_mem ?_
  intro r r' hr hr' hlt
  have hg := of_decide_eq_true (mem_filter.mp hr).2
  have hg' := of_decide_eq_true (mem_filter.mp hr').2
  exact hlt (hg.trans hg'.symm)

/-- The last accepted record is an accepted one, and the highest of its connection. -/
theorem lastAccepted_spec {history : History} {g : ConnectionGeneration} {n : Nat}
    (hsorted : (recordsOf t history.accepted).Pairwise Newer)
    (h : history.lastAccepted t g = some n) : ⟨g, n⟩ ∈ recordsOf t history.accepted ∧
      ∀ r ∈ recordsOf t history.accepted, r.connectionGeneration = g → r.sequence ≤ n := by
  have hdecreasing := connectionRecords_sorted hsorted g
  unfold History.lastAccepted at h
  cases hrecords : connectionRecords t g history.accepted with
  | nil =>
    rw [hrecords] at h
    cases h
  | cons r rest =>
    rw [hrecords] at h hdecreasing
    cases h
    have hmem : ∀ x, x ∈ r :: rest ↔ x ∈ history.accepted ∧ x.topicId = t ∧ x.generation = g := by
      intro x
      rw [← hrecords, connectionRecords, mem_filter, Bool.and_eq_true, decide_eq_true_eq,
        decide_eq_true_eq]
    obtain ⟨haccepted, rfl, rfl⟩ := (hmem r).mp mem_cons_self
    refine ⟨mem_recordsOf.mpr haccepted, ?_⟩
    intro q hq hg
    have hrest := (hmem ⟨r.topicId, q.connectionGeneration, q.sequence⟩).mpr
      ⟨mem_recordsOf.mp hq, rfl, hg⟩
    rcases mem_cons.mp hrest with heq | hrest
    · exact (congrArg UpdateRecord.sequence heq).le
    · rw [map_cons, pairwise_cons] at hdecreasing
      exact (hdecreasing.1 _ (List.mem_map_of_mem hrest)).le

/-- Where the last accepted update of a connection is. -/
theorem Ordered.lastUpdate (h : Ordered s) {a : ActiveSubscription V} {n : Nat}
    (ha : s.core.active? t = some a) (hlast : s.history.lastAccepted t a.generation = some n) :
    ⟨t, a.generation, n⟩ ∈ s.history.delivered ∨ ⟨t, a.generation, n⟩ ∈ s.history.observed ∨
      ∃ b, s.core.queued? t b = some ⟨a.generation, n⟩ ∧
        (∀ b' q, s.core.queued? t b' = some q → q.sequence ≤ n) ∧
        SlotHolds (s.view t).taken a b ⟨a.generation, n⟩ := by
  have ht := h.topics t
  obtain ⟨haccepted, hmax⟩ := lastAccepted_spec ht.acceptedOrder hlast
  rcases ht.last a ⟨a.generation, n⟩ ha haccepted rfl hmax with hd | ho | ⟨b, hb⟩
  · exact .inl (mem_recordsOf.mp hd)
  · exact .inr (.inl (mem_recordsOf.mp ho))
  · refine .inr (.inr ⟨b, hb, fun b' q hq => ?_, ht.slot a b _ ha hb⟩)
    exact hmax q (ht.queued b' q hq) (ht.generation a b' q ha hq)

section

variable [BEq V] [Inhabited V] {activeQuota queuedUpdateQuota : Quota} {nextGeneration : Nat}

/-- Every open server that is reached is ordered. -/
theorem Ordered.of_opened
    (hs : Reachable State.step (State.init activeQuota queuedUpdateQuota nextGeneration) s)
    (hopen : s.core.lifecycle = .opened) : Ordered s := by
  have hboth := Reachable.invariant
    (I := fun s : State V N => s.core.lifecycle = .opened → Accounted s ∧ Ordered s)
    (by
      intro s action s' hI hstep hopen'
      have heffect := step_effect hstep
      have hopen := heffect.opened hopen'
      obtain ⟨hwf, hordered⟩ := hI hopen
      exact ⟨hwf.step (hwf.resetsEmpty hopen action) heffect, hordered.step hwf hopen heffect⟩)
    (fun _ => ⟨Accounted.init activeQuota queuedUpdateQuota nextGeneration,
      Ordered.init activeQuota queuedUpdateQuota nextGeneration⟩) hs hopen
  exact hboth.2

/-- **No update is lost and none is reordered.** In every state reachable on an open
server the last accepted sequence of a committed connection was delivered, was the
value observed at connect, or is the latest pending one, with its slot resident or in
flight with the batch of the running refresh; a batch has at most one update of a topic;
and the sequences delivered for a connection increase strictly. -/
theorem no_lost_update
    (hs : Reachable State.step (State.init activeQuota queuedUpdateQuota nextGeneration) s)
    (hopen : s.core.lifecycle = .opened) :
    (∀ t a n, s.core.active? t = some a → a.committed = true →
      s.history.lastAccepted t a.generation = some n →
      ⟨t, a.generation, n⟩ ∈ s.history.delivered ∨ ⟨t, a.generation, n⟩ ∈ s.history.observed ∨
      ∃ b, s.core.queued? t b = some ⟨a.generation, n⟩ ∧
        (∀ b' q, s.core.queued? t b' = some q → q.sequence ≤ n) ∧
        ((∃ value, a.values b = .resident ⟨a.generation, n, value⟩) ∨
          (a.values b = .inFlight a.generation n ∧ ∃ batch u, s.batch = some batch ∧
              s.core.refresh.phase = .refreshing batch.plan.refreshId ∧ u ∈ batch.updates ∧
              u.topicId = t ∧ u.connectionGeneration = a.generation ∧ u.sequence = n ∧
              u.buffer = b))) ∧
    (∀ batch, s.batch = some batch → (batch.updates.map (·.topicId)).Nodup) ∧
    ∀ t g, ((connectionRecords t g s.history.delivered).map (·.sequence)).Pairwise (· > ·) := by
  have h := Ordered.of_opened hs hopen
  refine ⟨?_, fun batch hbatch => (h.batch batch hbatch).topics, ?_⟩
  · intro t a n ha _ hlast
    refine (h.lastUpdate ha hlast).imp_right (Or.imp_right fun ⟨b, hb, hmax, hslot⟩ => ?_)
    refine ⟨b, hb, hmax, ?_⟩
    rcases hslot with ⟨versioned, hslot, hg, hn⟩ | ⟨hslot, u, hu, hrecord, hbuffer⟩
    · left
      cases versioned
      cases hg
      cases hn
      exact ⟨_, hslot⟩
    · right
      refine ⟨hslot, ?_⟩
      obtain ⟨hmem, htopic⟩ := mem_filter.mp hu
      obtain ⟨hgeneration, hsequence⟩ := QueuedUpdate.mk.inj hrecord
      cases hbatch : s.batch with
      | none =>
        rw [hbatch] at hmem
        cases hmem
      | some batch =>
        rw [hbatch] at hmem
        have hrunning := h.running
        rw [hbatch, map_some] at hrunning
        exact ⟨batch, u, rfl, s.core.refresh.phase_of_running hrunning, hmem,
          of_decide_eq_true htopic, hgeneration, hsequence, hbuffer⟩
  · intro t g
    exact connectionRecords_sorted (h.topics t).deliveredOrder g

end

/-- A value is in flight with a refresh when a newer one is published. -/
def overtakenRun : List (Action Nat Unit) :=
  List.flatten [publishRun, .replicate 2 (.advance 2 .proceed),
    [.enterRequest 3 .planRefresh, .advance 3 .proceed, .collect],
    [.enterPublish 4 ⟨⟨1⟩, ⟨1, Nat.one_ne_zero⟩⟩ 6], .replicate 3 (.advance 4 .proceed)]

/-- The overtaken value stays with the batch and the newer one is the pending one. -/
theorem no_lost_update_overtakenRun :
    ∃ s : State Nat Unit, run State.step (State.init ⟨3, 8⟩ ⟨0, 8⟩ 1) overtakenRun = some s ∧
      s.core.lifecycle = .opened ∧ s.history.lastAccepted ⟨1⟩ ⟨1, Nat.one_ne_zero⟩ = some 1 ∧
      (batchUpdates s.batch).map (·.sequence) = [0] ∧
      ((batchUpdates s.batch).map (·.topicId)).Nodup ∧
      ∃ b, s.core.queued? ⟨1⟩ b = some ⟨⟨1, Nat.one_ne_zero⟩, 1⟩ := by
  have hrun : (run State.step (State.init ⟨3, 8⟩ ⟨0, 8⟩ 1) overtakenRun).any (fun s =>
      decide (s.core.lifecycle = .opened ∧
        s.history.lastAccepted ⟨1⟩ ⟨1, Nat.one_ne_zero⟩ = some 1 ∧
        (batchUpdates s.batch).map (·.sequence) = [0] ∧ s.history.delivered = [] ∧
        s.history.observed = [] ∧ s.batch.isSome = true ∧
        (s.core.active? ⟨1⟩).any (fun a => a.committed && a.generation.raw == 1) = true)) =
      true := by
    decide +kernel
  obtain ⟨s, hs, hcond⟩ := (Option.any_eq_true ..).mp hrun
  obtain ⟨hopen, hlast, hbatch, hd, ho, hsome, hactive⟩ := of_decide_eq_true hcond
  obtain ⟨a, ha, hcommitted⟩ := (Option.any_eq_true ..).mp hactive
  rw [Bool.and_eq_true] at hcommitted
  have hg : a.generation = ⟨1, Nat.one_ne_zero⟩ := ConnectionGeneration.eq_of_raw (eq_of_beq hcommitted.2)
  obtain ⟨hupdate, hnodup, -⟩ := no_lost_update ⟨_, hs⟩ hopen
  obtain ⟨batch, hsome⟩ := isSome_iff_exists.mp hsome
  refine ⟨s, hs, hopen, hlast, hbatch, ?_, ?_⟩
  · rw [hsome]
    exact hnodup batch hsome
  · rcases hupdate ⟨1⟩ a 1 ha hcommitted.1 (hg ▸ hlast) with hmem | hmem | ⟨b, hb, -⟩
    · rw [hd] at hmem
      cases hmem
    · rw [ho] at hmem
      cases hmem
    · exact ⟨b, hg ▸ hb⟩

end Xlfn.Subscription
