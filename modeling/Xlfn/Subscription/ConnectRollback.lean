import Xlfn.Subscription.CatalogInvariant
import Xlfn.Subscription.Connect
import Xlfn.Subscription.Invariant
import Xlfn.Subscription.Lifecycle
import Xlfn.Subscription.Topics

/-!
# Xlfn — what a failed connection leaves behind

A call holds at each stage what it has acquired by then (`Holds`): its entry, then its
row in the data plane, then its subscription. The rollback gives them back, and the
invariant says that nothing else has moved.
-/

namespace Xlfn.Subscription

open SubscriptionCatalog

open Xlfn.Lib Xlfn.Kernel ConnectStage PublishCore SubscriptionEntry ConnectSystem ConnectFailure

-- ---- Tables with the same rows.

/-- The tables of the shards of two cores have the same rows. -/
structure SameTables {V N : Type} (core core' : PublishCore V N) : Prop where
  activeByTopic : ∀ i t,
    (core'.shards i).activeByTopic.lookup t = (core.shards i).activeByTopic.lookup t
  topicById     : ∀ i id, (core'.shards i).topicById.lookup id = (core.shards i).topicById.lookup id
  pending       : ∀ i b t,
    ((core'.shards i).pending b).lookup t = ((core.shards i).pending b).lookup t

section

variable {V N : Type} {slack : Slack} {core core' : PublishCore V N}

/-- Only the topic's own shard has its subscription. -/
theorem CoreWf.lookup_eq (h : CoreWf slack core) (i : ShardIndex) (t : TopicId) :
    (core.shards i).activeByTopic.lookup t = if shardIndex t = i then core.active? t else none := by
  split
  next hi =>
    subst hi
    rfl
  next hi =>
    cases ha : (core.shards i).activeByTopic.lookup t with
    | none => rfl
    | some a => exact absurd (h.active_of_lookup ha).1 hi

/-- **The views determine the tables.** -/
theorem SameTables.of_views (h : CoreWf slack core) (h' : CoreWf slack core')
    (hactive : ∀ t, core'.active? t = core.active? t)
    (hqueued : ∀ t, core'.queued? t = core.queued? t) : SameTables core core' := by
  have hrows : ∀ i t,
      (core'.shards i).activeByTopic.lookup t = (core.shards i).activeByTopic.lookup t := by
    intro i t
    rw [h'.lookup_eq, h.lookup_eq, hactive]
  refine ⟨hrows, ?_, ?_⟩
  · intro i id
    ext t
    rw [(h'.shards i).inverse, (h.shards i).inverse, hrows]
  · intro i b t
    by_cases hi : shardIndex t = i
    · subst hi
      exact congrFun (hqueued t) b
    · have hnone : (core.shards i).activeByTopic.lookup t = none := by
        rw [h.lookup_eq, if_neg hi]
      rw [(h.shards i).pending_none hnone b]
      exact (h'.shards i).pending_none ((hrows i t).trans hnone) b

/-- The views of the topics determine the tables of the shards and the quotas. -/
theorem SameTables.quotas (hsame : SameTables core core') (h : CoreWf slack core)
    (h' : CoreWf slack core') :
    core'.activeQuota.used = core.activeQuota.used ∧
      core'.queuedUpdateQuota.used = core.queuedUpdateQuota.used := by
  have hactive : core'.activeTotal = core.activeTotal :=
    Finset.sum_congr rfl fun i _ => Table.size_congr (hsame.activeByTopic i)
  have hpending : core'.pendingTotal = core.pendingTotal := by
    refine Finset.sum_congr rfl fun i _ => ?_
    rw [pendingCount_eq, pendingCount_eq]
    exact sumBuffers_congr fun b => Table.size_congr (hsame.pending i b)
  constructor
  · rw [h'.active, h.active, hactive]
  · rw [h'.queued, h.queued, hpending]

end

-- ---- The data plane during a call.

section

variable {V N : Type} {slack : Slack} {before core core' : PublishCore V N} {call : ConnectCall}
  {generation : ConnectionGeneration}

/-- No connection has the generation. -/
def FreshGeneration (core : PublishCore V N) (generation : ConnectionGeneration) : Prop :=
  ∀ t a, core.active? t = some a → a.generation ≠ generation

/-- `core` shows every topic what `before` shows it. -/
structure Intact (slack : Slack) (before core : PublishCore V N) : Prop where
  wf     : CoreWf slack core
  active : ∀ t, core.active? t = before.active? t
  queued : ∀ t, core.queued? t = before.queued? t

/-- `core` is `before` with the connection of a call, whose topic was vacant. -/
structure Bound (slack : Slack) (call : ConnectCall) (before : PublishCore V N)
    (generation : ConnectionGeneration) (core : PublishCore V N) : Prop where
  wf          : CoreWf slack core
  vacant      : before.active? call.topicId = none
  own         : ∃ a, core.active? call.topicId = some a ∧ a.id = call.id ∧
    a.generation = generation
  otherActive : ∀ t, t ≠ call.topicId → core.active? t = before.active? t
  otherQueued : ∀ t, t ≠ call.topicId → core.queued? t = before.queued? t
  fresh       : FreshGeneration before generation

/-- The shards alone decide whether the tables are as before. -/
theorem Intact.congr (h : Intact slack before core) (hwf : CoreWf slack core')
    (hs : core'.shards = core.shards) : Intact slack before core' := by
  refine ⟨hwf, ?_, ?_⟩
  · intro t
    rw [← h.active t, active?, hs]
    rfl
  · intro t
    rw [← h.queued t]
    funext b
    rw [queued?, hs]
    rfl

/-- And whether the connection holds its topic. -/
theorem Bound.congr (h : Bound slack call before generation core) (hwf : CoreWf slack core')
    (hs : core'.shards = core.shards) : Bound slack call before generation core' := by
  have hactive : ∀ t, core'.active? t = core.active? t := by
    intro t
    rw [active?, hs]
    rfl
  have hqueued : ∀ t, core'.queued? t = core.queued? t := by
    intro t
    funext b
    rw [queued?, hs]
    rfl
  refine ⟨hwf, h.vacant, ?_, ?_, ?_, h.fresh⟩
  · rw [hactive]
    exact h.own
  · intro t ht
    rw [hactive, h.otherActive t ht]
  · intro t ht
    rw [hqueued, h.otherQueued t ht]

/-- A section at the topic that keeps the connection in place. -/
theorem Bound.touch (h : Bound slack call before generation core) (hwf : CoreWf slack core')
    {a : ActiveSubscription V} {queued : BufferIndex → Option QueuedUpdate}
    (htouches : Touches core core' call.topicId (some a) queued) (hid : a.id = call.id)
    (hgeneration : a.generation = generation) : Bound slack call before generation core' where
  wf := hwf
  vacant := h.vacant
  own := ⟨a, htouches.active, hid, hgeneration⟩
  otherActive t ht := (htouches.otherActive t ht).trans (h.otherActive t ht)
  otherQueued t ht := (htouches.otherQueued t ht).trans (h.otherQueued t ht)
  fresh := h.fresh

/-- **A reservation** binds the call, if the topic was vacant. -/
theorem Intact.reserve (h : Intact slack before core) (hfresh : FreshGeneration before generation)
    (hwf : CoreWf slack core') (hreserved : Reserved core core' call.topicId call.id generation) :
    Bound slack call before generation core' where
  wf := hwf
  vacant := (h.active call.topicId).symm.trans hreserved.vacant
  own := ⟨_, hreserved.touches.active, rfl, rfl⟩
  otherActive t ht := (hreserved.touches.otherActive t ht).trans (h.active t)
  otherQueued t ht := (hreserved.touches.otherQueued t ht).trans (h.queued t)
  fresh := hfresh

/-- A publication for the topic, by whomever, leaves the connection in place. -/
theorem Bound.publish [BEq V] (h : Bound slack call before generation core) (b : BufferIndex)
    (generation' : ConnectionGeneration) (value : V) :
    Bound slack call before generation (core.commitValue b call.topicId generation' value).1 := by
  obtain ⟨hwf, hcase⟩ := commitValue_spec h.wf b call.topicId generation' value
  obtain ⟨a, ha, hid, hgeneration⟩ := h.own
  generalize hcore : (core.commitValue b call.topicId generation' value).1 = core' at hwf hcase ⊢
  generalize (core.commitValue b call.topicId generation' value).2 = outcome at hcase
  cases hcase with
  | refused error heq | duplicate heq =>
    rw [heq]
    exact h
  | overloaded a' ha' heq =>
    obtain rfl : a = a' := Option.some.inj (ha.symm.trans ha')
    have htouches := Touches.setActive core call.topicId a.spent
    rw [← heq] at htouches
    exact h.touch hwf htouches hid hgeneration
  | accepted a' ha' hg hstored =>
    obtain rfl : a = a' := Option.some.inj (ha.symm.trans ha')
    exact h.touch hwf hstored.touches hid hgeneration

/-- A publication of the new generation changes nothing before the reservation. -/
theorem Intact.publish [BEq V] (h : Intact slack before core)
    (hfresh : FreshGeneration before generation) (b : BufferIndex) (t : TopicId) (value : V) :
    Intact slack before (core.commitValue b t generation value).1 := by
  have hrefused : (core.commitValue b t generation value).1 = core := by
    unfold commitValue
    dsimp only
    split
    · rfl
    · next a ha =>
      have hne : a.generation ≠ generation := hfresh t a ((h.active t).symm.trans ha)
      rw [if_pos hne]
  rw [hrefused]
  exact h

/-- The commit never reaches `fail_stop`, and the connection stays. -/
theorem Bound.commit (h : Bound slack call before generation core) (observed : Option Nat) :
    ∃ core' result, core.commitConnection call.topicId generation observed = some (core', result) ∧
      Bound slack call before generation core' := by
  obtain ⟨a, ha, hid, hgeneration⟩ := h.own
  rcases commitConnection_spec h.wf call.topicId generation observed with
    ⟨error, heq⟩ | ⟨core', hasPending, a', heq, ha', hg, hwf, hcommitted, -⟩
  · exact ⟨core, _, heq, h⟩
  · obtain rfl : a = a' := Option.some.inj (ha.symm.trans ha')
    exact ⟨core', _, heq, h.touch hwf hcommitted.touches hid hgeneration⟩

/-- **The rollback of the data plane** gives every topic its view back. -/
theorem Bound.rollback (h : Bound slack call before generation core)
    (hbefore : CoreWf slack before) :
    ∃ core', core.rollbackConnection call.topicId generation call.id = some (core', true) ∧
      Intact slack before core' := by
  obtain ⟨a, ha, hid, hgeneration⟩ := h.own
  have hown : ∀ t' a', (core.shards (shardIndex call.topicId)).activeByTopic.lookup t' = some a' →
      a'.generation = generation → t' = call.topicId ∧ a'.id = call.id := by
    intro t' a' ha' hg
    have hview := (h.wf.active_of_lookup ha').2
    by_cases ht : t' = call.topicId
    · subst ht
      obtain rfl : a = a' := Option.some.inj (ha.symm.trans hview)
      exact ⟨rfl, hid⟩
    · rw [h.otherActive t' ht] at hview
      exact absurd hg (h.fresh t' a' hview)
  obtain ⟨core', heq, hwf, hwithdrawn⟩ := rollbackConnection_withdrawn h.wf hown
  have hgone : ((core.shards (shardIndex call.topicId)).activeByTopic.lookup call.topicId).any
      (·.generation = generation) = true := by
    change (core.active? call.topicId).any _ = true
    rw [ha]
    exact decide_eq_true hgeneration
  rw [hgone] at heq hwithdrawn
  have htouches := hwithdrawn.touches
  rw [if_pos rfl] at htouches
  refine ⟨core', heq, hwf, ?_, ?_⟩
  · intro t
    by_cases ht : t = call.topicId
    · rw [ht, htouches.active, h.vacant]
    · rw [htouches.otherActive t ht, h.otherActive t ht]
  · intro t
    by_cases ht : t = call.topicId
    · subst ht
      funext b
      rw [hwf.queued_none htouches.active, hbefore.queued_none h.vacant]
    · rw [htouches.otherQueued t ht, h.otherQueued t ht]

end

-- ---- The entry during a call.

/-- The phase of the entry while a ticket is out. -/
def connectingBy (ticket : ConnectionTicket) (reservations : Option NonZeroUsize)
    (commitment : PendingCommitment) : SubscriptionPhase :=
  .connecting reservations ticket.server ticket.connection commitment

/-- The phase of the entry after a commit. -/
def activeBy (ticket : ConnectionTicket) (reservations : Option NonZeroUsize)
    (_ : PendingCommitment) : SubscriptionPhase :=
  .active ticket.server ticket.connection reservations

/-- The phase of the entry after a rollback. -/
def pendingFor (server : ServerGeneration) (reservations : Option NonZeroUsize)
    (commitment : PendingCommitment) : SubscriptionPhase :=
  .pending reservations (some server) commitment

section

variable {S T : Type} [DecidableEq S]

/-- The two catalogs have the same entries. -/
def SameEntries (before catalog : SubscriptionCatalog S T) : Prop :=
  ∀ id, catalog.entries.lookup id = before.entries.lookup id

/-- The entry of the call was pending in `before` and is in `phase` now, with the
reservations and the commitment it had; the other entries are the same. -/
def EntryIn (call : ConnectCall) (before catalog : SubscriptionCatalog S T)
    (phase : Option NonZeroUsize → PendingCommitment → SubscriptionPhase) : Prop :=
  ∃ entry reservations server commitment, before.entries.lookup call.id = some entry ∧
    entry.phase = .pending reservations server commitment ∧ entry.canRemove = false ∧
    ∀ id, catalog.entries.lookup id =
      if id = call.id then some { entry with phase := phase reservations commitment }
      else before.entries.lookup id

variable {call : ConnectCall} {before catalog : SubscriptionCatalog S T}
  {phase phase' : Option NonZeroUsize → PendingCommitment → SubscriptionPhase}

/-- The entry has one phase. -/
theorem EntryIn.unique (h : EntryIn call before catalog phase)
    (h' : EntryIn call before catalog phase') :
    ∃ reservations commitment, phase reservations commitment = phase' reservations commitment := by
  obtain ⟨entry, reservations, server, commitment, hentry, hphase, -, hlookup⟩ := h
  obtain ⟨entry', reservations', server', commitment', hentry', hphase', -, hlookup'⟩ := h'
  obtain rfl : entry = entry' := Option.some.inj (hentry.symm.trans hentry')
  obtain ⟨rfl, -, rfl⟩ : reservations = reservations' ∧ server = server' ∧
      commitment = commitment' := by
    rw [hphase] at hphase'
    injection hphase' with hr hs hc
    exact ⟨hr, hs, hc⟩
  have hboth := (hlookup call.id).symm.trans (hlookup' call.id)
  rw [if_pos rfl, if_pos rfl] at hboth
  injection hboth with heq
  injection heq with _ _ hphases
  exact ⟨reservations, commitment, hphases⟩

variable [TopicMetadata T] {limits : CatalogLimits}

open SubscriptionCatalog in
/-- An update of a pending entry that stays. -/
theorem EntryIn.withEntry {R : Type} {result : R}
    {update : SubscriptionEntry S T → SubscriptionEntry S T × R}
    (h : EntryIn call before catalog phase) (hwf : catalog.Wf limits)
    (hupdate : ∀ (entry : SubscriptionEntry S T) r server c,
      entry.phase = .pending r server c → entry.canRemove = false →
      update { entry with phase := phase r c } = ({ entry with phase := phase' r c }, result))
    (htracks : ∀ (entry : SubscriptionEntry S T) r c,
      ({ entry with phase := phase' r c } : SubscriptionEntry S T).tracksPendingBytes = true →
      ({ entry with phase := phase r c } : SubscriptionEntry S T).tracksPendingBytes = true) :
    ∃ catalog', catalog.withEntry call.id update = some (catalog', some result) ∧
      catalog'.Wf limits ∧ EntryIn call before catalog' phase' := by
  obtain ⟨entry, reservations, server, commitment, hentry, hphase, hkept, hlookup⟩ := h
  have hnow := hlookup call.id
  rw [if_pos rfl] at hnow
  have hu := hupdate entry reservations server commitment hphase hkept
  have ht : Transition ({ entry with phase := phase reservations commitment })
      (update { entry with phase := phase reservations commitment }).1 := by
    rw [hu]
    exact ⟨rfl, rfl, htracks entry reservations commitment⟩
  obtain ⟨catalog', hwith, hwf', hwrote, -⟩ := withEntry_wf hwf hnow ht
  rw [hu] at hwith hwrote
  refine ⟨catalog', hwith, hwf', entry, reservations, server, commitment, hentry, hphase, hkept, ?_⟩
  intro id
  rw [hwrote.lookup]
  split
  · rfl
  · next hne => rw [hlookup, if_neg hne]

variable {update : SubscriptionEntry S T → SubscriptionEntry S T × Bool}

/-- A settlement of a pending entry that stays. -/
theorem EntryIn.settle (h : EntryIn call before catalog phase) (hwf : catalog.Wf limits)
    (hupdate : ∀ (entry : SubscriptionEntry S T) r server c,
      entry.phase = .pending r server c → entry.canRemove = false →
      update { entry with phase := phase r c } = ({ entry with phase := phase' r c }, false))
    (htracks : ∀ (entry : SubscriptionEntry S T) r c,
      ({ entry with phase := phase' r c } : SubscriptionEntry S T).tracksPendingBytes = true →
      ({ entry with phase := phase r c } : SubscriptionEntry S T).tracksPendingBytes = true) :
    ∃ catalog' removed, catalog.settle call.id update = some (catalog', removed) ∧
      catalog'.Wf limits ∧ EntryIn call before catalog' phase' := by
  obtain ⟨catalog', hwith, hkeeps⟩ := h.withEntry hwf hupdate htracks
  exact ⟨catalog', none, by rw [SubscriptionCatalog.settle, hwith]; rfl, hkeeps⟩

omit [DecidableEq S] [TopicMetadata T] in
/-- `connectFrom` refuses, or makes a pending entry a connecting one. -/
theorem connectFrom_spec (resolves : S → Bool) (ticket : ConnectionTicket)
    (entry : SubscriptionEntry S T) :
    (∃ error, entry.connectFrom resolves ticket = (entry, .error error)) ∨
      ∃ reservations server commitment, entry.phase = .pending reservations server commitment ∧
        entry.connectFrom resolves ticket =
          ({ entry with phase := connectingBy ticket reservations commitment }, .ok ticket) := by
  obtain ⟨sourceId, topic, phase⟩ := entry
  unfold connectFrom
  split
  · cases phase with
    | pending reservations existing commitment =>
      simp only [beginConnection]
      split
      · exact .inl ⟨_, rfl⟩
      · exact .inr ⟨reservations, existing, commitment, rfl, rfl⟩
    | connecting _ _ _ _ | active _ _ _ => exact .inl ⟨_, rfl⟩
  · exact .inl ⟨_, rfl⟩

variable (call) in
open SubscriptionCatalog in
/-- **The catalog reservation** changes nothing, or takes the entry of the call. -/
theorem SameEntries.reserve (h : SameEntries before catalog) (hwf : catalog.Wf limits)
    (hkept : ∀ id entry, before.entries.lookup id = some entry → entry.canRemove = false)
    (resolves : S → Bool) (ticket : ConnectionTicket) :
    ∃ catalog' result, catalog.withEntry call.id (connectFrom resolves ticket) =
        some (catalog', result) ∧ catalog'.Wf limits ∧
      ((result = none ∨ ∃ error, result = some (.error error)) ∧ SameEntries before catalog' ∨
        result = some (.ok ticket) ∧ EntryIn call before catalog' (connectingBy ticket)) := by
  cases hentry : catalog.entries.lookup call.id with
  | none =>
    refine ⟨catalog, none, ?_, hwf, .inl ⟨.inl rfl, h⟩⟩
    simp only [withEntry, hentry]
  | some entry =>
    have hbefore : before.entries.lookup call.id = some entry := (h call.id).symm.trans hentry
    rcases connectFrom_spec resolves ticket entry with
      ⟨error, heq⟩ | ⟨reservations, server, commitment, hphase, heq⟩
    · have ht : Transition entry (entry.connectFrom resolves ticket).1 := by
        rw [heq]
        exact ⟨rfl, rfl, id⟩
      obtain ⟨catalog', hwith, hwf', hwrote, -⟩ := withEntry_wf hwf hentry ht
      rw [heq] at hwith hwrote
      refine ⟨catalog', _, hwith, hwf', .inl ⟨.inr ⟨error, rfl⟩, ?_⟩⟩
      intro id
      rw [hwrote.lookup]
      split
      · next hid => rw [hid, hbefore]
      · exact h id
    · have ht : Transition entry (entry.connectFrom resolves ticket).1 := by
        rw [heq]
        refine ⟨rfl, rfl, fun _ => ?_⟩
        rw [tracksPendingBytes, hphase]
      obtain ⟨catalog', hwith, hwf', hwrote, -⟩ := withEntry_wf hwf hentry ht
      rw [heq] at hwith hwrote
      refine ⟨catalog', _, hwith, hwf', .inr ⟨rfl, entry, reservations, server, commitment, hbefore,
        hphase, hkept _ _ hbefore, ?_⟩⟩
      intro id
      rw [hwrote.lookup]
      split
      · rfl
      · exact h id

variable {ticket : ConnectionTicket}

/-- The end of a connection makes its entry active. -/
theorem EntryIn.finish (h : EntryIn call before catalog (connectingBy ticket))
    (hwf : catalog.Wf limits) :
    ∃ catalog', catalog.withEntry call.id (finishConnection ticket) =
        some (catalog', some true) ∧
      catalog'.Wf limits ∧ EntryIn call before catalog' (activeBy ticket) := by
  refine h.withEntry hwf ?_ ?_
  · intro entry r _ c _ _
    simp [finishConnection, connectingBy, activeBy]
  · intro _ _ _ _
    rfl

omit [DecidableEq S] [TopicMetadata T] in
/-- A rollback puts a connecting entry back to pending. -/
theorem rollbackConnection_connecting (ticket : ConnectionTicket) (entry : SubscriptionEntry S T)
    (r : Option NonZeroUsize) (c : PendingCommitment) :
    ({ entry with phase := connectingBy ticket r c } : SubscriptionEntry S T).rollbackConnection
      ticket = ({ entry with phase := pendingFor ticket.server r c }, true) := by
  simp [SubscriptionEntry.rollbackConnection, connectingBy, pendingFor]

omit [DecidableEq S] [TopicMetadata T] in
/-- The server of a pending entry does not decide its removal. -/
theorem canRemove_pendingFor {entry : SubscriptionEntry S T} {r : Option NonZeroUsize}
    {server : Option ServerGeneration} {c : PendingCommitment}
    (hphase : entry.phase = .pending r server c) (server' : ServerGeneration) :
    ({ entry with phase := pendingFor server' r c } : SubscriptionEntry S T).canRemove =
      entry.canRemove := by
  rw [canRemove, canRemove, hphase]
  cases r <;> cases c <;> rfl

/-- **The catalog section of a rollback** makes the entry pending again. -/
theorem EntryIn.rollback (h : EntryIn call before catalog (connectingBy ticket))
    (hwf : catalog.Wf limits) (hupdate : update = rollbackCatalogConnectionReservation ticket ∨
      update = rollbackPublished ticket) :
    ∃ catalog' removed, catalog.settle call.id update = some (catalog', removed) ∧
      catalog'.Wf limits ∧ EntryIn call before catalog' (pendingFor ticket.server) := by
  refine h.settle hwf ?_ fun _ _ _ _ => rfl
  intro entry r server c hphase hkept
  have hremove := (canRemove_pendingFor hphase ticket.server).trans hkept
  rcases hupdate with rfl | rfl
  · rw [rollbackCatalogConnectionReservation, rollbackConnection_connecting, hremove]
  · simp only [rollbackPublished, rollbackConnection_connecting, hremove, Bool.and_false]

/-- A rollback leaves an active entry active. -/
theorem EntryIn.rollback_active (h : EntryIn call before catalog (activeBy ticket))
    (hwf : catalog.Wf limits) : ∃ catalog' removed,
      catalog.settle call.id (rollbackPublished ticket) = some (catalog', removed) ∧
      catalog'.Wf limits ∧ EntryIn call before catalog' (activeBy ticket) := by
  refine h.settle hwf ?_ fun _ _ _ => id
  intro entry r server c _ _
  rfl

end

-- ---- The invariant of a call.

section

variable {S T V N O E : Type} [DecidableEq S] [TopicMetadata T]

/-- **A state in which a call begins.** The parts are those the runtime keeps: the
accounting of the data plane and of the catalog, no removable entry, no live
subscription of an open server without its connection, and generations below the
next one. -/
structure Ready (limits : CatalogLimits) (slack : Slack) (s : ConnectSystem S T V N O E) : Prop where
  called  : s.stage = .called
  unsunk  : s.sink = none
  core    : CoreWf slack s.core
  catalog : s.catalog.Wf limits
  kept    : ∀ id entry, s.catalog.entries.lookup id = some entry → entry.canRemove = false
  live    : s.core.lifecycle = .opened → ∀ t, s.core.active? t = none →
    s.subscriptions.lookup t = none
  issued  : ∀ t a, s.core.active? t = some a → a.generation.raw < s.nextConnectionGeneration

namespace ConnectFailure

/-- The call failed before it had reserved anything. -/
def isRefused : ConnectFailure E → Bool
  | .refused _ => true
  | _ => false

/-- The call failed after its entry had become active. -/
def isPanickedNotifier : ConnectFailure E → Bool
  | .notifierPanicked => true
  | _ => false

/-- A failed rollback does not hide the refusal. -/
@[simp] theorem isRefused_afterRollback (failure : ConnectFailure E) (rollback : Option E) :
    (failure.afterRollback rollback).isRefused = failure.isRefused := by
  cases failure <;> rfl

/-- Nor the panic of a notifier. -/
@[simp] theorem isPanickedNotifier_afterRollback (failure : ConnectFailure E)
    (rollback : Option E) :
    (failure.afterRollback rollback).isPanickedNotifier = failure.isPanickedNotifier := by
  cases failure <;> rfl

end ConnectFailure

/-- The stage is that of a rollback begun by a panic of the notifier. -/
def ConnectStage.isPanicked : ConnectStage V N O E → Bool
  | .rollingBack _ _ failure => failure.isPanickedNotifier
  | .unbound _ _ failure => failure.isPanickedNotifier
  | .disconnecting _ failure => failure.isPanickedNotifier
  | .failed failure => failure.isPanickedNotifier
  | _ => false

namespace ConnectSystem

variable (slack : Slack) (call : ConnectCall) (before s : ConnectSystem S T V N O E)

/-- The call holds nothing of the data plane. -/
structure Undone : Prop where
  core          : Intact slack before.core s.core
  subscriptions : ∀ t, s.subscriptions.lookup t = before.subscriptions.lookup t

/-- The call has its connection, and may have its subscription. -/
structure Holding (generation : ConnectionGeneration) : Prop where
  core          : Bound slack call before.core generation s.core
  idle          : before.subscriptions.lookup call.topicId = none
  subscriptions : ∀ t, t ≠ call.topicId →
    s.subscriptions.lookup t = before.subscriptions.lookup t

/-- Before it reserves a publication the call has not seen the server open unless it
was open from the start. -/
def OpenedFrom : Prop := s.core.lifecycle = .opened → before.core.lifecycle = .opened

/-- The entry of a call that is rolling back. -/
def EntryFor (ticket : ConnectionTicket) (failure : ConnectFailure E) : Prop :=
  failure.isRefused = false ∧ ticket.server = call.server ∧
    if failure.isPanickedNotifier then EntryIn call before.catalog s.catalog (activeBy ticket)
    else EntryIn call before.catalog s.catalog (connectingBy ticket)

/-- The entries after a call has failed. -/
def EntryAfter (failure : ConnectFailure E) : Prop :=
  if failure.isRefused then SameEntries before.catalog s.catalog
  else if failure.isPanickedNotifier then
    ∃ ticket, EntryIn call before.catalog s.catalog (activeBy ticket)
  else EntryIn call before.catalog s.catalog (pendingFor call.server)

/-- The call has its connection, and its entry is connecting. -/
def Attempting (ticket : ConnectionTicket) : Prop :=
  Holding slack call before s ticket.connection ∧ ticket.server = call.server ∧
    EntryIn call before.catalog s.catalog (connectingBy ticket)

/-- What each stage holds. -/
def Holds : ConnectStage V N O E → Prop
  | .called =>
    Undone slack before s ∧ SameEntries before.catalog s.catalog ∧ OpenedFrom before s ∧
      s.nextConnectionGeneration = before.nextConnectionGeneration
  | .allocated connection =>
    Undone slack before s ∧ SameEntries before.catalog s.catalog ∧ OpenedFrom before s ∧
      FreshGeneration before.core connection
  | .catalogReserved ticket =>
    Undone slack before s ∧ OpenedFrom before s ∧ FreshGeneration before.core ticket.connection ∧
      ticket.server = call.server ∧ EntryIn call before.catalog s.catalog (connectingBy ticket)
  | .publishReserved ticket => Attempting slack call before s ticket
  | .prepared ticket => Attempting slack call before s ticket
  | .subscribed ticket _ => Attempting slack call before s ticket
  | .installed ticket _ => Attempting slack call before s ticket
  | .announcing ticket _ _ => Attempting slack call before s ticket
  | .preparing ticket => Attempting slack call before s ticket
  | .finishing ticket _ => Attempting slack call before s ticket
  | .driving ticket _ =>
    Holding slack call before s ticket.connection ∧ ticket.server = call.server ∧
      EntryIn call before.catalog s.catalog (activeBy ticket)
  | .committed => True
  | .rollingBack ticket false failure =>
    Undone slack before s ∧ failure.isPanickedNotifier = false ∧
      EntryFor call before s ticket failure
  | .rollingBack ticket true failure =>
    Holding slack call before s ticket.connection ∧ EntryFor call before s ticket failure
  | .unbound ticket _ failure => Undone slack before s ∧ EntryFor call before s ticket failure
  | .disconnecting _ failure => Undone slack before s ∧ EntryAfter call before s failure
  | .failed failure => Undone slack before s ∧ EntryAfter call before s failure
  | .aborted => False

/-- **The invariant of a call.** -/
structure Inv (limits : CatalogLimits) : Prop where
  catalog : s.catalog.Wf limits
  sink    : ∀ sink, s.sink = some sink →
    sink.topicId = call.topicId ∧ FreshGeneration before.core sink.connectionGeneration
  stage   : Holds slack call before s s.stage

variable {slack call before s} {s' : ConnectSystem S T V N O E} {limits : CatalogLimits}

omit [TopicMetadata T] in
/-- What a stage knows survives a step that keeps its parts. -/
theorem Holds.mono (hundone : Undone slack before s → Undone slack before s')
    (hholding : ∀ generation, Holding slack call before s generation →
      Holding slack call before s' generation)
    (hcatalog : s'.catalog = s.catalog)
    (hnext : s'.nextConnectionGeneration = s.nextConnectionGeneration)
    (hopened : OpenedFrom before s → OpenedFrom before s') {stage : ConnectStage V N O E}
    (h : Holds slack call before s stage) : Holds slack call before s' stage := by
  have hattempting : ∀ ticket, Attempting slack call before s ticket →
      Attempting slack call before s' ticket := by
    intro ticket ha
    refine ⟨hholding _ ha.1, ha.2.1, ?_⟩
    rw [hcatalog]
    exact ha.2.2
  have hentry : ∀ ticket failure, EntryFor call before s ticket failure →
      EntryFor (E := E) call before s' ticket failure := by
    intro ticket failure he
    unfold EntryFor
    rw [hcatalog]
    exact he
  have hafter : ∀ failure, EntryAfter call before s failure →
      EntryAfter (E := E) call before s' failure := by
    intro failure he
    unfold EntryAfter
    rw [hcatalog]
    exact he
  cases stage with
  | called =>
    refine ⟨hundone h.1, ?_, hopened h.2.2.1, hnext.trans h.2.2.2⟩
    rw [hcatalog]
    exact h.2.1
  | allocated connection =>
    refine ⟨hundone h.1, ?_, hopened h.2.2.1, h.2.2.2⟩
    rw [hcatalog]
    exact h.2.1
  | catalogReserved ticket =>
    refine ⟨hundone h.1, hopened h.2.1, h.2.2.1, h.2.2.2.1, ?_⟩
    rw [hcatalog]
    exact h.2.2.2.2
  | publishReserved ticket | prepared ticket | subscribed ticket subscription
  | installed ticket connection | announcing ticket epoch hasPending | preparing ticket
  | finishing ticket attempt => exact hattempting ticket h
  | driving ticket attempt =>
    refine ⟨hholding _ h.1, h.2.1, ?_⟩
    rw [hcatalog]
    exact h.2.2
  | committed => trivial
  | rollingBack ticket published failure =>
    cases published with
    | false => exact ⟨hundone h.1, h.2.1, hentry ticket failure h.2.2⟩
    | true => exact ⟨hholding _ h.1, hentry ticket failure h.2⟩
  | unbound ticket subscription failure => exact ⟨hundone h.1, hentry ticket failure h.2⟩
  | disconnecting subscription failure | failed failure => exact ⟨hundone h.1, hafter failure h.2⟩
  | aborted => exact h

-- ---- The steps of the call.

/-- The call is admitted or refused. -/
theorem Inv.enter (h : Inv slack call before s limits) (hready : Ready limits slack before)
    (hstage : s.stage = .called) (admitted : Bool) :
    Inv slack call before (s.enter admitted) limits := by
  have hholds := h.stage
  rw [hstage] at hholds
  obtain ⟨hundone, hsame, hopened, hnext⟩ := hholds
  have hfailed : ∀ error next, Inv slack call before
      { s with nextConnectionGeneration := next, stage := .failed (.refused error) } limits :=
    fun error next => ⟨h.catalog, h.sink, ⟨hundone.core, hundone.subscriptions⟩, hsame⟩
  unfold ConnectSystem.enter
  split
  · split
    · next next connection hincrement hnew =>
      refine ⟨h.catalog, h.sink, ⟨hundone.core, hundone.subscriptions⟩, hsame, hopened, ?_⟩
      intro t a ha hgeneration
      have hlt := hready.issued t a ha
      unfold ConnectionGeneration.new at hnew
      split at hnew
      · cases hnew
        rw [hgeneration, ← hnext] at hlt
        exact lt_irrefl _ hlt
      · cases hnew
    · exact hfailed _ _
    · exact hfailed _ s.nextConnectionGeneration
  · exact hfailed _ s.nextConnectionGeneration

/-- The reservation in the catalog. -/
theorem Inv.reserveCatalog (h : Inv slack call before s limits) (hready : Ready limits slack before)
    {connection : ConnectionGeneration} (hstage : s.stage = .allocated connection)
    (resolves : S → Bool) :
    Inv slack call before (s.reserveCatalog call resolves connection) limits := by
  have hholds := h.stage
  rw [hstage] at hholds
  obtain ⟨hundone, hsame, hopened, hfresh⟩ := hholds
  obtain ⟨catalog', result, heq, hwf, hcase⟩ :=
    hsame.reserve call h.catalog hready.kept resolves ⟨call.server, connection⟩
  unfold ConnectSystem.reserveCatalog ConnectSystem.locked
  rw [heq]
  rcases hcase with ⟨rfl | ⟨error, rfl⟩, hsame'⟩ | ⟨rfl, hentry⟩
  · exact ⟨hwf, h.sink, ⟨hundone.core, hundone.subscriptions⟩, hsame'⟩
  · exact ⟨hwf, h.sink, ⟨hundone.core, hundone.subscriptions⟩, hsame'⟩
  · exact ⟨hwf, h.sink, ⟨hundone.core, hundone.subscriptions⟩, hopened, hfresh, rfl, hentry⟩

variable {ticket : ConnectionTicket} {failure : ConnectFailure E} {resolves : S → Bool}

section

variable (h : Inv slack call before s limits)
include h

/-- **The reservation of the publication** takes a vacant topic of an open server. -/
theorem Inv.reservePublication
    (hready : Ready limits slack before) (hstage : s.stage = .catalogReserved ticket) :
    Inv slack call before (s.reservePublication call ticket) limits := by
  have hholds := h.stage
  rw [hstage] at hholds
  obtain ⟨hundone, hopened, hfresh, hserver, hentry⟩ := hholds
  unfold ConnectSystem.reservePublication
  rcases reserveConnection_spec hundone.core.wf call.topicId call.id ticket.connection with
    ⟨error, heq⟩ | ⟨core', heq, hwf, hreserved⟩
  · rw [heq]
    exact ⟨h.catalog, h.sink, ⟨hundone.core, hundone.subscriptions⟩, rfl, rfl, hserver, hentry⟩
  · rw [heq]
    have hbound := hundone.core.reserve hfresh hwf hreserved
    have hlifecycle : s.core.lifecycle = .opened := by
      by_contra hclosed
      unfold reserveConnection ensureOpen at heq
      simp [hclosed] at heq
    refine ⟨h.catalog, h.sink, ⟨hbound, ?_, fun t _ => hundone.subscriptions t⟩, hserver, hentry⟩
    exact hready.live (hopened hlifecycle) call.topicId hbound.vacant

/-- A transaction that holds its topic moves on. -/
theorem Inv.attempting
    (hattempting : Attempting slack call before s ticket) {stage : ConnectStage V N O E}
    (hholds : Attempting slack call before s ticket → Holds slack call before s stage) :
    Inv slack call before (s.moveTo stage) limits := by
  refine ⟨h.catalog, h.sink, ?_⟩
  show Holds slack call before (s.moveTo stage) stage
  refine Holds.mono ?_ ?_ ?_ ?_ ?_ (hholds hattempting)
  · exact fun h => ⟨h.core, h.subscriptions⟩
  · exact fun _ h => ⟨h.core, h.idle, h.subscriptions⟩
  · rfl
  · rfl
  · exact id

/-- A failed transaction starts to roll back. -/
theorem Inv.rollBack
    (hattempting : Attempting slack call before s ticket) (hrefused : failure.isRefused = false)
    (hpanicked : failure.isPanickedNotifier = false) :
    Inv slack call before (s.rollBack ticket true failure) limits := by
  refine h.attempting hattempting fun ha => ⟨ha.1, hrefused, ha.2.1, ?_⟩
  rw [hpanicked]
  exact ha.2.2

/-- The host has answered the reservation of the cleanup. -/
theorem Inv.reserveCleanup (hstage : s.stage = .publishReserved ticket) (refusal : Option E) :
    Inv slack call before (s.reserveCleanup call ticket refusal) limits := by
  have hholds := h.stage
  rw [hstage] at hholds
  cases refusal with
  | some error => exact h.rollBack hholds rfl rfl
  | none =>
    refine ⟨h.catalog, ?_, ⟨hholds.1.core, hholds.1.idle, hholds.1.subscriptions⟩, hholds.2⟩
    intro sink hsink
    cases hsink
    exact ⟨rfl, hholds.1.core.fresh⟩

/-- The host has answered the subscription. -/
theorem Inv.subscribe (hstage : s.stage = .prepared ticket)
    (result : SubscribeResult O E) : Inv slack call before (s.subscribe ticket result) limits := by
  have hholds := h.stage
  rw [hstage] at hholds
  cases result with
  | subscribed subscription => exact h.attempting hholds id
  | rejected error | panicked => exact h.rollBack hholds rfl rfl

/-- The connection is installed with its cleanup. -/
theorem Inv.install [Inhabited V] {subscription : O}
    (hstage : s.stage = .subscribed ticket subscription) (cleanup : Option E) :
    Inv slack call before (s.install call ticket subscription cleanup) limits := by
  have hholds := h.stage
  rw [hstage] at hholds
  unfold ConnectSystem.install
  split
  · refine ⟨h.catalog, h.sink, ⟨hholds.1.core, hholds.1.idle, ?_⟩, hholds.2⟩
    intro t ht
    refine (AList.lookup_insert_ne ht).trans ?_
    exact hholds.1.subscriptions t ht
  · exact h.rollBack hholds rfl rfl

/-- The commit of the publication. -/
theorem Inv.commitPublication
    {connection : InstalledConnection V} (hstage : s.stage = .installed ticket connection)
    (observed : Option Nat) :
    Inv slack call before (s.commitPublication call ticket observed) limits := by
  have hholds := h.stage
  rw [hstage] at hholds
  obtain ⟨core', result, heq, hbound⟩ := hholds.1.core.commit observed
  have hattempting : ∀ stage, Attempting slack call before { s with core := core', stage := stage }
      ticket := fun _ => ⟨⟨hbound, hholds.1.idle, hholds.1.subscriptions⟩, hholds.2⟩
  unfold ConnectSystem.commitPublication
  split
  · exact h.rollBack hholds rfl rfl
  · rw [heq]
    cases result with
    | error error =>
      have hcore : Inv slack call before { s with core := core' } limits := by
        refine ⟨h.catalog, h.sink, ?_⟩
        rw [hstage]
        exact hattempting (.installed ticket connection)
      exact hcore.rollBack (hattempting s.stage) rfl rfl
    | ok hasPending => exact ⟨h.catalog, h.sink, hattempting _⟩

/-- The committed update is announced. -/
theorem Inv.announce {epoch : Nat} {hasPending : Bool}
    (hstage : s.stage = .announcing ticket epoch hasPending) :
    Inv slack call before (s.announce ticket epoch hasPending) limits := by
  have hholds := h.stage
  rw [hstage] at hholds
  unfold ConnectSystem.announce
  split
  · exact h.attempting hholds id
  · exact h.attempting hholds id

end

omit [TopicMetadata T] in
/-- Changes outside the shards do not concern a transaction. -/
theorem Attempting.control (h : Attempting slack call before s ticket) {core : PublishCore V N}
    (hwf : CoreWf slack core) (hshards : core.shards = s.core.shards)
    (stage : ConnectStage V N O E) :
    Attempting slack call before { s with core := core, stage := stage } ticket :=
  ⟨⟨h.1.core.congr hwf hshards, h.1.idle, h.1.subscriptions⟩, h.2⟩

/-- A notification is prepared. -/
theorem Inv.prepare (h : Inv slack call before s limits) (hstage : s.stage = .preparing ticket) :
    Inv slack call before (s.prepare ticket) limits := by
  have hholds := h.stage
  rw [hstage] at hholds
  have hdata := (s.core.prepareNotification_rewritten true).data
  unfold ConnectSystem.prepare
  generalize hresult : s.core.prepareNotification true = result at hdata
  obtain ⟨core', result⟩ := result
  have hwf : CoreWf slack core' := hholds.1.core.wf.sameData hdata
  have hattempting := Attempting.control hholds hwf hdata.shards
  cases result with
  | error error =>
    refine ⟨h.catalog, h.sink, ?_, rfl, (hattempting _).2⟩
    exact (hattempting _).1
  | ok attempt => exact ⟨h.catalog, h.sink, hattempting _⟩

/-- **The catalog section of a commit** finds the ticket of its call. -/
theorem Inv.finishCatalog (h : Inv slack call before s limits)
    {attempt : Option (NotificationAttempt N)} (hstage : s.stage = .finishing ticket attempt) :
    Inv slack call before (s.finishCatalog call ticket attempt) limits := by
  have hholds := h.stage
  rw [hstage] at hholds
  obtain ⟨hholding, hserver, hentry⟩ := hholds
  obtain ⟨catalog', heq, hwf, hactive⟩ := hentry.finish h.catalog
  unfold ConnectSystem.finishCatalog ConnectSystem.locked
  rw [heq]
  cases attempt with
  | none => exact ⟨hwf, h.sink, trivial⟩
  | some attempt =>
    exact ⟨hwf, h.sink, ⟨hholding.core, hholding.idle, hholding.subscriptions⟩, hserver, hactive⟩

/-- The notifier has returned or panicked. -/
theorem Inv.notify (h : Inv slack call before s limits) {attempt : NotificationAttempt N}
    (hstage : s.stage = .driving ticket attempt) (outcome : NotifyOutcome) :
    Inv slack call before (s.notify ticket attempt outcome) limits := by
  have hholds := h.stage
  rw [hstage] at hholds
  obtain ⟨hholding, hserver, hentry⟩ := hholds
  unfold ConnectSystem.notify
  split
  · exact ⟨h.catalog, h.sink, ⟨hholding.core, hholding.idle, hholding.subscriptions⟩, rfl, hserver,
      hentry⟩
  · have hdata := (s.core.finishNotificationAttempt_spec attempt (outcome = .succeeded)).1.data
    generalize s.core.finishNotificationAttempt attempt (outcome = .succeeded) = result at hdata
    obtain ⟨core', completion⟩ := result
    have hbound := hholding.core.congr (hholding.core.wf.sameData hdata) hdata.shards
    cases completion with
    | retry attempt =>
      exact ⟨h.catalog, h.sink, ⟨hbound, hholding.idle, hholding.subscriptions⟩, hserver, hentry⟩
    | finished | failed => exact ⟨h.catalog, h.sink, trivial⟩

/-- **The data plane is undone**, and with it the subscription that was installed. -/
theorem Inv.unbind (h : Inv slack call before s limits) (hready : Ready limits slack before)
    (hstage : s.stage = .rollingBack ticket true failure) :
    Inv slack call before (s.unbind call ticket failure) limits := by
  have hholds := h.stage
  rw [hstage] at hholds
  obtain ⟨hholding, hentry⟩ := hholds
  obtain ⟨core', heq, hintact⟩ := hholding.core.rollback hready.core
  unfold ConnectSystem.unbind
  rw [heq]
  refine ⟨h.catalog, h.sink, ⟨hintact, ?_⟩, hentry⟩
  intro t
  refine (Table.lookup_erase_ite ..).trans ?_
  split
  · next ht => rw [ht, hholding.idle]
  · next ht => exact hholding.subscriptions t ht

/-- The rollback of an entry that was published. -/
theorem EntryFor.settle (h : EntryFor call before s ticket failure) (hwf : s.catalog.Wf limits) :
    ∃ catalog' removed,
      s.catalog.settle call.id (rollbackPublished ticket) =
        some (catalog', removed) ∧ catalog'.Wf limits ∧
      ∀ stage, EntryAfter (E := E) call before { s with catalog := catalog', stage := stage }
        failure := by
  obtain ⟨hrefused, hserver, hentry⟩ := h
  cases hpanicked : failure.isPanickedNotifier with
  | true =>
    rw [hpanicked, if_pos rfl] at hentry
    obtain ⟨catalog', removed, heq, hwf', hactive⟩ := hentry.rollback_active hwf
    refine ⟨catalog', removed, heq, hwf', fun stage => ?_⟩
    rw [EntryAfter, hrefused, hpanicked]
    exact ⟨ticket, hactive⟩
  | false =>
    rw [hpanicked, if_neg Bool.false_ne_true] at hentry
    obtain ⟨catalog', removed, heq, hwf', hpending⟩ := hentry.rollback hwf (.inr rfl)
    refine ⟨catalog', removed, heq, hwf', fun stage => ?_⟩
    rw [EntryAfter, hrefused, hpanicked, ← hserver]
    exact hpending

section

variable (h : Inv slack call before s limits)
include h

/-- The catalog is rolled back after the publication was. -/
theorem Inv.settlePublished {subscription : Option O}
    (hstage : s.stage = .unbound ticket subscription failure) :
    Inv slack call before (s.settlePublished call ticket subscription failure) limits := by
  have hholds := h.stage
  rw [hstage] at hholds
  obtain ⟨hundone, hentry⟩ := hholds
  obtain ⟨catalog', removed, heq, hwf, hafter⟩ := hentry.settle h.catalog
  unfold ConnectSystem.settlePublished ConnectSystem.locked
  rw [heq]
  cases subscription with
  | none =>
    refine ⟨hwf, h.sink, ⟨hundone.core, hundone.subscriptions⟩, ?_⟩
    unfold EntryAfter
    rw [isRefused_afterRollback, isPanickedNotifier_afterRollback]
    exact hafter _
  | some subscription => exact ⟨hwf, h.sink, ⟨hundone.core, hundone.subscriptions⟩, hafter _⟩

/-- The catalog is rolled back where nothing was published. -/
theorem Inv.settleReservation (hstage : s.stage = .rollingBack ticket false failure) :
    Inv slack call before (s.settleReservation call ticket failure) limits := by
  have hholds := h.stage
  rw [hstage] at hholds
  obtain ⟨hundone, hpanicked, hrefused, hserver, hentry⟩ := hholds
  rw [hpanicked, if_neg Bool.false_ne_true] at hentry
  obtain ⟨catalog', removed, heq, hwf, hpending⟩ := hentry.rollback h.catalog (.inl rfl)
  unfold ConnectSystem.settleReservation ConnectSystem.locked
  rw [heq]
  refine ⟨hwf, h.sink, ⟨hundone.core, hundone.subscriptions⟩, ?_⟩
  rw [EntryAfter, hrefused, hpanicked, ← hserver]
  exact hpending

/-- The host is asked to end the subscription. -/
theorem Inv.disconnect {subscription : O}
    (hstage : s.stage = .disconnecting subscription failure) (result : Option E) :
    Inv slack call before (s.moveTo (.failed (failure.afterRollback result))) limits := by
  have hholds := h.stage
  rw [hstage] at hholds
  obtain ⟨hundone, hafter⟩ := hholds
  refine ⟨h.catalog, h.sink, ⟨hundone.core, hundone.subscriptions⟩, ?_⟩
  unfold EntryAfter
  rw [isRefused_afterRollback, isPanickedNotifier_afterRollback]
  exact hafter

-- ---- The steps around the call.

/-- A step of others on the core. -/
theorem Inv.write {core : PublishCore V N}
    (hintact : Intact slack before.core s.core → Intact slack before.core core)
    (hbound : ∀ generation, Bound slack call before.core generation s.core →
      Bound slack call before.core generation core)
    (hlifecycle : core.lifecycle = .opened → s.core.lifecycle = .opened) :
    Inv slack call before { s with core := core } limits := by
  refine ⟨h.catalog, h.sink, ?_⟩
  show Holds slack call before { s with core := core } s.stage
  refine Holds.mono ?_ ?_ ?_ ?_ ?_ h.stage
  · exact fun hu => ⟨hintact hu.core, hu.subscriptions⟩
  · exact fun _ hh => ⟨hbound _ hh.core, hh.idle, hh.subscriptions⟩
  · rfl
  · rfl
  · exact fun hopened hnow => hopened (hlifecycle hnow)

/-- **A publication of the sink** keeps the connection, or is refused. -/
theorem Inv.publish [BEq V] {sink : PublishSink}
    (hsink : s.sink = some sink) (buffer : BufferIndex) (value : V) :
    Inv slack call before (s.publish sink buffer value) limits := by
  obtain ⟨htopic, hfresh⟩ := h.sink sink hsink
  refine h.write (fun hi => hi.publish hfresh buffer sink.topicId value) ?_ ?_
  · intro generation hb
    rw [htopic]
    exact hb.publish buffer sink.connectionGeneration value
  · intro hopened
    rw [← hopened]
    exact (commitValue_lifecycle ..).symm

/-- Such a step outside the shards. -/
theorem Inv.control {core : PublishCore V N}
    (hwf : CoreWf slack s.core → CoreWf slack core) (hshards : core.shards = s.core.shards)
    (hlifecycle : core.lifecycle = .opened → s.core.lifecycle = .opened) :
    Inv slack call before { s with core := core } limits :=
  h.write (fun hi => hi.congr (hwf hi.wf) hshards) (fun _ hb => hb.congr (hwf hb.wf) hshards)
    hlifecycle

/-- **Every step keeps the invariant.** -/
theorem Inv.step [BEq V] [Inhabited V]
    (hready : Ready limits slack before) {action : ConnectAction V N O E}
    (hstep : s.step call resolves action = some s') : Inv slack call before s' limits := by
  unfold ConnectSystem.step at hstep
  split at hstep
  case h_1 hstage => cases hstep; exact h.enter hready hstage _
  case h_2 hstage => cases hstep; exact h.reserveCatalog hready hstage resolves
  case h_3 hstage => cases hstep; exact h.reservePublication hready hstage
  case h_4 hstage => cases hstep; exact h.reserveCleanup hstage _
  case h_5 hstage => cases hstep; exact h.subscribe hstage _
  case h_6 hstage => cases hstep; exact h.install hstage _
  case h_7 hstage =>
    cases hstep
    have hholds := h.stage
    rw [hstage] at hholds
    exact h.rollBack hholds rfl rfl
  case h_8 hstage => cases hstep; exact h.commitPublication hstage _
  case h_9 hstage => cases hstep; exact h.announce hstage
  case h_10 hstage => cases hstep; exact h.prepare hstage
  case h_11 hstage => cases hstep; exact h.finishCatalog hstage
  case h_12 hstage => cases hstep; exact h.notify hstage _
  case h_13 hstage => cases hstep; exact h.unbind hready hstage
  case h_14 hstage => cases hstep; exact h.settleReservation hstage
  case h_15 hstage => cases hstep; exact h.settlePublished hstage
  case h_16 hstage => cases hstep; exact h.disconnect hstage _
  case h_17 =>
    obtain ⟨sink, hsink, rfl⟩ := Option.map_eq_some_iff.mp hstep
    exact h.publish hsink _ _
  case h_18 =>
    cases hstep
    exact h.control (fun hwf => hwf.congr rfl rfl rfl rfl rfl rfl) rfl nofun
  case h_19 =>
    cases hstep
    exact h.control (fun hwf => hwf.congr rfl rfl rfl rfl rfl rfl) rfl id
  case h_20 => cases hstep

end

/-- A ready server is in the invariant. -/
theorem inv_of_ready (h : Ready limits slack before) : Inv slack call before before limits := by
  refine ⟨h.catalog, ?_, ?_⟩
  · intro sink hsink
    rw [h.unsunk] at hsink
    cases hsink
  · rw [h.called]
    exact ⟨⟨⟨h.core, fun _ => rfl, fun _ => rfl⟩, fun _ => rfl⟩, fun _ => rfl, id, rfl⟩

-- ---- Which calls fail after their commit.

/-- Only a panic of the notifier makes a panicked stage. -/
theorem isPanicked_step [BEq V] [Inhabited V] {action : ConnectAction V N O E}
    (hstep : s.step call resolves action = some s') (hsound : s'.stage ≠ .aborted) :
    s'.stage.isPanicked = true ↔ s.stage.isPanicked = true ∨ action = .notify .unwound := by
  unfold step at hstep
  split at hstep
  case h_1 hstage =>
    cases hstep
    rw [hstage]
    unfold enter at hsound ⊢
    repeat' split
    all_goals simp_all [isPanicked, isPanickedNotifier, moveTo]
  case h_2 hstage | h_11 hstage =>
    cases hstep
    rw [hstage]
    first
      | unfold reserveCatalog locked at hsound ⊢
      | unfold finishCatalog locked at hsound ⊢
    split
    · dsimp only
      repeat' split
      all_goals simp [isPanicked, isPanickedNotifier]
    · simp_all [moveTo]
  case h_3 hstage | h_4 hstage | h_5 hstage | h_6 hstage | h_8 hstage | h_9 hstage | h_10 hstage
    | h_12 hstage | h_13 hstage | h_14 hstage =>
    cases hstep
    rw [hstage]
    first
      | unfold reservePublication at hsound ⊢
      | unfold reserveCleanup at hsound ⊢
      | unfold subscribe at hsound ⊢
      | unfold install at hsound ⊢
      | unfold commitPublication at hsound ⊢
      | unfold announce at hsound ⊢
      | unfold prepare at hsound ⊢
      | unfold notify at hsound ⊢
      | unfold unbind at hsound ⊢
      | unfold settleReservation locked at hsound ⊢
    repeat' split
    all_goals simp_all [isPanicked, isPanickedNotifier, moveTo, rollBack]
  case h_7 hstage =>
    cases hstep
    rw [hstage]
    simp [isPanicked, isPanickedNotifier, moveTo, rollBack]
  case h_15 hstage =>
    cases hstep
    rw [hstage]
    unfold settlePublished locked at hsound ⊢
    split
    · dsimp only
      repeat' split
      all_goals simp [isPanicked]
    · simp_all [moveTo]
  case h_16 hstage =>
    cases hstep
    rw [hstage]
    simp [isPanicked, moveTo]
  case h_17 =>
    obtain ⟨sink, -, rfl⟩ := Option.map_eq_some_iff.mp hstep
    simp [publish]
  case h_18 =>
    cases hstep
    simp
  case h_19 =>
    cases hstep
    simp
  case h_20 => cases hstep

/-- No call reaches `fail_stop`. -/
theorem Inv.sound (h : Inv slack call before s limits) : s.stage ≠ .aborted := by
  intro haborted
  have hholds := h.stage
  rw [haborted] at hholds
  exact hholds

/-- A run is panicked exactly if its notifier was. -/
theorem isPanicked_run [BEq V] [Inhabited V] (hready : Ready limits slack before)
    {as : List (ConnectAction V N O E)} (h : Inv slack call before s limits)
    (hrun : run (step call resolves) s as = some s') :
    s'.stage.isPanicked = true ↔ s.stage.isPanicked = true ∨ .notify .unwound ∈ as := by
  induction as generalizing s with
  | nil =>
    cases hrun
    simp
  | cons action as ih =>
    obtain ⟨t, ht, hrest⟩ := Option.bind_eq_some_iff.mp hrun
    have hinv := h.step hready ht
    rw [ih hinv hrest, isPanicked_step ht hinv.sound, List.mem_cons, or_assoc,
      eq_comm (a := action)]

-- ---- The failed call.

/-- **What a failed call has to leave behind.** The quotas, the tables of the shards and
the live subscriptions are those before the call. The entry is pending again, with its
reservations and its commitment; a call that never took its entry leaves the catalog as
it was. -/
structure Restored (call : ConnectCall) (before s : ConnectSystem S T V N O E)
    (failure : ConnectFailure E) : Prop where
  activeQuota       : s.core.activeQuota.used = before.core.activeQuota.used
  queuedUpdateQuota : s.core.queuedUpdateQuota.used = before.core.queuedUpdateQuota.used
  tables            : SameTables before.core s.core
  subscriptions     : ∀ t, s.subscriptions.lookup t = before.subscriptions.lookup t
  entry             :
    if failure.isRefused then SameEntries before.catalog s.catalog
    else EntryIn call before.catalog s.catalog (pendingFor call.server)

/-- A failed call leaves the tables and the counters of the data plane as they were. -/
theorem Inv.undone (h : Inv slack call before s limits) (hready : Ready limits slack before)
    (hfailed : s.stage = .failed failure) : s.core.activeQuota.used = before.core.activeQuota.used ∧
      s.core.queuedUpdateQuota.used = before.core.queuedUpdateQuota.used ∧
      SameTables before.core s.core ∧
      ∀ t, s.subscriptions.lookup t = before.subscriptions.lookup t := by
  have hholds := h.stage
  rw [hfailed] at hholds
  have hintact := hholds.1.core
  have htables := SameTables.of_views hready.core hintact.wf hintact.active hintact.queued
  obtain ⟨hactive, hqueued⟩ := htables.quotas hready.core hintact.wf
  exact ⟨hactive, hqueued, htables, hholds.1.subscriptions⟩

/-- **A failed connection restores what it found**, exactly if the notifier has not
panicked while its commit drove a notification. In that case the commit is rolled back
after the entry has become active, and the rollback leaves an active entry alone. -/
theorem connect_rollback [BEq V] [Inhabited V] (hready : Ready limits slack before)
    {as : List (ConnectAction V N O E)} (hrun : run (step call resolves) before as = some s) :
    s.stage ≠ .aborted ∧ ∀ failure, s.stage = .failed failure →
      (Restored call before s failure ↔ .notify .unwound ∉ as) := by
  have hinv : Inv slack call before s limits :=
    run_invariant (fun _ _ _ hi hs => Inv.step hi hready hs) (inv_of_ready hready) hrun
  refine ⟨hinv.sound, ?_⟩
  intro failure hfailed
  have hpanicked := isPanicked_run hready (inv_of_ready hready) hrun
  rw [hready.called, hfailed] at hpanicked
  simp only [isPanicked, Bool.false_eq_true, false_or] at hpanicked
  rw [← hpanicked]
  have hafter : EntryAfter call before s failure := by
    have hholds := hinv.stage
    rw [hfailed] at hholds
    exact hholds.2
  constructor
  · intro hrestored hnotifier
    have hrefused : failure.isRefused = false := by
      cases failure <;> first | rfl | cases hnotifier
    have hentry := hrestored.entry
    unfold EntryAfter at hafter
    rw [hrefused, if_neg Bool.false_ne_true] at hafter hentry
    rw [hnotifier, if_pos rfl] at hafter
    obtain ⟨ticket, hactive⟩ := hafter
    obtain ⟨reservations, commitment, hphases⟩ := hactive.unique hentry
    cases hphases
  · intro hnotifier
    obtain ⟨hactive, hqueued, htables, hsubscriptions⟩ := hinv.undone hready hfailed
    refine ⟨hactive, hqueued, htables, hsubscriptions, ?_⟩
    unfold EntryAfter at hafter
    rw [if_neg hnotifier] at hafter
    exact hafter

end ConnectSystem

end

namespace ConnectSystem

-- ---- Two calls.

/-- One kind of topic. -/
instance onlyTopic : TopicMetadata Unit where
  identityHash := fun _ => 0
  byteLen      := fun _ => 1

def onlyCall : ConnectCall := ⟨⟨1, Nat.one_ne_zero⟩, ⟨1⟩, ⟨1⟩⟩

def onlyLimits : CatalogLimits := ⟨1, 1, 1⟩

def noSlack : Slack := ⟨0, 0, 0, 0, true⟩

/-- A catalog with one pending entry. -/
def onlyEntry : SubscriptionCatalog Unit Unit :=
  ((new.insertPending onlyLimits () ()).toOption.map Prod.fst).getD .new

/-- An open server with a notifier, before the call. -/
def beforeCall : ConnectSystem Unit Unit Nat Unit Unit Unit where
  core                     :=
    { (PublishCore.new ⟨0, 4⟩ ⟨0, 4⟩ : PublishCore Nat Unit) with
      refresh := (RefreshState.default.attachNotifier ()).2 }
  subscriptions            := ∅
  catalog                  := onlyEntry
  nextConnectionGeneration := 1
  sink                     := none
  stage                    := .called

/-- The catalog of the runs below has one pending entry. -/
theorem insertPending_onlyEntry :
    (new : SubscriptionCatalog Unit Unit).insertPending onlyLimits () () =
      .ok (onlyEntry, ⟨1⟩) := rfl

/-- Their server is ready. -/
theorem beforeCall_ready : Ready onlyLimits noSlack beforeCall where
  called := rfl
  unsunk := rfl
  core := CoreWf.empty rfl rfl rfl rfl rfl fun _ => rfl
  catalog := by
    refine insertPending_wf new_wf ?_ insertPending_onlyEntry
    rintro id entry ⟨⟩
  kept := by
    intro id entry hentry
    have hlookup : onlyEntry.entries.lookup id = if id = ⟨1⟩ then
        some ⟨(), (), .pending (some ⟨1, Nat.one_ne_zero⟩) none .uncommitted⟩ else none :=
      Table.lookup_insert_ite ..
    change onlyEntry.entries.lookup id = some entry at hentry
    rw [hlookup] at hentry
    split at hentry
    · cases hentry
      rfl
    · cases hentry
  live := fun _ _ _ => rfl
  issued := by
    rintro t a ⟨⟩

/-- The connection is installed, and its source has published a value by then. -/
def installedRun : List (ConnectAction Nat Unit Unit Unit) :=
  [.enter true, .reserveCatalog, .reservePublication, .reserveCleanup none,
    .subscribe (.subscribed ()), .install none, .publish .first 7]

/-- The server is closed before the commit. -/
def closedRun : List (ConnectAction Nat Unit Unit Unit) :=
  installedRun ++ [.close, .commitPublication, .unbind, .settle, .disconnect none]

/-- The notifier panics in the commit. -/
def panickedRun : List (ConnectAction Nat Unit Unit Unit) :=
  installedRun ++ [.commitPublication, .announce, .prepare, .finishCatalog, .notify .unwound,
    .unbind, .settle, .disconnect none]

/-- A commit that finds the server closing is rolled back. -/
theorem connect_rollback_closedRun :
    ∃ s, run (step onlyCall fun _ => true) beforeCall closedRun = some s ∧
      s.stage = .failed (.commit .closing) ∧
      Restored onlyCall beforeCall s (.commit .closing) := by
  have hrun : ((run (step onlyCall fun _ => true) beforeCall closedRun).map (·.stage)) =
      some (.failed (.commit .closing)) := rfl
  obtain ⟨s, hs, hfailed⟩ := Option.map_eq_some_iff.mp hrun
  refine ⟨s, hs, hfailed, ?_⟩
  refine ((connect_rollback beforeCall_ready hs).2 _ hfailed).mpr ?_
  simp [closedRun, installedRun]

theorem panicked_commit_keeps_entry : Ready onlyLimits noSlack beforeCall ∧
    ∃ s, run (step onlyCall fun _ => true) beforeCall panickedRun = some s ∧
      s.stage = .failed .notifierPanicked ∧ s.core.active? onlyCall.topicId = none ∧
      (∃ entry, s.catalog.entries.lookup onlyCall.id = some entry ∧
        entry.phase = .active onlyCall.server ⟨1, Nat.one_ne_zero⟩ (some ⟨1, Nat.one_ne_zero⟩)) ∧
      ¬ Restored onlyCall beforeCall s .notifierPanicked := by
  refine ⟨beforeCall_ready, ?_⟩
  have hrun : ((run (step onlyCall fun _ => true) beforeCall panickedRun).map fun s =>
      (s.stage, s.core.active? onlyCall.topicId, s.catalog.entries.lookup onlyCall.id)) =
      some (.failed .notifierPanicked, none, some ⟨(), (),
        .active onlyCall.server ⟨1, Nat.one_ne_zero⟩ (some ⟨1, Nat.one_ne_zero⟩)⟩) := rfl
  obtain ⟨s, hs, hval⟩ := Option.map_eq_some_iff.mp hrun
  simp only [Prod.mk.injEq] at hval
  obtain ⟨hfailed, hvacant, hentry⟩ := hval
  refine ⟨s, hs, hfailed, hvacant, ⟨_, hentry, rfl⟩, ?_⟩
  intro hrestored
  have hafter := hrestored.entry
  rw [if_neg (fun h => by cases h)] at hafter
  obtain ⟨entry, reservations, server, commitment, -, -, -, hlookup⟩ := hafter
  have hboth := hentry.symm.trans (hlookup onlyCall.id)
  rw [if_pos rfl] at hboth
  injection hboth with heq
  injection heq with _ _ hphases
  cases hphases

end ConnectSystem

end Xlfn.Subscription
