import Xlfn.Subscription.Collection

/-!
# Xlfn — accepted values

The history of the data plane remembers which sequences were accepted. The log of a run remembers
the values too. Values move between slots and the batch, and some are dropped; none is ever
changed.

* `State.acceptedBy` — what a step accepts.
-/

namespace Xlfn.Subscription

open Xlfn.Lib Xlfn.Kernel Function List State

variable {V N : Type}

/-- The record of an accepted value. -/
def acceptedValue (sink : PublishSink) (value : V) : CommitOutcome → List (UpdateRecord × V)
  | .accepted sequence _ => [(⟨sink.topicId, sink.connectionGeneration, sequence⟩, value)]
  | _ => []

/-- The value a step accepts: a publication that holds its shard lock commits. -/
def State.acceptedBy [BEq V] (s : State V N) : Action V N → List (UpdateRecord × V)
  | .advance op choice =>
    match s.operations.lookup op with
    | some (.publish sink value (.locked epoch)) =>
      acceptedValue sink value (s.core.commitValue (BufferIndex.fromEpoch epoch) sink.topicId
        sink.connectionGeneration value).2
    | some (.publishBatch sink value _ (.locked epoch)) =>
      if choice = .refuse ∨ s.core.lifecycle ≠ .opened then []
      else
        acceptedValue sink value (s.core.commitValue (BufferIndex.fromEpoch epoch) sink.topicId
          sink.connectionGeneration value).2
    | _ => []
  | _ => []

/-- The values a run accepts, newest first. -/
def acceptedLog [BEq V] [Inhabited V] (s : State V N) : List (Action V N) → List (UpdateRecord × V)
  | [] => []
  | action :: actions =>
    match State.step s action with
    | none => []
    | some s' => acceptedLog s' actions ++ s.acceptedBy action

variable {sink : PublishSink} {value : V}

section

variable [BEq V] {s s' : State V N} {action : Action V N}

/-- What a step that accepts something does to the core and the history. -/
inductive Accepting (s : State V N) (action : Action V N) (s' : State V N) : Prop
  | nothing (hnone : s.acceptedBy action = []) (hhistory : s'.history.accepted = s.history.accepted)
  | value (sink : PublishSink) (value : V) (epoch : Nat)
      (hvalue : s.acceptedBy action = acceptedValue sink value (s.core.commitValue
        (BufferIndex.fromEpoch epoch) sink.topicId sink.connectionGeneration value).2)
      (hcore : s'.core = (s.core.commitValue (BufferIndex.fromEpoch epoch) sink.topicId
        sink.connectionGeneration value).1)
      (hhistory : s'.history = s.history.accept sink (s.core.commitValue
        (BufferIndex.fromEpoch epoch) sink.topicId sink.connectionGeneration value).2)
      (hbatch : s'.batch = s.batch)

theorem stepPublish_accepting {op : Nat} {choice : Choice} {epoch : Nat}
    (hop : s.operations.lookup op = some (.publish sink value (.locked epoch)))
    (h : s.stepPublish op sink value (.locked epoch) = some s') :
    Accepting s (.advance op choice) s' := by
  refine .value sink value epoch ?_ ?_ ?_ ?_
  · simp only [acceptedBy, hop]
  · simp only [stepPublish, stepCommitValue] at h
    split at h <;> cases h <;> rfl
  · simp only [stepPublish, stepCommitValue] at h
    split at h <;> cases h <;> rfl
  · simp only [stepPublish, stepCommitValue] at h
    split at h <;> cases h <;> rfl

theorem stepBatchLocked_accepting {op : Nat} {choice : Choice} {rest : List V} {epoch : Nat}
    (hop : s.operations.lookup op = some (.publishBatch sink value rest (.locked epoch))) :
    Accepting s (.advance op choice) (s.stepBatchLocked op sink value rest epoch choice) := by
  by_cases hrefuse : choice = .refuse
  · refine .nothing ?_ ?_
    · simp only [acceptedBy, hop, if_pos (Or.inl hrefuse)]
    · rw [stepBatchLocked, if_pos hrefuse]
      rfl
  · by_cases hopen : s.core.lifecycle = .opened
    · have hensure : s.core.ensureOpen = .ok () := if_pos hopen
      have hneither : ¬(choice = .refuse ∨ s.core.lifecycle ≠ .opened) := by
        rintro (h | h)
        · exact hrefuse h
        · exact h hopen
      -- The publication goes on in one of five ways, all with the committed core.
      have hafter : ∀ t : State V N, ∀ outcome : CommitOutcome,
          s.stepCommitValue sink value epoch = (t, outcome) →
          (s.stepBatchLocked op sink value rest epoch choice).core = t.core ∧
            (s.stepBatchLocked op sink value rest epoch choice).history = t.history ∧
            (s.stepBatchLocked op sink value rest epoch choice).batch = t.batch := by
        intro t outcome hcommit
        unfold stepBatchLocked
        rw [if_neg hrefuse, hensure]
        dsimp only
        rw [hcommit]
        dsimp only
        split
        · exact ⟨rfl, rfl, rfl⟩
        · split
          · exact ⟨rfl, rfl, rfl⟩
          · split
            · rw [nextValue_eq, withOp_core, withOp_history, withOp_batch]
              exact ⟨rfl, rfl, rfl⟩
            · split <;> exact ⟨rfl, rfl, rfl⟩
      obtain ⟨hcore, hhistory, hbatch⟩ := hafter _ _ rfl
      refine .value sink value epoch ?_ hcore hhistory hbatch
      simp only [acceptedBy, hop, if_neg hneither]
    · have hensure : s.core.ensureOpen = .error .closing := if_neg hopen
      refine .nothing ?_ ?_
      · simp only [acceptedBy, hop, if_pos (Or.inr hopen)]
      · rw [stepBatchLocked, if_neg hrefuse, hensure]
        rfl

theorem accepted_of_effect (h : Effect s action s') (hno : ¬Aborts s) :
    (∃ op choice sink value epoch, action = .advance op choice ∧
      (s.operations.lookup op = some (.publish sink value (.locked epoch)) ∨
        ∃ rest, s.operations.lookup op = some (.publishBatch sink value rest (.locked epoch)))) ∨
      s'.history.accepted = s.history.accepted := by
  cases h
  case published op o o' sink value epoch outcome haction hframe hbatch hvalue hhistory hop hlocked
      hconnection hdue =>
    obtain ⟨choice, rfl⟩ := haction
    left
    rcases hlocked with ⟨v, rfl⟩ | ⟨v, rest, rfl⟩
    · exact ⟨op, choice, sink, v, epoch, rfl, .inl hop.before⟩
    · exact ⟨op, choice, sink, v, epoch, rfl, .inr ⟨rest, hop.before⟩⟩
  case committed observed _ _ result _ _ _ _ hhistory _ _ _ _ =>
    right
    rw [hhistory]
    cases result with
    | error error => rfl
    | ok hasPending => cases observed <;> rfl
  case completed outcome _ _ _ _ _ _ _ hhistory _ =>
    right
    rw [hhistory]
    cases outcome <;> rfl
  case finished hfinish =>
    unfold finishTermination at hfinish
    simp only [Option.bind_eq_bind, Option.bind_eq_some_iff, Option.some.injEq] at hfinish
    obtain ⟨active, -, queued, -, rfl⟩ := hfinish
    exact .inr rfl
  case aborted hsection => exact absurd hsection hno
  all_goals exact .inr (congrArg History.accepted ‹s'.history = s.history›)

/-- **What a step accepts, the history records.** -/
theorem step_accepting [Inhabited V] (h : step s action = some s') (hno : ¬Aborts s) :
    Accepting s action s' := by
  by_cases hlocked : ∃ op choice sink value epoch, action = .advance op choice ∧
      (s.operations.lookup op = some (.publish sink value (.locked epoch)) ∨
        ∃ rest, s.operations.lookup op = some (.publishBatch sink value rest (.locked epoch)))
  · obtain ⟨op, choice, sink, value, epoch, rfl, hop⟩ := hlocked
    unfold step at h
    split at h
    · cases h
    · rcases hop with hop | ⟨rest, hop⟩
      · simp only [hop, Option.bind_some] at h
        exact stepPublish_accepting hop h
      · simp only [hop, Option.bind_some] at h
        cases h
        exact stepBatchLocked_accepting hop
  · refine .nothing ?_ ((accepted_of_effect (step_effect h) hno).resolve_left hlocked)
    cases action with
    | advance op choice =>
      simp only [acceptedBy]
      split
      · next hop => exact absurd ⟨op, choice, _, _, _, rfl, .inl hop⟩ hlocked
      · next hop => exact absurd ⟨op, choice, _, _, _, rfl, .inr ⟨_, hop⟩⟩ hlocked
      · rfl
    | _ => rfl

end

-- ---- Values are never changed.

/-- **Every value at hand is an accepted one**, under its own sequence. -/
structure Valued (log : List (UpdateRecord × V)) (s : State V N) : Prop where
  records : log.map (·.1) = s.history.accepted
  slots   : ∀ t a b versioned, s.core.active? t = some a → a.values b = .resident versioned →
    (⟨t, versioned.generation, versioned.sequence⟩, versioned.value) ∈ log
  batch   : ∀ u ∈ batchUpdates s.batch,
    (⟨u.topicId, u.connectionGeneration, u.sequence⟩, u.value) ∈ log

/-- A value that is resident now was resident in the same place, or came with `u`. -/
def ResidentFrom (came : List (RtdUpdate V)) (core core' : PublishCore V N) : Prop :=
  ∀ t a' b versioned, core'.active? t = some a' → a'.values b = .resident versioned →
    (∃ a, core.active? t = some a ∧ a.values b = .resident versioned) ∨
      ∃ u ∈ came, u.topicId = t ∧ PublishCore.residentOf u = .resident versioned

variable {came : List (RtdUpdate V)} {core core' : PublishCore V N}

theorem ResidentFrom.of_shards (h : core'.shards = core.shards) : ResidentFrom came core core' := by
  intro t a' b versioned ha' hslot
  refine .inl ⟨a', ?_, hslot⟩
  unfold PublishCore.active? at ha' ⊢
  rwa [← h]

theorem ResidentFrom.of_touches {t : TopicId} {active : Option (ActiveSubscription V)}
    {queued : BufferIndex → Option QueuedUpdate} (h : Touches core core' t active queued)
    (hactive : ∀ a' b versioned, active = some a' → a'.values b = .resident versioned →
      (∃ a, core.active? t = some a ∧ a.values b = .resident versioned) ∨
        ∃ u ∈ came, u.topicId = t ∧ PublishCore.residentOf u = .resident versioned) :
    ResidentFrom came core core' := by
  intro t' a' b versioned ha' hslot
  by_cases ht : t' = t
  · subst ht
    exact hactive a' b versioned (h.active.symm.trans ha') hslot
  · rw [h.otherActive t' ht] at ha'
    exact .inl ⟨a', ha', hslot⟩

theorem ResidentFrom.of_withdrawn {t : TopicId} {keep : QueuedUpdate → Bool} {gone : Bool}
    (h : Withdrawn core core' t keep gone) : ResidentFrom came core core' := by
  refine .of_touches h.touches ?_
  intro a' b versioned ha' hslot
  cases gone with
  | true => cases ha'
  | false => exact .inl ⟨a', ha', hslot⟩

/-- A slot that is given back holds the value of the update, or what it held. -/
theorem returned_values {a : ActiveSubscription V} {outcome : RefreshOutcome} {u : RtdUpdate V}
    {b : BufferIndex} {versioned : VersionedRtdValue V}
    (h : (a.returned outcome u).values b = .resident versioned) :
    a.values b = .resident versioned ∨ PublishCore.residentOf u = .resident versioned := by
  unfold ActiveSubscription.returned at h
  split at h
  · by_cases hb : b = u.buffer
    · subst hb
      right
      have hset : (a.setSlot u.buffer (returnedSlot outcome u a)).values u.buffer =
          returnedSlot outcome u a := update_self ..
      rw [hset] at h
      unfold returnedSlot at h
      split at h
      · split at h
        · exact h
        · cases h
      · exact h
    · have hset : (a.setSlot u.buffer (returnedSlot outcome u a)).values b = a.values b :=
        update_of_ne hb ..
      rw [hset] at h
      exact .inl h
  · exact .inl h

/-- **Completing an update** brings its value back and no other. -/
theorem completeUpdate_resident {slack : Slack} (h : CoreWf slack core) {outcome : RefreshOutcome}
    {u : RtdUpdate V} (heq : core.completeUpdate outcome u = some core') :
    ResidentFrom [u] core core' := by
  have hrestored : ResidentFrom [u] core (core.restoreSlot u (returnedSlot outcome u)) := by
    refine .of_touches (restoreSlot_touches core outcome u) ?_
    intro a' b versioned ha' hslot
    obtain ⟨a, ha, rfl⟩ := Option.map_eq_some_iff.mp ha'
    rcases returned_values hslot with hold | hnew
    · exact .inl ⟨a, ha, hold⟩
    · exact .inr ⟨u, mem_cons_self, rfl, hnew⟩
  cases outcome with
  | failed =>
    cases heq
    exact hrestored
  | delivered =>
    obtain ⟨hwf, -, -⟩ := restoreSlot_wf h u (returnedSlot .delivered u)
    obtain ⟨core₂, core₃, heq', -, hdrained, hlast⟩ := retirePendingThrough_spec hwf u.topicId
      u.connectionGeneration u.sequence
    have hsame : core₃ = core' := Option.some.inj (heq'.symm.trans heq)
    subst hsame
    have hactive : ∀ t, core₂.active? t =
        (core.restoreSlot u (returnedSlot .delivered u)).active? t := by
      intro t
      by_cases ht : t = u.topicId
      · subst ht
        exact hdrained.touches.active
      · exact hdrained.touches.otherActive t ht
    rcases hlast with ⟨-, rfl⟩ | ⟨a, ha, rfl⟩
    · intro t a' b versioned ha' hslot
      rw [hactive] at ha'
      exact hrestored t a' b versioned ha' hslot
    · have htouches := Touches.setActive core₂ u.topicId (retireSlots
        (core₂.shards (shardIndex u.topicId)) u.topicId u.connectionGeneration u.sequence a)
      intro t a' b versioned ha' hslot
      by_cases ht : t = u.topicId
      · subst ht
        cases htouches.active.symm.trans ha'
        refine hrestored u.topicId a b versioned ha ?_
        change (if PublishCore.slotRetired _ _ _ _ _ b then _ else _) = _ at hslot
        split at hslot
        · cases hslot
        · exact hslot
      · rw [htouches.otherActive t ht, hactive] at ha'
        exact hrestored t a' b versioned ha' hslot

section

variable {s s' : State V N} {action : Action V N} {log : List (UpdateRecord × V)}

/-- A step that accepts nothing and brings no value but those of the batch. -/
theorem Valued.keep (h : Valued log s) (hrecords : s'.history.accepted = s.history.accepted)
    (hresident : ResidentFrom (batchUpdates s.batch) s.core s'.core)
    (hbatch : ∀ u ∈ batchUpdates s'.batch, u ∈ batchUpdates s.batch) : Valued log s' := by
  refine ⟨h.records.trans hrecords.symm, ?_, fun u hu => h.batch u (hbatch u hu)⟩
  intro t a' b versioned ha' hslot
  rcases hresident t a' b versioned ha' hslot with ⟨a, ha, hold⟩ | ⟨u, hu, rfl, hcame⟩
  · exact h.slots t a b versioned ha hold
  · cases hcame
    exact h.batch u hu

/-- **A publication logs the value it stores.** -/
theorem Valued.published [BEq V] (h : Valued log s) (hwf : CoreWf (slackOf s) s.core)
    {buffer : BufferIndex}
    (hcore : s'.core = (s.core.commitValue buffer sink.topicId sink.connectionGeneration value).1)
    (hhistory : s'.history = s.history.accept sink
      (s.core.commitValue buffer sink.topicId sink.connectionGeneration value).2)
    (hbatch : batchUpdates s'.batch = batchUpdates s.batch) : Valued (acceptedValue sink value
      (s.core.commitValue buffer sink.topicId sink.connectionGeneration value).2 ++ log) s' := by
  obtain ⟨-, hcase⟩ := commitValue_spec hwf buffer sink.topicId sink.connectionGeneration value
  rw [← hcore] at hcase
  generalize (s.core.commitValue buffer sink.topicId sink.connectionGeneration value).2 = outcome
    at hcase hhistory
  cases hcase with
  | refused error hsame | duplicate hsame =>
    refine h.keep (by rw [hhistory]; rfl) (.of_shards (by rw [hsame])) ?_
    rw [hbatch]
    exact fun _ hu => hu
  | overloaded a ha hsame =>
    have htouches := Touches.setActive s.core sink.topicId a.spent
    rw [← hsame] at htouches
    refine h.keep (by rw [hhistory]; rfl) (.of_touches htouches ?_) ?_
    · intro a' b versioned ha' hslot
      cases ha'
      exact .inl ⟨a, ha, hslot⟩
    · rw [hbatch]
      exact fun _ hu => hu
  | accepted a ha hg hstored =>
    have htouches := hstored.touches
    refine ⟨?_, ?_, ?_⟩
    · rw [hhistory]
      exact congrArg (_ :: ·) h.records
    · intro t a' b versioned ha' hslot
      by_cases ht : t = sink.topicId
      · subst ht
        cases htouches.active.symm.trans ha'
        by_cases hb : b = buffer
        · subst hb
          have hvalue : (a.spent.stored b a.nextSequence value).values b =
              .resident ⟨a.generation, a.nextSequence, value⟩ := update_self ..
          rw [hvalue] at hslot
          cases hslot
          rw [hg]
          exact mem_cons_self
        · have hvalue : (a.spent.stored buffer a.nextSequence value).values b = a.values b :=
            update_of_ne hb ..
          rw [hvalue] at hslot
          exact mem_cons_of_mem _ (h.slots sink.topicId a b versioned ha hslot)
      · rw [htouches.otherActive t ht] at ha'
        exact mem_cons_of_mem _ (h.slots t a' b versioned ha' hslot)
    · intro u hu
      rw [hbatch] at hu
      exact mem_cons_of_mem _ (h.batch u hu)

theorem Valued.collected (h : Valued log s) (hordered : Ordered s) (hwf : Accounted s)
    {batch : RefreshBatch V} {index : ShardIndex} {remaining : List ShardIndex}
    (hbefore : s.batch = some batch) (hstage : batch.stage = .collecting (index :: remaining))
    (hcore : s'.core = (s.core.collectShard index batch.updates).1)
    (hafter : batchUpdates s'.batch = (s.core.collectShard index batch.updates).2)
    (hhistory : s'.history = s.history) : Valued log s' := by
  obtain ⟨taken, htaken, hcollected⟩ := collectShard_collected hwf.core index batch.updates
  refine ⟨h.records.trans (by rw [hhistory]), ?_, ?_⟩
  · intro t a' b versioned ha' hslot
    rw [hcore] at ha'
    by_cases ht : ∃ u ∈ taken, u.topicId = t
    · obtain ⟨u, hu, rfl⟩ := ht
      obtain ⟨-, a, ha, -, -, hactive⟩ :=
        resident_of_collected hordered hwf hbefore hstage htaken hcollected hu
      rw [hactive] at ha'
      cases ha'
      by_cases hb : b = u.buffer
      · subst hb
        have hset : (a.setSlot u.buffer (.inFlight u.connectionGeneration u.sequence)).values
            u.buffer = .inFlight u.connectionGeneration u.sequence := update_self ..
        rw [hset] at hslot
        cases hslot
      · have hset : (a.setSlot u.buffer (.inFlight u.connectionGeneration u.sequence)).values b =
            a.values b := update_of_ne hb ..
        rw [hset] at hslot
        exact h.slots u.topicId a b versioned ha hslot
    · rw [hcollected.kept t fun u hu heq => ht ⟨u, hu, heq⟩] at ha'
      exact h.slots t a' b versioned ha' hslot
  · intro u hu
    rw [hafter, htaken] at hu
    rcases mem_append.mp hu with hold | hnew
    · have hupdates : batchUpdates s.batch = batch.updates := by rw [hbefore]; rfl
      exact h.batch u (hupdates ▸ hold)
    · obtain ⟨-, a, ha, -, hslot, -⟩ :=
        resident_of_collected hordered hwf hbefore hstage htaken hcollected hnew
      exact h.slots u.topicId a u.buffer _ ha hslot

/-- **One step keeps every value**: what it accepts joins the log, and nothing is changed. -/
theorem Valued.step [BEq V] [Inhabited V] (h : Valued log s) (hordered : Ordered s)
    (hwf : Accounted s) (hopen : s.core.lifecycle = .opened)
    (hstep : step s action = some s') : Valued (s.acceptedBy action ++ log) s' := by
  have hterm := hwf.lifecycle.mp hopen
  cases step_accepting hstep hwf.no_abort with
  | value sink value epoch hvalue hcore hhistory hbatch =>
    rw [hvalue]
    exact h.published hwf.core hcore hhistory (by rw [hbatch])
  | nothing hnone hrecords =>
    rw [hnone, nil_append]
    have hsame : s'.core.shards = s.core.shards → batchUpdates s'.batch = batchUpdates s.batch →
        Valued log s' := fun hshards hupdates =>
      h.keep hrecords (.of_shards hshards) fun u hu => hupdates ▸ hu
    cases step_effect hstep with
    | progress _ _ _ _ hcore hbatch _ _ _ | admitted _ _ _ hcore hbatch _ _ _
    | connected _ _ _ hcore hbatch _ _ _ | installed _ _ _ _ hcore hbatch _ _ _ _
    | foreignActive _ _ _ _ hcore hbatch | foreignQueued _ _ _ _ hcore hbatch
    | foreignGeneration _ hcore hbatch =>
      exact hsame (by rw [hcore]) (by rw [hbatch])
    | published op o o' sink value epoch outcome _ hframe hbatch hvalue hhistory hop _ _ _ =>
      -- The publication was refused, or the history would be longer.
      have hcore : s'.core = (s.core.commitValue (BufferIndex.fromEpoch epoch) sink.topicId
          sink.connectionGeneration value).1 := by rw [hvalue]
      have hpublished := h.published hwf.core hcore (by rw [hhistory, hvalue]) (by rw [hbatch])
      have hlength := congrArg length hpublished.records
      rw [hrecords, ← h.records, length_map, length_map, length_append] at hlength
      rwa [length_eq_zero_iff.mp (Nat.add_eq_right.mp hlength), nil_append] at hpublished
    | reserved op c o' hframe hbatch hhistory result hreserve hop hnext =>
      rcases hwf.core.reserved hreserve with hcore | ⟨-, hreserved⟩
      · exact hsame (by rw [hcore]) (by rw [hbatch])
      · refine h.keep hrecords (.of_touches hreserved.touches ?_) (by rw [hbatch]; exact fun _ => id)
        intro a' b versioned ha' hslot
        cases ha'
        cases hslot
    | committed op c observed epoch o' result _ hframe hbatch hcommit hhistory hop _ _ _ =>
      rcases hwf.core.committed hcommit with
        ⟨error, hcore, -⟩ | ⟨hasPending, a, -, ha, -, -, hcommitted, -⟩
      · exact hsame (by rw [hcore]) (by rw [hbatch])
      · refine h.keep hrecords (.of_touches hcommitted.touches ?_)
          (by rw [hbatch]; exact fun _ => id)
        intro a' b versioned ha' hslot
        cases ha'
        exact .inl ⟨a, ha, hslot⟩
    | rolledBack op c removed hframe hbatch hhistory hrollback hop =>
      obtain ⟨-, hwithdrawn⟩ := hwf.rolledBack hop.before hrollback
      exact h.keep hrecords (.of_withdrawn hwithdrawn) (by rw [hbatch]; exact fun _ => id)
    | prepared op after o' hframe hcore hbatch =>
      have hdata := (s.core.prepareNotification_rewritten true).data
      exact hsame (by rw [hcore, hdata.shards]) (by rw [hbatch])
    | attached op notifier o' _ hframe hcore hbatch =>
      have hdata := (s.core.attachUpdateNotifier_rewritten notifier).data
      exact hsame (by rw [hcore, hdata.shards]) (by rw [hbatch])
    | pulsed op o' _ hframe hcore hbatch =>
      have hdata := s.core.pulseNotification_rewritten.data
      exact hsame (by rw [hcore, hdata.shards]) (by rw [hbatch])
    | planned op result _ hframe hplan hbatch =>
      have hdata := (PublishCore.planRefresh_spec hplan).1
      refine hsame hdata.shards ?_
      have hstart : s'.batch = startBatch s.batch s.core.planRefresh.2 := by
        rw [hbatch, hplan]
      rcases hordered.startBatch hstart with hkept | ⟨hnone, plan, hsome⟩
      · rw [hkept]
      · rw [hnone, hsome]
        rfl
    | driven op attempt after succeeded o' hframe hcore hbatch =>
      have hdata := (s.core.finishNotificationAttempt_spec attempt succeeded).1.data
      exact hsame (by rw [hcore, hdata.shards]) (by rw [hbatch])
    | disconnected t result hframe hbatch hhistory hdisconnect hops =>
      rcases (hwf.core.disconnected hdisconnect).2 with hcore | hwithdrawn
      · exact hsame (by rw [hcore]) (by rw [hbatch])
      · exact h.keep hrecords (.of_withdrawn hwithdrawn) (by rw [hbatch]; exact fun _ => id)
    | detached hcore hbatch hhistory hops hframe =>
      have hdata := s.core.detachUpdateNotifier_rewritten.data
      exact hsame (by rw [hcore, hdata.shards]) (by rw [hbatch])
    | collected batch index remaining hframe hbefore hstage hcore hbatch hhistory hops =>
      exact h.collected hordered hwf hbefore hstage hcore (by rw [hbatch]; rfl) hhistory
    | completing batch remaining outcome ticketError hframe hbefore hstage _ hcore hbatch =>
      exact hsame (by rw [hcore]) (by rw [hbatch, hbefore]; rfl)
    | mismatched batch error hframe hbefore hcheck =>
      exact absurd hcheck (hordered.not_mismatched hbefore error)
    | abandoned batch op o' hframe hbefore hempty hcore hbatch =>
      have hdata := s.core.abortEmptyRefresh_data batch.plan.refreshId
      exact hsame (by rw [hcore, hdata.shards]) (by rw [hbatch, hbefore]; exact hempty.symm)
    | completed batch updates u outcome ticketError hframe hbefore hstage hupdates hcomplete
        hbatch =>
      have hbefore' : batchUpdates s.batch = updates ++ [u] := by rw [hbefore, ← hupdates]; rfl
      have hafter : batchUpdates s'.batch = updates := by rw [hbatch]; rfl
      refine h.keep hrecords ?_ ?_
      · intro t a' b versioned ha' hslot
        rcases completeUpdate_resident hwf.core hcomplete t a' b versioned ha' hslot with
          hold | ⟨u', hu', hcame⟩
        · exact .inl hold
        · rw [hbefore']
          exact .inr ⟨u', mem_append_right _ hu', hcame⟩
      · intro u' hu'
        rw [hafter] at hu'
        rw [hbefore']
        exact mem_append_left _ hu'
    | refreshed batch outcome ticketError op o' hframe hbefore hstage hempty hcore hbatch =>
      have hdata := s.core.finishRefresh_data batch.plan.refreshId ticketError
      exact hsame (by rw [hcore, hdata.shards]) (by rw [hbatch, hbefore]; exact hempty.symm)
    | closing next gateOpen hnext hframe hbatch =>
      refine hsame ?_ (by rw [hbatch])
      rcases hnext with ⟨-, -, hcore⟩ | ⟨-, -, hcore⟩
      · rw [hcore]
      · rw [hcore]
    | cleared _ _ _ hclearing | resetPending _ _ _ hclearing | resetDeliverable _ hclearing
    | resetReady hclearing | finished hclearing =>
      rw [hclearing] at hterm
      cases hterm
    | aborted _ hsection => exact absurd hsection hwf.no_abort

end

end Xlfn.Subscription
