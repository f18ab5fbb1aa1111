import Xlfn.Subscription.Effects

/-!
# Xlfn — the list of effects is complete

`step_effect`: every step of the data plane has one of the effects listed in
`Xlfn.Subscription.Effects`. The proof follows the definition of the step
function, one lemma for each kind of operation.
-/

namespace Xlfn.Subscription

open Xlfn.Lib Xlfn.Kernel Effect Option State OpChange

variable {V N : Type} {s s' : State V N} {op : Nat} {action : Action V N}

/-- Only the operation table (and the locks) differ. -/
structure OnlyLocks (s t : State V N) : Prop where
  frame      : Frame s t
  core       : t.core = s.core
  batch      : t.batch = s.batch
  history    : t.history = s.history
  operations : t.operations = s.operations

/-- Nothing changes. -/
theorem OnlyLocks.refl (s : State V N) : OnlyLocks s s := ⟨Frame.refl s, rfl, rfl, rfl, rfl⟩

/-- A shard is locked. -/
theorem OnlyLocks.lock (s : State V N) (topicId : TopicId) (op : Nat) :
    OnlyLocks s (s.lock topicId op) :=
  ⟨⟨rfl, rfl, rfl, rfl, rfl, rfl⟩, rfl, rfl, rfl, rfl⟩

/-- A shard is unlocked. -/
theorem OnlyLocks.unlock (s : State V N) (topicId : TopicId) : OnlyLocks s (s.unlock topicId) :=
  ⟨⟨rfl, rfl, rfl, rfl, rfl, rfl⟩, rfl, rfl, rfl, rfl⟩

/-- A stage of a publication: it carries no connection. -/
structure IsPublication (o : Operation V N) : Prop where
  connection  : o.connection? = none
  knowledge   : o.knowledge? = none
  due         : ∀ n, o.due n = false

theorem isPublication_publish (sink : PublishSink) (value : V) (stage : PublishStage) :
    IsPublication (.publish sink value stage : Operation V N) := ⟨rfl, rfl, fun _ => rfl⟩

theorem isPublication_batch (sink : PublishSink) (value : V) (rest : List V)
    (stage : PublishStage) : IsPublication (.publishBatch sink value rest stage : Operation V N) :=
  ⟨rfl, rfl, fun _ => rfl⟩

variable {o : Operation V N} {t : State V N} {epoch : Nat} {sink : PublishSink} {choice : Choice}
  {stage : ConnectionStage N} {connection : Connection} {after : Continuation V}
  {batch : RefreshBatch V}

/-- A publication knows nothing of a connection. -/
theorem progress_publication (ho : IsPublication o) {n : Nat} {o' : Option (Operation V N)}
    (h : ∀ p ∈ o', p.connection? = none ∧ p.knowledge? = none) : Progress n o o' :=
  Progress.of_spec (ho.due n) fun p hp => ⟨.inl (h p hp).1, .inl (h p hp).2⟩

variable [BEq V]

/-- The rule for a step that moves an operation on. -/
theorem Effect.of_progress (o' : Option (Operation V N)) (hop : s.operations.lookup op = some o)
    (ht : OnlyLocks s t) (hp : Progress s.core.notifiedEpoch o o') :
    Effect s action (t.withOp op o') := by
  refine .progress op o o' (ht.frame.withOp op o') ?_ ?_ ?_ (withOp hop ht.operations o') hp
  · rw [withOp_core, ht.core]
  · rw [withOp_batch, ht.batch]
  · rw [withOp_history, ht.history]

/-- The load of the epoch. -/
theorem stepLoad_effect {setStage : PublishStage → Operation V N}
    (hop : s.operations.lookup op = some o) (ho : IsPublication o)
    (hset : ∀ stage, IsPublication (setStage stage)) :
    Effect s action (s.stepLoad op setStage) := by
  unfold stepLoad
  cases s.core.ensureOpen with
  | error error =>
    exact of_progress none hop (OnlyLocks.refl s)
      (progress_publication ho fun p hp => by cases hp)
  | ok _ =>
    refine of_progress (some _) hop (OnlyLocks.refl s) (progress_publication ho ?_)
    intro p hp
    cases hp
    exact ⟨(hset _).connection, (hset _).knowledge⟩

/-- The shard lock of a publication. -/
theorem stepLock_effect {topicId : TopicId} {setStage : PublishStage → Operation V N}
    (hop : s.operations.lookup op = some o) (ho : IsPublication o)
    (hset : ∀ stage, IsPublication (setStage stage))
    (h : s.stepLock op topicId epoch setStage = some s') : Effect s action s' := by
  unfold stepLock at h
  split at h
  · cases h
  · split at h
    all_goals
      cases h
      first
        | refine of_progress (some _) hop (OnlyLocks.refl s) (progress_publication ho ?_)
        | refine of_progress (some _) hop (OnlyLocks.lock s topicId op)
            (progress_publication ho ?_)
      intro p hp
      cases hp
      exact ⟨(hset _).connection, (hset _).knowledge⟩

variable {value : V}

/-- The rule for a commit of a value. -/
theorem Effect.of_published (o' : Option (Operation V N)) (haction : action = .advance op choice)
    (hop : s.operations.lookup op = some o) (hlocked : (∃ v, o = .publish sink v (.locked epoch)) ∨
      ∃ v rest, o = .publishBatch sink v rest (.locked epoch)) (ht : OnlyLocks s t)
    (hconnection : ∀ p ∈ o', p.connection? = none)
    (hdue : (s.stepCommitValue sink value epoch).2.result = .ok true →
      (s.stepCommitValue sink value epoch).1.core.notifiedEpoch = epoch ∨
        ∃ after, o' = some (.notifying epoch after)) :
    Effect s action ((t.stepCommitValue sink value epoch).1.withOp op o') := by
  have hframe : Frame s (t.stepCommitValue sink value epoch).1 :=
    ⟨ht.frame.gateOpen, ht.frame.termination, ht.frame.nextGeneration, ht.frame.foreignActive,
      ht.frame.foreignQueued, ht.frame.aborted⟩
  have hops : (t.stepCommitValue sink value epoch).1.operations = s.operations := ht.operations
  have hcore : ((t.stepCommitValue sink value epoch).1.withOp op o').core =
      (s.stepCommitValue sink value epoch).1.core := by
    rw [withOp_core, stepCommitValue, stepCommitValue, ht.core]
  refine .published op o o' sink value epoch (s.stepCommitValue sink value epoch).2
    ⟨choice, haction⟩ (hframe.withOp op o') ?_ ?_ ?_ (withOp hop hops o') hlocked
    hconnection (by rw [hcore]; exact hdue)
  · rw [withOp_batch]
    exact ht.batch
  · rw [hcore]
    rfl
  · rw [withOp_history, stepCommitValue, stepCommitValue, ht.core, ht.history]

/-- A step of `publish`. -/
theorem stepPublish_effect {stage : PublishStage} (haction : action = .advance op choice)
    (hop : s.operations.lookup op = some (.publish sink value stage))
    (h : s.stepPublish op sink value stage = some s') : Effect s action s' := by
  cases stage with
  | entered =>
    cases h
    exact stepLoad_effect hop (isPublication_publish ..) (isPublication_publish sink value)
  | loaded epoch =>
    exact stepLock_effect hop (isPublication_publish ..) (isPublication_publish sink value) h
  | locked epoch =>
    unfold stepPublish at h
    dsimp only at h
    split at h
    · cases h
      exact of_published (some _) haction hop (.inl ⟨value, rfl⟩)
        (OnlyLocks.unlock s sink.topicId) (fun p hp => by cases hp; rfl) fun _ => .inr ⟨_, rfl⟩
    · next hres =>
      cases h
      exact of_published none haction hop (.inl ⟨value, rfl⟩)
        (OnlyLocks.unlock s sink.topicId) (fun p hp => by cases hp) fun hok => absurd hok hres

omit [BEq V] in
/-- An installed connection found its own subscription. -/
theorem installConnection_eq_ok [Inhabited V] {core : PublishCore V N} {t : TopicId}
    {generation : ConnectionGeneration} {installed : InstalledConnection V}
    (h : core.installConnection t generation = .ok installed) :
    ∃ a, (core.shards (shardIndex t)).activeByTopic.lookup t = some a ∧
      a.generation = generation ∧
      installed.observedSequence = core.observedSequence t generation := by
  unfold PublishCore.installConnection at h
  split at h
  · cases h
  · split at h
    · cases h
    · next a ha =>
      split at h
      · cases h
      · next hg =>
        cases h
        exact ⟨a, ha, not_not.mp hg, rfl⟩

/-- The commit of one value of a batch. -/
theorem stepBatchLocked_effect {rest : List V} (haction : action = .advance op choice)
    (hop : s.operations.lookup op = some (.publishBatch sink value rest (.locked epoch))) :
    Effect s action (s.stepBatchLocked op sink value rest epoch choice) := by
  have hend : Effect s action ((s.unlock sink.topicId).endOperation op) :=
    of_progress none hop (OnlyLocks.unlock s sink.topicId)
      (progress_publication (isPublication_batch ..) fun p hp => by cases hp)
  -- Every way on after the value was committed; the lock is released or kept.
  have hgo : ∀ (t : State V N) (o' : Option (Operation V N)), OnlyLocks s t →
      (∀ p ∈ o', p.connection? = none) →
      ((s.stepCommitValue sink value epoch).2.result = .ok true →
        (s.stepCommitValue sink value epoch).1.core.notifiedEpoch = epoch ∨
          ∃ after, o' = some (.notifying epoch after)) →
      Effect s action ((t.stepCommitValue sink value epoch).1.withOp op o') :=
    fun t o' ht hc hdue => of_published _ haction hop (.inr ⟨value, rest, rfl⟩) ht hc hdue
  unfold stepBatchLocked
  split
  · exact hend
  · cases s.core.ensureOpen with
    | error error => exact hend
    | ok _ =>
      dsimp only
      cases hres : (s.stepCommitValue sink value epoch).2.result with
      | error error =>
        exact hgo (s.unlock sink.topicId) none (OnlyLocks.unlock ..) (fun p hp => by cases hp)
          fun hok => by rw [hres] at hok; cases hok
      | ok committed =>
        dsimp only
        split
        · exact hgo (s.unlock sink.topicId) (some _) (OnlyLocks.unlock ..)
            (fun p hp => by cases hp; rfl) fun _ => .inr ⟨_, rfl⟩
        · next hnotify =>
          -- No announcement: the value is uncommitted or its epoch already notified.
          have hfast : (s.stepCommitValue sink value epoch).2.result = .ok true →
              (s.stepCommitValue sink value epoch).1.core.notifiedEpoch = epoch := by
            intro hok
            rw [hres] at hok
            cases hok
            simpa using hnotify
          split
          · rw [nextValue_eq]
            exact hgo (s.unlock sink.topicId) _ (OnlyLocks.unlock ..)
              (fun p hp => (nextValueOp_spec sink rest p hp).1) fun hok => .inl (hfast hok)
          · cases rest with
            | nil =>
              exact hgo (s.unlock sink.topicId) none (OnlyLocks.unlock ..)
                (fun p hp => by cases hp) fun hok => .inl (hfast hok)
            | cons value' rest =>
              exact hgo s (some _) (OnlyLocks.refl s) (fun p hp => by cases hp; rfl)
                fun hok => .inl (hfast hok)

/-- A step of `publish_batch`. -/
theorem stepPublishBatch_effect {rest : List V} {stage : PublishStage}
    (haction : action = .advance op choice)
    (hop : s.operations.lookup op = some (.publishBatch sink value rest stage))
    (h : s.stepPublishBatch op sink value rest choice stage = some s') : Effect s action s' := by
  cases stage with
  | entered =>
    cases h
    exact stepLoad_effect hop (isPublication_batch ..) (isPublication_batch sink value rest)
  | loaded epoch =>
    exact stepLock_effect hop (isPublication_batch ..) (isPublication_batch sink value rest) h
  | locked epoch =>
    cases h
    exact stepBatchLocked_effect haction hop

-- ---- Connections.

/-- The rule for a step of a connection. -/
theorem Effect.of_stage (o' : Option (Operation V N))
    (hop : s.operations.lookup op = some (.connecting connection stage)) (ht : OnlyLocks s t)
    (hnext : ∀ p ∈ o', (p.connection? = none ∨ p.connection? = some connection) ∧
      (p.knowledge? = none ∨
        p.knowledge? = (Operation.connecting connection stage : Operation V N).knowledge?)) :
    Effect s action (t.withOp op o') :=
  of_progress _ hop ht (Progress.of_spec rfl hnext)

/-- A connection starts to roll back. -/
theorem rollingBack_effect (hop : s.operations.lookup op = some (.connecting connection stage)) :
    Effect s action (s.setOperation op (.connecting connection .rollingBack)) :=
  of_stage (some _) hop (OnlyLocks.refl s) fun p hp => by
    cases hp
    exact ⟨.inr rfl, .inl rfl⟩

/-- A connection ends. -/
theorem endConnection_effect (hop : s.operations.lookup op = some (.connecting connection stage)) :
    Effect s action (s.endOperation op) :=
  of_stage none hop (OnlyLocks.refl s) fun p hp => by cases hp

/-- The commit of a connection. -/
theorem stepCommitConnection_effect {observed : Option Nat} (haction : action = .advance op choice)
    (hop : s.operations.lookup op = some (.connecting connection (.committing observed epoch))) :
    Effect s action (s.stepCommitConnection op connection observed epoch) := by
  unfold stepCommitConnection orAbort
  dsimp only
  have hcore : (s.unlock connection.topicId).core = s.core := rfl
  rw [hcore]
  cases hcommit : s.core.commitConnection connection.topicId connection.generation observed with
  | none => exact .aborted rfl (.inl ⟨op, connection, observed, epoch, hop, hcommit⟩)
  | some r =>
    obtain ⟨core, result⟩ := r
    dsimp only
    let t : State V N := { s.unlock connection.topicId with
      core, history := s.history.observe connection result observed }
    have hgo : ∀ o' : Operation V N, o'.connection? = some connection → o'.knowledge? = none →
        (result = .ok true → o' = .notifying epoch (.connection connection)) →
        Effect s action (t.withOp op (some o')) :=
      fun o' hc ho hdue => .committed op connection observed epoch o' result ⟨choice, haction⟩
        ⟨rfl, rfl, rfl, rfl, rfl, rfl⟩ rfl hcommit rfl
        (withOp (t := t) hop rfl (some o')) hc ho hdue
    cases result with
    | error error => exact hgo _ rfl rfl nofun
    | ok hasPending =>
      cases hasPending with
      | true => exact hgo _ rfl rfl fun _ => rfl
      | false => exact hgo _ rfl rfl nofun

/-- A step of a connection. -/
theorem stepConnecting_effect [Inhabited V] (haction : action = .advance op choice)
    (hop : s.operations.lookup op = some (.connecting connection stage))
    (h : s.stepConnecting op connection choice stage = some s') : Effect s action s' := by
  cases stage with
  | catalogReserved =>
    dsimp only [stepConnecting] at h
    split at h
    · cases h
      exact endConnection_effect hop
    · split at h
      · cases h
      · split at h
        · next core hreserve =>
          cases h
          exact .reserved op connection (some _) ⟨rfl, rfl, rfl, rfl, rfl, rfl⟩ rfl rfl _ hreserve
            (withOp (t := { s with core }) hop rfl (some _)) (.inr rfl)
        · next core error hreserve =>
          cases h
          exact .reserved op connection none ⟨rfl, rfl, rfl, rfl, rfl, rfl⟩ rfl rfl _ hreserve
            (withOp (t := { s with core }) hop rfl none) (.inl rfl)
  | publishReserved =>
    dsimp only [stepConnecting] at h
    split at h
    · cases h
      exact rollingBack_effect hop
    · split at h
      · cases h
      · split at h
        · next inst hinst =>
          cases h
          obtain ⟨a, ha, hg, hobs⟩ := installConnection_eq_ok hinst
          rw [hobs]
          exact .installed op connection a ⟨rfl, rfl, rfl, rfl, rfl, rfl⟩ rfl rfl rfl ha hg
            (withOp hop rfl (some _))
        · cases h
          exact rollingBack_effect hop
  | installed observed =>
    dsimp only [stepConnecting] at h
    split at h
    · cases h
      exact rollingBack_effect hop
    · split at h
      · cases h
      · split at h
        · cases h
          exact rollingBack_effect hop
        · cases h
          refine of_stage (some _) hop (OnlyLocks.lock s connection.topicId op) ?_
          intro p hp
          cases hp
          exact ⟨.inr rfl, .inr rfl⟩
  | committing observed epoch =>
    cases h
    exact stepCommitConnection_effect haction hop
  | finishing attempt =>
    dsimp only [stepConnecting] at h
    split at h
    · cases h
      exact rollingBack_effect hop
    · split at h
      · cases h
        exact endConnection_effect hop
      · cases h
        refine of_stage (some _) hop (OnlyLocks.refl s) ?_
        intro p hp
        cases hp
        exact ⟨.inr rfl, .inl rfl⟩
  | rollingBack =>
    dsimp only [stepConnecting] at h
    split at h
    · cases h
    · cases h
      unfold orAbort
      cases hrollback : s.core.rollbackConnection connection.topicId connection.generation
          connection.id with
      | none => exact .aborted rfl (.inr (.inl ⟨op, connection, hop, hrollback⟩))
      | some r =>
        obtain ⟨core, removed⟩ := r
        exact .rolledBack op connection removed ⟨rfl, rfl, rfl, rfl, rfl, rfl⟩ rfl rfl hrollback
          (withOp (t := { s with core }) hop rfl none)

-- ---- Refresh-lock sections of admitted operations.

/-- The entry a section leaves behind. -/
def sectionOp (after : Continuation V) :
    Except XllError (Option (NotificationAttempt N)) → Option (Operation V N)
  | .ok attempt => afterPrepareOp after attempt
  | .error _ => afterFailureOp after

omit [BEq V] in
/-- A refresh section stores its core and the next entry. -/
theorem stepSection_eq (s : State V N) (op : Nat) (after : Continuation V)
    (result : PublishCore V N × Except XllError (Option (NotificationAttempt N))) :
    s.stepSection op after result =
      { s with core := result.1 }.withOp op (sectionOp after result.2) := by
  obtain ⟨core, result⟩ := result
  cases result with
  | ok attempt => exact afterPrepare_eq ..
  | error error => exact afterFailure_eq ..

omit [BEq V] in
/-- That entry keeps the connection of its continuation. -/
theorem sectionOp_spec (after : Continuation V)
    (result : Except XllError (Option (NotificationAttempt N))) :
    ∀ p ∈ sectionOp after result,
      (p.connection? = none ∨ p.connection? = after.connection?) ∧ p.knowledge? = none := by
  cases result with
  | ok attempt => exact afterPrepareOp_spec after attempt
  | error error => exact afterFailureOp_spec after

/-- The fast path of a notification. -/
theorem stepNotifying_effect (hop : s.operations.lookup op = some (.notifying epoch after))
    (h : (if s.core.notifiedEpoch = epoch then some (s.afterPrepare op after none)
      else some (s.setOperation op (.notifyingSlow after))) = some s') : Effect s action s' := by
  split at h
  · next hfast =>
    cases h
    rw [afterPrepare_eq]
    refine of_progress _ hop (OnlyLocks.refl s) (Progress.of_spec ?_ fun p hp => ?_)
    · simp [Operation.due, hfast]
    · have hspec := afterPrepareOp_spec after none p hp
      exact ⟨hspec.1, .inl hspec.2⟩
  · cases h
    refine of_progress (some _) hop (OnlyLocks.refl s) ⟨?_, ?_, ?_⟩
    · intro p hp
      cases hp
      exact .inr rfl
    · intro p hp
      cases hp
      exact .inl rfl
    · intro _
      exact ⟨_, rfl, rfl⟩

/-- The slow path. -/
theorem stepNotifyingSlow_effect (hop : s.operations.lookup op = some (.notifyingSlow after)) :
    Effect s action (s.stepSection op after (s.core.prepareNotification true)) := by
  rw [stepSection_eq]
  refine .prepared op after _ ((Frame.withCore s _).withOp op _) ?_ ?_ ?_
    (withOp hop (by rfl) _) (fun p hp => (sectionOp_spec after _ p hp).1)
    fun p hp => (sectionOp_spec after _ p hp).2
  · rw [withOp_core]
  · rw [withOp_batch]
  · rw [withOp_history]

/-- A request. -/
theorem stepRequest_effect {request : Request N} (haction : action = .advance op choice)
    (hop : s.operations.lookup op = some (.request request)) :
    Effect s action (s.stepRequest op request) := by
  have hdone : ∀ (result : Except XllError (Option (NotificationAttempt N))),
      ∀ p ∈ (sectionOp (.done : Continuation V) result), p.connection? = none := by
    intro result p hp
    exact (sectionOp_spec .done result p hp).1.elim id id
  cases request with
  | attach notifier =>
    change Effect s action (s.stepSection op .done _)
    rw [stepSection_eq]
    refine .attached op notifier _ ⟨choice, haction⟩
      ((Frame.withCore s _).withOp op _) ?_ ?_ ?_ (withOp hop (by rfl) _)
      (hdone _)
    · rw [withOp_core]
    · rw [withOp_batch]
    · rw [withOp_history]
  | pulse =>
    change Effect s action (s.stepSection op .done _)
    rw [stepSection_eq]
    refine .pulsed op _ ⟨choice, haction⟩ ((Frame.withCore s _).withOp op _)
      ?_ ?_ ?_ (withOp hop (by rfl) _) (hdone _)
    · rw [withOp_core]
    · rw [withOp_batch]
    · rw [withOp_history]
  | planRefresh =>
    exact .planned op s.core.planRefresh.2 ⟨choice, haction⟩ ⟨rfl, rfl, rfl, rfl, rfl, rfl⟩ rfl rfl
      rfl (withOp (t := { s with
        core := s.core.planRefresh.1
        batch := startBatch s.batch s.core.planRefresh.2 }) hop rfl none)

theorem stepDriving_effect {attempt : NotificationAttempt N}
    (hop : s.operations.lookup op = some (.driving attempt after)) :
    Effect s action (s.stepDriving op attempt after choice) := by
  unfold stepDriving
  split
  · rw [afterFailure_eq]
    refine of_progress _ hop (OnlyLocks.refl s) (Progress.of_spec rfl fun p hp => ?_)
    have hspec := afterFailureOp_spec after p hp
    exact ⟨hspec.1, .inl hspec.2⟩
  · have hgo : ∀ o' : Option (Operation V N),
        (∀ p ∈ o', (p.connection? = none ∨ p.connection? = after.connection?) ∧
          p.knowledge? = none) →
        Effect s action ({ s with
          core := (s.core.finishNotificationAttempt attempt (choice = Choice.proceed)).1 }.withOp op
            o') := by
      intro o' ho'
      refine .driven op attempt after (choice = Choice.proceed) o'
        ((Frame.withCore s _).withOp op o') ?_ ?_ ?_ (withOp hop (by rfl) o')
        (fun p hp => (ho' p hp).1) fun p hp => (ho' p hp).2
      · rw [withOp_core]
      · rw [withOp_batch]
      · rw [withOp_history]
    split
    · next core next hfinish =>
      have := hgo (some (.driving next after)) fun p hp => by
        cases hp
        exact ⟨.inr rfl, rfl⟩
      rw [hfinish] at this
      exact this
    · next core completion hne hfinish =>
      have := hgo (afterDriveOp after) fun p hp =>
        ⟨.inl (afterDriveOp_spec after p hp).1, (afterDriveOp_spec after p hp).2⟩
      rw [hfinish] at this
      rw [afterDrive_eq]
      exact this

/-- A step of an operation. -/
theorem stepOperation_effect [Inhabited V] (haction : action = .advance op choice)
    (hop : s.operations.lookup op = some o) (h : s.stepOperation op choice o = some s') :
    Effect s action s' := by
  cases o with
  | publish sink value stage => exact stepPublish_effect haction hop h
  | publishBatch sink value rest stage => exact stepPublishBatch_effect haction hop h
  | notifying epoch after => exact stepNotifying_effect hop h
  | notifyingSlow after =>
    cases h
    exact stepNotifyingSlow_effect hop
  | driving attempt after =>
    cases h
    exact stepDriving_effect hop
  | connecting connection stage => exact stepConnecting_effect haction hop h
  | request request =>
    cases h
    exact stepRequest_effect haction hop

-- ---- The refresh batch.

/-- A shard is collected. -/
theorem stepCollect_effect (hbatch : s.batch = some batch) (h : s.stepCollect batch = some s') :
    Effect s action s' := by
  unfold stepCollect at h
  split at h
  · next index remaining hstage =>
    split at h
    · cases h
    · cases h
      exact .collected batch index remaining ⟨rfl, rfl, rfl, rfl, rfl, rfl⟩ hbatch hstage rfl rfl
        rfl rfl
  · cases h

/-- The completion of a refresh starts. -/
theorem stepComplete_effect {remaining : List ShardIndex} (hbatch : s.batch = some batch)
    (hstage : batch.stage = .collecting remaining) (outcome : RefreshOutcome) :
    Effect s action (s.stepComplete batch outcome) := by
  unfold stepComplete
  cases hcheck : s.core.checkRefresh batch.plan.refreshId with
  | error error =>
    exact .mismatched batch error ⟨rfl, rfl, rfl, rfl, rfl, rfl⟩ hbatch hcheck rfl rfl rfl rfl
  | ok ticketError =>
    exact .completing batch remaining outcome ticketError ⟨rfl, rfl, rfl, rfl, rfl, rfl⟩ hbatch
      hstage hcheck rfl rfl rfl rfl

/-- The entry of the attempt that a refresh reserved at its end. -/
def detachedOp (attempt : Option (NotificationAttempt N)) : Option (Operation V N) :=
  attempt.map fun attempt => .driving attempt .done

omit [BEq V] in
/-- A notification without an operation gets an entry of its own. -/
theorem driveDetached_spec {before : State V N} (hfree : before.operations.lookup op = none)
    (ht : t.operations = before.operations) (attempt : Option (NotificationAttempt N)) :
    OpChange before (t.driveDetached op attempt) op none (detachedOp attempt) := by
  refine ⟨hfree, fun k => ?_⟩
  cases attempt with
  | none =>
    change t.operations.lookup k = if k = op then none else before.operations.lookup k
    rw [ht]
    split
    · next hk => rw [hk, hfree]
    · rfl
  | some attempt =>
    change (t.operations.insert op _).lookup k = _
    rw [Table.lookup_insert_ite, ht]
    rfl

omit [BEq V] in
/-- This entry has no connection. -/
theorem detachedOp_spec (attempt : Option (NotificationAttempt N)) :
    ∀ p ∈ (detachedOp attempt : Option (Operation V N)), p.connection? = none := by
  intro p hp
  cases attempt with
  | none => cases hp
  | some attempt =>
    cases hp
    rfl

/-- An empty plan is dropped. -/
theorem stepAbandonPlan_effect {remaining : List ShardIndex} (hbatch : s.batch = some batch)
    (hstage : batch.stage = .collecting remaining) (hfree : s.operations.lookup op = none) :
    Effect s action (s.stepAbandonPlan op batch) := by
  unfold stepAbandonPlan
  cases hupdates : batch.updates with
  | cons update updates => exact stepComplete_effect hbatch hstage .failed
  | nil =>
    dsimp only
    refine .abandoned batch op (detachedOp (s.core.abortEmptyRefresh batch.plan.refreshId).2)
      ?_ hbatch hupdates ?_ ?_ ?_ (driveDetached_spec hfree (by rfl) _) (detachedOp_spec _)
    all_goals cases (s.core.abortEmptyRefresh batch.plan.refreshId).2
    all_goals first | rfl | exact ⟨rfl, rfl, rfl, rfl, rfl, rfl⟩

/-- One update is completed. -/
theorem stepCompleteNext_effect (hbatch : s.batch = some batch)
    (h : s.stepCompleteNext batch = some s') : Effect s action s' := by
  unfold stepCompleteNext at h
  split at h
  · next outcome ticketError update hstage hlast =>
    split at h
    · cases h
    · cases h
      unfold orAbort
      cases hcomplete : s.core.completeUpdate outcome update with
      | none =>
        exact .aborted rfl (.inr (.inr (.inr (.inl ⟨batch, outcome, update, hbatch, hcomplete⟩))))
      | some core =>
        refine .completed batch batch.updates.dropLast update outcome ticketError
          ⟨rfl, rfl, rfl, rfl, rfl, rfl⟩ hbatch hstage ?_ hcomplete rfl rfl rfl
        exact (List.dropLast_append_getLast? update hlast).symm
  · cases h

/-- The refresh ends. -/
theorem stepFinishRefresh_effect (hbatch : s.batch = some batch)
    (hfree : s.operations.lookup op = none) (h : s.stepFinishRefresh op batch = some s') :
    Effect s action s' := by
  unfold stepFinishRefresh at h
  split at h
  · next outcome ticketError hstage hempty =>
    have hgo : ∀ (attempt : Option (NotificationAttempt N)) (core : PublishCore V N),
        core = (s.core.finishRefresh batch.plan.refreshId ticketError).1 →
        Effect s action ({ s with core, batch := none }.driveDetached op attempt) := by
      intro attempt core hcore
      refine .refreshed batch outcome ticketError op (detachedOp attempt) ?_ hbatch hstage hempty
        ?_ ?_ ?_ (driveDetached_spec hfree (by rfl) _) (detachedOp_spec _)
      all_goals cases attempt
      all_goals first | exact hcore | rfl | exact ⟨rfl, rfl, rfl, rfl, rfl, rfl⟩
    split at h
    · next core attempt hfinish =>
      cases h
      exact hgo attempt core (by rw [hfinish])
    · next core error hfinish =>
      cases h
      exact hgo none core (by rw [hfinish])
  · cases h

-- ---- Termination.

/-- Termination ends. -/
theorem stepFinish_effect (hterm : s.termination = .waiting)
    (h : (if s.operations.entries.isEmpty && s.batch.isNone then
      some (s.orAbort s.finishTermination id) else none) = some s') : Effect s action s' := by
  generalize hfinish : s.finishTermination = result at h
  split at h
  · next hdrained =>
    rw [Bool.and_eq_true, List.isEmpty_iff, isNone_iff_eq_none] at hdrained
    rw [some.injEq] at h
    subst h
    cases result with
    | none => exact .aborted rfl (.inr (.inr (.inr (.inr (.inr (.inl hfinish))))))
    | some s' =>
      refine .finished hterm ?_ hdrained.2 hfinish
      refine Table.size_eq_zero_iff.mp ?_
      rw [Table.size, hdrained.1]
      rfl
  · cases h

/-- A step of termination. -/
theorem stepTerminate_effect (haction : action = .terminate) (h : s.stepTerminate = some s') :
    Effect s action s' := by
  unfold stepTerminate at h
  split at h
  · next hterm =>
    cases h
    exact .closing .gateClosed false (.inl ⟨hterm, rfl, rfl⟩) ⟨rfl, rfl, rfl, rfl, rfl, rfl⟩ rfl rfl
      rfl
  · next hterm =>
    cases h
    exact .closing .lifecycleStored s.gateOpen (.inr ⟨hterm, rfl, rfl⟩)
      ⟨rfl, rfl, rfl, rfl, rfl, rfl⟩ rfl rfl rfl
  · next hterm =>
    cases h
    exact .detached rfl rfl rfl rfl (.inr ⟨hterm, ⟨rfl, rfl, rfl, rfl, rfl, rfl⟩⟩)
  · next next pending deliverable hterm =>
    split at h
    · next hlt =>
      dsimp only at h
      split at h
      · cases h
      · cases h
        unfold orAbort
        cases hclear : s.core.clearShard ⟨next, hlt⟩ with
        | none => exact .aborted rfl (.inr (.inr (.inr (.inr (.inl ⟨_, hclear⟩)))))
        | some core =>
          exact .cleared ⟨next, hlt⟩ pending deliverable hterm haction
            ⟨rfl, rfl, rfl, rfl, rfl, rfl⟩ hclear rfl rfl rfl
    · next hge =>
      cases h
      exact .resetPending next pending deliverable hterm (not_lt.mp hge) haction
        ⟨rfl, rfl, rfl, rfl, rfl, rfl⟩ rfl rfl rfl rfl
  · next deliverable hterm =>
    cases h
    exact .resetDeliverable deliverable hterm haction ⟨rfl, rfl, rfl, rfl, rfl, rfl⟩ rfl rfl rfl rfl
  · next hterm =>
    cases h
    exact .resetReady hterm ⟨rfl, rfl, rfl, rfl, rfl, rfl⟩ rfl rfl rfl rfl
  · next hterm =>
    exact stepFinish_effect hterm h
  · cases h

omit [BEq V] in
/-- An admitted operation gets a free entry. -/
theorem admitOperation_eq (h : s.admitOperation op o = some s') :
    s.operations.lookup op = none ∧ s' = s.withOp op (some o) := by
  unfold admitOperation at h
  split at h
  · next hfree =>
    cases h
    rw [Bool.and_eq_true, isNone_iff_eq_none] at hfree
    exact ⟨hfree.2, rfl⟩
  · cases h

/-- An operation is admitted. -/
theorem admitOperation_effect (hconnection : o.connection? = none)
    (h : s.admitOperation op o = some s') : Effect s action s' := by
  obtain ⟨hfree, rfl⟩ := admitOperation_eq h
  exact .admitted op o ⟨rfl, rfl, rfl, rfl, rfl, rfl⟩ rfl rfl rfl
    (withOp hfree rfl (some o)) hconnection

/-- A connection is admitted. -/
theorem stepEnterConnect_effect {topicId : TopicId} {id : SubscriptionId}
    (h : s.stepEnterConnect op topicId id = some s') : Effect s action s' := by
  unfold stepEnterConnect at h
  split at h
  · next nextGeneration generation hnext hgeneration =>
    obtain ⟨hfree, rfl⟩ := admitOperation_eq h
    obtain ⟨rfl, -⟩ := checkedIncrement_eq_some hnext
    refine .connected op ⟨topicId, id, generation⟩ ⟨rfl, rfl, rfl, rfl, rfl, rfl⟩ rfl rfl rfl
      (withOp (s := s) (t := { s with nextGeneration := s.nextGeneration + 1 }) hfree rfl
        (some _)) ?_
    unfold ConnectionGeneration.new at hgeneration
    split at hgeneration
    · cases hgeneration
      rfl
    · cases hgeneration
  · cases h

omit [BEq V] in
/-- Only an empty quota cannot be released. -/
theorem releaseCount_eq_none {quota : Quota} (h : quota.releaseCount = none) : quota.used = 0 := by
  by_contra hpos
  rw [Quota.releaseCount_of_pos (Nat.pos_of_ne_zero hpos)] at h
  cases h

omit [BEq V] in
/-- A release takes one from the quota. -/
theorem releaseCount_eq_some {quota quota' : Quota} (h : quota.releaseCount = some quota') :
    quota'.used + 1 = quota.used := by
  by_cases hpos : quota.used = 0
  · rw [Quota.releaseCount, checkedAtomicDec, checkedSubOrAbort, if_neg (by omega)] at h
    cases h
  · rw [Quota.releaseCount_of_pos (Nat.pos_of_ne_zero hpos)] at h
    cases h
    exact Nat.succ_pred hpos

/-- **The list of effects is complete.** -/
theorem step_effect [Inhabited V] (h : s.step action = some s') : Effect s action s' := by
  unfold step at h
  split at h
  · cases h
  cases action with
  | enterPublish op sink value | enterPublishBatch op sink value rest =>
    exact admitOperation_effect rfl h
  | enterConnect op topicId id => exact stepEnterConnect_effect h
  | enterRequest op request =>
    dsimp only at h
    split at h
    · exact admitOperation_effect rfl h
    · cases h
  | advance op choice =>
    obtain ⟨o, hop, hstep⟩ := bind_eq_some_iff.mp h
    exact stepOperation_effect rfl hop hstep
  | disconnect topicId =>
    dsimp only at h
    split at h
    · cases h
    · cases h
      unfold orAbort
      cases hdisconnect : s.core.disconnectConnection topicId with
      | none => exact .aborted rfl (.inr (.inr (.inl ⟨topicId, hdisconnect⟩)))
      | some r =>
        obtain ⟨core, result⟩ := r
        exact .disconnected topicId result ⟨rfl, rfl, rfl, rfl, rfl, rfl⟩ rfl rfl hdisconnect rfl
  | detachNotifier =>
    cases h
    exact .detached rfl rfl rfl rfl (.inl ⟨rfl, rfl, rfl, rfl, rfl, rfl⟩)
  | collect =>
    obtain ⟨batch, hbatch, hstep⟩ := bind_eq_some_iff.mp h
    exact stepCollect_effect hbatch hstep
  | abandonPlan op =>
    obtain ⟨batch, hbatch, hstep⟩ := bind_eq_some_iff.mp h
    split at hstep
    · next remaining hstage =>
      split at hstep
      · cases hstep
      · next hfree =>
        cases hstep
        rw [not_isSome_iff_eq_none] at hfree
        exact stepAbandonPlan_effect hbatch hstage hfree
    · cases hstep
  | complete outcome =>
    obtain ⟨batch, hbatch, hstep⟩ := bind_eq_some_iff.mp h
    split at hstep
    · next hstage =>
      cases hstep
      exact stepComplete_effect hbatch hstage outcome
    · cases hstep
  | completeNext =>
    obtain ⟨batch, hbatch, hstep⟩ := bind_eq_some_iff.mp h
    exact stepCompleteNext_effect hbatch hstep
  | finishRefresh op =>
    dsimp only at h
    split at h
    · cases h
    · next hfree =>
      obtain ⟨batch, hbatch, hstep⟩ := bind_eq_some_iff.mp h
      rw [not_isSome_iff_eq_none] at hfree
      exact stepFinishRefresh_effect hbatch hfree hstep
  | terminate => exact stepTerminate_effect rfl h
  | acquireForeignActive =>
    obtain ⟨quota, hquota, rfl⟩ := map_eq_some_iff.mp h
    obtain ⟨hused, -, -⟩ := Quota.acquireCount_eq_some hquota
    exact .foreignActive quota (s.foreignActive + 1) (by omega) ⟨rfl, rfl, rfl, rfl, rfl, rfl⟩ rfl
      rfl rfl rfl
  | releaseForeignActive =>
    dsimp only at h
    split at h
    · cases h
    · next hpos =>
      cases h
      unfold orAbort
      cases hquota : s.core.activeQuota.releaseCount with
      | none =>
        exact .aborted rfl (.inr (.inr (.inr (.inr (.inr (.inr (.inl
          ⟨Nat.pos_of_ne_zero hpos, releaseCount_eq_none hquota⟩)))))))
      | some quota =>
        have hused := releaseCount_eq_some hquota
        exact .foreignActive quota (s.foreignActive - 1) (by omega) ⟨rfl, rfl, rfl, rfl, rfl, rfl⟩
          rfl rfl rfl rfl
  | acquireForeignQueued =>
    obtain ⟨quota, hquota, rfl⟩ := map_eq_some_iff.mp h
    obtain ⟨hused, -, -⟩ := Quota.acquireCount_eq_some hquota
    exact .foreignQueued quota (s.foreignQueued + 1) (by omega) ⟨rfl, rfl, rfl, rfl, rfl, rfl⟩ rfl
      rfl rfl rfl
  | releaseForeignQueued =>
    dsimp only at h
    split at h
    · cases h
    · next hpos =>
      cases h
      unfold orAbort
      cases hquota : s.core.queuedUpdateQuota.releaseCount with
      | none =>
        exact .aborted rfl (.inr (.inr (.inr (.inr (.inr (.inr (.inr
          ⟨Nat.pos_of_ne_zero hpos, releaseCount_eq_none hquota⟩)))))))
      | some quota =>
        have hused := releaseCount_eq_some hquota
        exact .foreignQueued quota (s.foreignQueued - 1) (by omega) ⟨rfl, rfl, rfl, rfl, rfl, rfl⟩
          rfl rfl rfl rfl
  | takeForeignGeneration =>
    obtain ⟨nextGeneration, hnext, rfl⟩ := map_eq_some_iff.mp h
    obtain ⟨rfl, -⟩ := checkedIncrement_eq_some hnext
    exact .foreignGeneration ⟨rfl, rfl, rfl, rfl, rfl, rfl⟩ rfl rfl rfl rfl

end Xlfn.Subscription
