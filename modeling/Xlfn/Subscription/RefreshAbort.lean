import Xlfn.Subscription.AcceptedValues

/-!
# Xlfn — a refresh that fails

A refresh moves values out of their slots into its batch, shard by shard, and gives them back when
it fails: a plan dropped part-way, a batch completed as failed or dropped, or a completion for which
no notification ticket is left. `putBack` reads a topic as if the batch had given its value back
already; while only the refresh is at work, what it reads never changes.
-/

namespace Xlfn.Subscription

open Xlfn.Lib Xlfn.Kernel List Option PublishCore State

variable {V N : Type} {s s' : State V N} {action : Action V N}

-- ---- The steps of the refresh, and the steps of others.

/-- A step of the thread that runs the refresh. -/
def Action.ofRefresh : Action V N → Bool
  | .collect => true
  | .abandonPlan _ => true
  | .complete _ => true
  | .completeNext => true
  | .finishRefresh _ => true
  | _ => false

theorem orAbort_batch {α : Type} (s : State V N) (result : Option α) (next : α → State V N)
    (h : ∀ a, (next a).batch = s.batch) : (s.orAbort result next).batch = s.batch := by
  cases result with
  | none => rfl
  | some a => exact h a

theorem stepLoad_batch (s : State V N) (op : Nat) (setStage : PublishStage → Operation V N) :
    (s.stepLoad op setStage).batch = s.batch := by
  unfold stepLoad
  split <;> rfl

variable {t : TopicId} {taken : List (RtdUpdate V)} {op : Nat}

theorem stepLock_batch {epoch : Nat} {setStage : PublishStage → Operation V N}
    (h : s.stepLock op t epoch setStage = some s') : s'.batch = s.batch := by
  unfold stepLock at h
  split at h
  · cases h
  · split at h <;> cases h <;> rfl

theorem stepBatchLocked_batch [BEq V] (s : State V N) (op : Nat) (sink : PublishSink) (value : V)
    (rest : List V) (epoch : Nat) (choice : Choice) :
    (s.stepBatchLocked op sink value rest epoch choice).batch = s.batch := by
  unfold stepBatchLocked
  split
  · rfl
  · split
    · rfl
    · dsimp only
      split
      · rfl
      · split
        · rfl
        · split
          · rw [nextValue_eq, withOp_batch]
            rfl
          · split <;> rfl

theorem stepSection_batch (s : State V N) (op : Nat) (after : Continuation V)
    (result : PublishCore V N × Except XllError (Option (NotificationAttempt N))) :
    (s.stepSection op after result).batch = s.batch := by
  unfold stepSection
  split
  · rw [afterPrepare_eq, withOp_batch]
  · rw [afterFailure_eq, withOp_batch]

theorem stepDriving_batch (s : State V N) (op : Nat) (attempt : NotificationAttempt N)
    (after : Continuation V) (choice : Choice) :
    (s.stepDriving op attempt after choice).batch = s.batch := by
  unfold stepDriving
  split
  · rw [afterFailure_eq, withOp_batch]
  · split
    · rfl
    · rw [afterDrive_eq, withOp_batch]

theorem stepConnecting_batch [Inhabited V] {c : Connection} {choice : Choice}
    {stage : ConnectionStage N} (h : s.stepConnecting op c choice stage = some s') :
    s'.batch = s.batch := by
  cases stage with
  | catalogReserved | publishReserved | installed observed =>
    simp only [stepConnecting] at h
    split at h
    · cases h
      rfl
    · split at h
      · cases h
      · split at h <;> cases h <;> rfl
  | committing observed epoch =>
    cases h
    unfold stepCommitConnection
    refine orAbort_batch _ _ _ ?_
    rintro ⟨core, result⟩
    dsimp only
    split
    · rfl
    · split <;> rfl
  | finishing attempt =>
    simp only [stepConnecting] at h
    split at h
    · cases h
      rfl
    · split at h <;> cases h <;> rfl
  | rollingBack =>
    simp only [stepConnecting] at h
    split at h
    · cases h
    · cases h
      exact orAbort_batch _ _ _ fun _ => rfl

theorem stepOperation_batch [BEq V] [Inhabited V] {choice : Choice} {o : Operation V N}
    (h : s.stepOperation op choice o = some s') :
    s'.batch = s.batch ∨ s'.batch = State.startBatch s.batch s.core.planRefresh.2 := by
  cases o with
  | publish sink value stage =>
    left
    cases stage with
    | entered =>
      cases h
      exact stepLoad_batch s op _
    | loaded epoch => exact stepLock_batch h
    | locked epoch =>
      simp only [stepOperation, stepPublish] at h
      split at h <;> cases h <;> rfl
  | publishBatch sink value rest stage =>
    left
    cases stage with
    | entered =>
      cases h
      exact stepLoad_batch s op _
    | loaded epoch => exact stepLock_batch h
    | locked epoch =>
      cases h
      exact stepBatchLocked_batch s op sink value rest epoch choice
  | notifying epoch after =>
    left
    simp only [stepOperation] at h
    split at h
    · cases h
      rw [afterPrepare_eq, withOp_batch]
    · cases h
      rfl
  | notifyingSlow after =>
    cases h
    exact .inl (stepSection_batch s op after _)
  | driving attempt after =>
    cases h
    exact .inl (stepDriving_batch s op attempt after choice)
  | connecting c stage => exact .inl (stepConnecting_batch h)
  | request request =>
    cases h
    cases request with
    | attach notifier | pulse => exact .inl (stepSection_batch s op .done _)
    | planRefresh => exact .inr rfl

theorem finishTermination_batch (h : s.finishTermination = some s') : s'.batch = s.batch := by
  unfold finishTermination at h
  simp only [bind_eq_bind, bind_eq_some_iff, some.injEq] at h
  obtain ⟨active, -, queued, -, rfl⟩ := h
  rfl

theorem stepTerminate_batch (h : s.stepTerminate = some s') : s'.batch = s.batch := by
  unfold stepTerminate at h
  split at h
  · cases h
    rfl
  · cases h
    rfl
  · cases h
    rfl
  · split at h
    · dsimp only at h
      split at h
      · cases h
      · cases h
        exact orAbort_batch _ _ _ fun _ => rfl
    · cases h
      rfl
  · cases h
    rfl
  · cases h
    rfl
  · generalize hfinish : s.finishTermination = result at h
    split at h
    · rw [some.injEq] at h
      subst h
      cases result with
      | none => rfl
      | some s' => exact finishTermination_batch hfinish
    · cases h
  · cases h

/-- **The others leave the batch alone**; one of them may plan the refresh. -/
theorem batch_of_others [BEq V] [Inhabited V] (h : State.step s action = some s')
    (hothers : action.ofRefresh = false) :
    s'.batch = s.batch ∨ s'.batch = State.startBatch s.batch s.core.planRefresh.2 := by
  unfold State.step at h
  split at h
  · cases h
  · cases action with
    | enterPublish op sink value | enterPublishBatch op sink value rest =>
      simp only [admitOperation] at h
      split at h <;> cases h
      exact .inl rfl
    | enterConnect op t id | enterRequest op request =>
      simp only [stepEnterConnect, admitOperation] at h
      split at h
      · split at h <;> cases h
        exact .inl rfl
      · cases h
    | advance op choice =>
      obtain ⟨o, -, ho⟩ := bind_eq_some_iff.mp h
      exact stepOperation_batch ho
    | disconnect t | releaseForeignActive | releaseForeignQueued =>
      simp only [] at h
      split at h <;> cases h
      exact .inl (orAbort_batch _ _ _ fun _ => rfl)
    | detachNotifier =>
      cases h
      exact .inl rfl
    | terminate => exact .inl (stepTerminate_batch h)
    | acquireForeignActive | acquireForeignQueued =>
      obtain ⟨quota, -, rfl⟩ := map_eq_some_iff.mp h
      exact .inl rfl
    | takeForeignGeneration =>
      obtain ⟨generation, -, rfl⟩ := map_eq_some_iff.mp h
      exact .inl rfl
    | collect | abandonPlan op | complete outcome | completeNext | finishRefresh op => cases hothers

/-- **Everything a step of the refresh can do.** -/
inductive RefreshStep (s : State V N) (action : Action V N) (s' : State V N) : Prop
  | collected (batch : RefreshBatch V) (index : ShardIndex) (remaining : List ShardIndex)
      (hbefore : s.batch = some batch) (hstage : batch.stage = .collecting (index :: remaining))
      (hcore : s'.core = (s.core.collectShard index batch.updates).1)
      (hbatch : s'.batch = some ⟨batch.plan, (s.core.collectShard index batch.updates).2,
        .collecting remaining⟩)
      (hhistory : s'.history = s.history)
  | completing (batch : RefreshBatch V) (outcome : RefreshOutcome) (ticketError : Bool)
      (haction : outcome = .failed ∨ action = .complete outcome) (hbefore : s.batch = some batch)
      (hcheck : s.core.checkRefresh batch.plan.refreshId = .ok ticketError)
      (hcore : s'.core = s.core)
      (hbatch : s'.batch = some { batch with
        stage := .completing (if ticketError then .failed else outcome) ticketError })
      (hhistory : s'.history = s.history)
  | mismatched (batch : RefreshBatch V) (error : XllError) (hbefore : s.batch = some batch)
      (hcheck : s.core.checkRefresh batch.plan.refreshId = .error error)
  | completed (batch : RefreshBatch V) (updates : List (RtdUpdate V)) (update : RtdUpdate V)
      (outcome : RefreshOutcome) (ticketError : Bool) (hbefore : s.batch = some batch)
      (hstage : batch.stage = .completing outcome ticketError)
      (hupdates : batch.updates = updates ++ [update])
      (hcomplete : s.core.completeUpdate outcome update = some s'.core)
      (hbatch : s'.batch = some { batch with updates })
      (hhistory : s'.history = s.history.deliver update outcome)
  /-- A batch that holds nothing any more is gone. -/
  | ended (batch : RefreshBatch V) (hbefore : s.batch = some batch) (hempty : batch.updates = [])
      (hdata : SameData s.core s'.core) (hbatch : s'.batch = none) (hhistory : s'.history = s.history)
  | aborted (haborted : s'.aborted = true)

theorem stepComplete_cases {batch : RefreshBatch V} {outcome : RefreshOutcome}
    (hbefore : s.batch = some batch) (haction : outcome = .failed ∨ action = .complete outcome) :
    RefreshStep s action (s.stepComplete batch outcome) := by
  unfold stepComplete
  split
  · next error hcheck => exact .mismatched batch error hbefore hcheck
  · next ticketError hcheck =>
    exact .completing batch outcome ticketError haction hbefore hcheck rfl rfl rfl

theorem step_ofRefresh [BEq V] [Inhabited V] (h : State.step s action = some s')
    (hown : action.ofRefresh = true) : RefreshStep s action s' := by
  unfold State.step at h
  split at h
  · cases h
  · cases action with
    | collect =>
      obtain ⟨batch, hbefore, h⟩ := bind_eq_some_iff.mp h
      unfold stepCollect at h
      split at h
      · next index remaining hstage =>
        split at h
        · cases h
        · cases h
          exact .collected batch index remaining hbefore hstage rfl rfl rfl
      · cases h
    | abandonPlan op =>
      obtain ⟨batch, hbefore, h⟩ := bind_eq_some_iff.mp h
      split at h
      · split at h
        · cases h
        · cases h
          unfold stepAbandonPlan
          split
          · exact stepComplete_cases hbefore (.inl rfl)
          · next hempty =>
            dsimp only
            refine .ended batch hbefore hempty ?_ ?_ ?_
            · have hdata := s.core.abortEmptyRefresh_data batch.plan.refreshId
              unfold driveDetached
              split <;> exact hdata
            · unfold driveDetached
              split <;> rfl
            · unfold driveDetached
              split <;> rfl
      · cases h
    | complete outcome =>
      obtain ⟨batch, hbefore, h⟩ := bind_eq_some_iff.mp h
      split at h
      · cases h
        exact stepComplete_cases hbefore (.inr rfl)
      · cases h
    | completeNext =>
      obtain ⟨batch, hbefore, h⟩ := bind_eq_some_iff.mp h
      unfold stepCompleteNext at h
      split at h
      · next outcome ticketError update hstage hlast =>
        split at h
        · cases h
        · cases h
          unfold orAbort
          cases hcomplete : s.core.completeUpdate outcome update with
          | none => exact .aborted rfl
          | some core =>
            exact .completed batch batch.updates.dropLast update outcome ticketError hbefore hstage
              (dropLast_append_getLast? update hlast).symm hcomplete rfl rfl
      · cases h
    | finishRefresh op =>
      simp only [] at h
      split at h
      · cases h
      · obtain ⟨batch, hbefore, h⟩ := bind_eq_some_iff.mp h
        unfold stepFinishRefresh at h
        split at h
        · next outcome ticketError hstage hempty =>
          have hdata := s.core.finishRefresh_data batch.plan.refreshId ticketError
          split at h
          · next core attempt heq =>
            rw [heq] at hdata
            cases h
            refine .ended batch hbefore hempty ?_ ?_ ?_
            · unfold driveDetached
              split <;> exact hdata
            · unfold driveDetached
              split <;> rfl
            · unfold driveDetached
              split <;> rfl
          · next core error heq =>
            rw [heq] at hdata
            cases h
            exact .ended batch hbefore hempty hdata rfl rfl
        · cases h
    | _ => cases hown

-- ---- What a failing refresh leaves of a topic.

/-- A batch is handed in as delivered. -/
def Action.delivers : Action V N → Bool
  | .complete .delivered => true
  | _ => false

/-- No refresh succeeds: a batch handed in as delivered finds no ticket left. -/
def Fails (s : State V N) (action : Action V N) : Prop :=
  action.delivers = true → s.core.refresh.ensureNotificationTicket ≠ .ok ()

instance (s : State V N) (action : Action V N) : Decidable (Fails s action) :=
  inferInstanceAs (Decidable (_ → _ ≠ _))

/-- A step of anybody but the refresh leaves the topic as it is: no publication to it, no
connection and no disconnection of it. -/
def Undisturbed [BEq V] [Inhabited V] (t : TopicId) (s : State V N) (action : Action V N) : Prop :=
  action.ofRefresh = true ∨ ∀ s', State.step s action = some s' →
    s'.core.active? t = s.core.active? t ∧ s'.core.queued? t = s.core.queued? t

/-- The subscription of a topic with the value the batch holds back in its slot. -/
def putBack (taken : List (RtdUpdate V)) (t : TopicId) (active : Option (ActiveSubscription V)) :
    Option (ActiveSubscription V) :=
  match taken.find? (·.topicId = t) with
  | some u => active.map (·.returned .failed u)
  | none => active

/-- A batch that is being completed gives its values back. -/
def GivesBack (batch : Option (RefreshBatch V)) : Prop :=
  ∀ b outcome ticketError, batch = some b → b.stage = .completing outcome ticketError →
    outcome = .failed

/-- What the topic was before, it is again once the batch has given its value back. -/
structure Kept (t : TopicId) (s₀ s : State V N) : Prop where
  queued : s.core.queued? t = s₀.core.queued? t
  active : putBack (batchUpdates s.batch) t (s.core.active? t) = s₀.core.active? t

/-- **A value taken and given back** is where it was. -/
theorem returned_of_taken {a : ActiveSubscription V} {u : RtdUpdate V}
    (hgeneration : a.generation = u.connectionGeneration)
    (hslot : a.values u.buffer = residentOf u) :
    (a.setSlot u.buffer (.inFlight u.connectionGeneration u.sequence)).returned .failed u = a := by
  have howns : ownsSlot
      (a.setSlot u.buffer (.inFlight u.connectionGeneration u.sequence)) u = true := by
    unfold ownsSlot ActiveSubscription.setSlot
    simp [hgeneration]
  unfold ActiveSubscription.returned
  rw [if_pos howns]
  unfold ActiveSubscription.setSlot returnedSlot
  cases a
  simp only [Function.update_idem, ActiveSubscription.mk.injEq, true_and, and_true]
  rw [← hslot, Function.update_eq_self]

theorem putBack_append (hnone : ∀ u ∈ taken, u.topicId ≠ t) (more : List (RtdUpdate V))
    (active : Option (ActiveSubscription V)) :
    putBack (taken ++ more) t active = putBack more t active := by
  have hfind : taken.find? (·.topicId = t) = none :=
    find?_eq_none.mpr fun u hu => by simpa using hnone u hu
  rw [putBack, putBack, find?_append, hfind, none_or]

theorem putBack_of_none (hnone : ∀ u ∈ taken, u.topicId ≠ t)
    (active : Option (ActiveSubscription V)) : putBack taken t active = active := by
  have happend := putBack_append hnone [] active
  rwa [append_nil] at happend

theorem putBack_append_other {more : List (RtdUpdate V)} (hnone : ∀ u ∈ more, u.topicId ≠ t)
    (active : Option (ActiveSubscription V)) :
    putBack (taken ++ more) t active = putBack taken t active := by
  have hfind : more.find? (·.topicId = t) = none :=
    find?_eq_none.mpr fun u hu => by simpa using hnone u hu
  rw [putBack, putBack, find?_append, hfind, or_none]

theorem Ordered.batch_of_others [BEq V] [Inhabited V] (h : Ordered s)
    (hstep : State.step s action = some s') (hothers : action.ofRefresh = false) :
    s'.batch = s.batch ∨ s.batch = none ∧
      ∃ plan : RefreshPlan, s'.batch = some ⟨plan, [], .collecting plan.shards⟩ := by
  rcases Subscription.batch_of_others hstep hothers with hsame | hstart
  · exact .inl hsame
  · exact h.startBatch hstart

variable {s₀ : State V N}

section

variable [BEq V] [Inhabited V]

/-- **One step leaves the topic as it was**, its value in the slot or in the batch. -/
theorem Kept.step (hkept : Kept t s₀ s) (h : Ordered s) (hwf : Accounted s)
    (hback : GivesBack s.batch) (hstep : State.step s action = some s') (hopen : s'.aborted = false)
    (hundisturbed : Undisturbed t s action) : Kept t s₀ s' := by
  by_cases hown : action.ofRefresh = true
  · cases step_ofRefresh hstep hown with
    | collected batch index remaining hbefore hstage hcore hbatch hhistory =>
      obtain ⟨taken, htaken, hcollected⟩ := collectShard_collected hwf.core index batch.updates
      have hbefore' : batchUpdates s.batch = batch.updates := by rw [hbefore]; rfl
      have hafter : batchUpdates s'.batch = batch.updates ++ taken := by rw [hbatch, ← htaken]; rfl
      refine ⟨by rw [hcore, hcollected.queued t, hkept.queued], ?_⟩
      rw [← hkept.active, hafter, hbefore', hcore]
      by_cases ht : ∃ u ∈ taken, u.topicId = t
      · obtain ⟨u, hu, rfl⟩ := ht
        obtain ⟨hfresh, a, ha, hgeneration, hslot, hactive⟩ :=
          resident_of_collected h hwf hbefore hstage htaken hcollected hu
        have hfind : taken.find? (·.topicId = u.topicId) = some u := by
          have hsome : (taken.find? (·.topicId = u.topicId)).isSome = true :=
            find?_isSome.mpr ⟨u, hu, by simp⟩
          obtain ⟨u', hu'⟩ := isSome_iff_exists.mp hsome
          have htopic : u'.topicId = u.topicId := by simpa using find?_some hu'
          have hsame : u' = u := inj_on_of_nodup_map hcollected.topics
            (mem_of_find?_eq_some hu') hu htopic
          rw [hu', hsame]
        rw [putBack_append hfresh, putBack_of_none hfresh, putBack, hfind, ha, hactive]
        exact congrArg some (returned_of_taken hgeneration hslot)
      · have hother : ∀ u ∈ taken, u.topicId ≠ t := fun u hu heq => ht ⟨u, hu, heq⟩
        rw [putBack_append_other hother, hcollected.kept t hother]
    | completing batch outcome ticketError haction hbefore hcheck hcore hbatch hhistory =>
      have hupdates : batchUpdates s'.batch = batchUpdates s.batch := by
        rw [hbatch, hbefore]
        rfl
      exact ⟨by rw [hcore, hkept.queued], by rw [hcore, hupdates, hkept.active]⟩
    | mismatched batch error hbefore hcheck => exact absurd hcheck (h.not_mismatched hbefore error)
    | completed batch updates u outcome ticketError hbefore hstage hupdates hcomplete hbatch
        hhistory =>
      have hfailed := hback batch outcome ticketError hbefore hstage
      subst hfailed
      have hcore : s.core.restoreSlot u (returnedSlot .failed u) = s'.core := some.inj hcomplete
      have htouches := restoreSlot_touches s.core .failed u
      rw [hcore] at htouches
      have hbefore' : batchUpdates s.batch = updates ++ [u] := by rw [hbefore, ← hupdates]; rfl
      have hafter : batchUpdates s'.batch = updates := by rw [hbatch]; rfl
      have hnodup := (h.batch batch hbefore).topics
      rw [hupdates, map_append, nodup_append] at hnodup
      obtain ⟨-, -, hfresh⟩ := hnodup
      have hfresh : ∀ u' ∈ updates, u'.topicId ≠ u.topicId := fun u' hu' =>
        hfresh u'.topicId (List.mem_map_of_mem hu') u.topicId mem_cons_self
      by_cases ht : t = u.topicId
      · subst ht
        refine ⟨?_, ?_⟩
        · rw [← hkept.queued]
          exact htouches.queued
        · rw [← hkept.active, hbefore', hafter, putBack_append hfresh, putBack_of_none hfresh]
          have hfind : [u].find? (·.topicId = u.topicId) = some u := by simp
          rw [putBack, hfind]
          exact htouches.active
      · refine ⟨?_, ?_⟩
        · rw [← hkept.queued]
          exact htouches.otherQueued t ht
        · have hother : ∀ u' ∈ [u], u'.topicId ≠ t := by
            intro u' hu' heq
            rw [mem_singleton.mp hu'] at heq
            exact ht heq.symm
          rw [← hkept.active, hbefore', hafter, putBack_append_other hother]
          exact congrArg (putBack updates t) (htouches.otherActive t ht)
    | ended batch hbefore hempty hdata hbatch hhistory =>
      have hupdates : batchUpdates s'.batch = batchUpdates s.batch := by
        rw [hbatch, hbefore]
        exact hempty.symm
      refine ⟨?_, ?_⟩
      · rw [← hkept.queued]
        funext b
        rw [queued?, hdata.shards]
        rfl
      · rw [← hkept.active, hupdates, active?, hdata.shards]
        rfl
    | aborted haborted =>
      rw [hopen] at haborted
      cases haborted
  · have hothers : action.ofRefresh = false := Bool.eq_false_iff.mpr hown
    obtain ⟨hactive, hqueued⟩ := hundisturbed.resolve_left hown s' hstep
    have hupdates : batchUpdates s'.batch = batchUpdates s.batch := by
      rcases h.batch_of_others hstep hothers with hsame | ⟨hnone, plan, hsome⟩
      · rw [hsame]
      · rw [hnone, hsome]
        rfl
    exact ⟨by rw [hqueued, hkept.queued], by rw [hactive, hupdates, hkept.active]⟩

/-- **A run without a delivery** stays one. -/
theorem GivesBack.step (hback : GivesBack s.batch) (h : Ordered s)
    (hstep : State.step s action = some s') (hopen : s'.aborted = false)
    (hfails : Fails s action) : GivesBack s'.batch := by
  by_cases hown : action.ofRefresh = true
  · cases step_ofRefresh hstep hown with
    | collected batch index remaining hbefore hstage hcore hbatch hhistory =>
      intro b outcome ticketError hb hbstage
      rw [hbatch] at hb
      cases hb
      cases hbstage
    | completing batch outcome ticketError haction hbefore hcheck hcore hbatch hhistory =>
      intro b outcome' ticketError' hb hbstage
      rw [hbatch] at hb
      cases hb
      cases hbstage
      cases htickets : ticketError with
      | true => rfl
      | false =>
        rcases haction with hfailed | rfl
        · rw [hfailed]
          rfl
        · cases outcome with
          | failed => rfl
          | delivered =>
            have hrunning := h.running
            rw [hbefore, map_some] at hrunning
            unfold checkRefresh at hcheck
            rw [s.core.refresh.phase_of_running hrunning] at hcheck
            dsimp only at hcheck
            rw [if_neg (not_not.mpr rfl), htickets] at hcheck
            split at hcheck
            · next hticket => exact absurd hticket (hfails rfl)
            · cases hcheck
    | mismatched batch error hbefore hcheck => exact absurd hcheck (h.not_mismatched hbefore error)
    | completed batch updates u outcome ticketError hbefore hstage hupdates hcomplete hbatch
        hhistory =>
      intro b outcome' ticketError' hb hbstage
      rw [hbatch] at hb
      cases hb
      exact hback batch outcome' ticketError' hbefore hbstage
    | ended batch hbefore hempty hdata hbatch hhistory =>
      intro b outcome ticketError hb
      rw [hbatch] at hb
      cases hb
    | aborted haborted =>
      rw [hopen] at haborted
      cases haborted
  · rcases h.batch_of_others hstep (Bool.eq_false_iff.mpr hown) with hsame | ⟨hnone, plan, hsome⟩
    · rw [hsame]
      exact hback
    · intro b outcome ticketError hb hbstage
      rw [hsome] at hb
      cases hb
      cases hbstage

/-- **A failing refresh delivers nothing.** -/
theorem delivered_of_fails (h : Ordered s) (hwf : Accounted s) (hback : GivesBack s.batch)
    (hstep : State.step s action = some s') (hopen : s'.aborted = false) :
    s'.history.delivered = s.history.delivered := by
  by_cases hown : action.ofRefresh = true
  · cases step_ofRefresh hstep hown with
    | collected batch index remaining hbefore hstage hcore hbatch hhistory => rw [hhistory]
    | completing batch outcome ticketError haction hbefore hcheck hcore hbatch hhistory =>
      rw [hhistory]
    | mismatched batch error hbefore hcheck => exact absurd hcheck (h.not_mismatched hbefore error)
    | completed batch updates u outcome ticketError hbefore hstage hupdates hcomplete hbatch
        hhistory =>
      rw [hhistory, hback batch outcome ticketError hbefore hstage]
      rfl
    | ended batch hbefore hempty hdata hbatch hhistory => rw [hhistory]
    | aborted haborted =>
      rw [hopen] at haborted
      cases haborted
  · have hbatch := h.batch_of_others hstep (Bool.eq_false_iff.mpr hown)
    cases step_effect hstep
    case published outcome _ _ _ _ hhistory _ _ _ _ =>
      rw [hhistory]
      cases outcome <;> rfl
    case committed observed _ _ result _ _ _ _ hhistory _ _ _ _ =>
      rw [hhistory]
      cases result with
      | error error => rfl
      | ok hasPending => cases observed <;> rfl
    case completed batch updates u outcome ticketError _ hbefore _ hupdates _ hafter _ _ =>
      rcases hbatch with hsame | ⟨hnone, -⟩
      · rw [hafter, hbefore] at hsame
        have hlength := congrArg (fun b => (batchUpdates b).length) hsame
        simp [batchUpdates, hupdates] at hlength
      · rw [hbefore] at hnone
        cases hnone
    case finished hfinish =>
      unfold finishTermination at hfinish
      simp only [bind_eq_bind, bind_eq_some_iff, some.injEq] at hfinish
      obtain ⟨active, -, queued, -, rfl⟩ := hfinish
      rfl
    case aborted hsection => exact absurd hsection hwf.no_abort
    all_goals exact congrArg History.delivered ‹s'.history = s.history›

end

-- ---- Runs.

/-- The newest value accepted for a connection. -/
def newestAccepted (log : List (UpdateRecord × V)) (t : TopicId) (g : ConnectionGeneration) :
    Option (UpdateRecord × V) :=
  log.find? fun e => decide (e.1.topicId = t) && decide (e.1.generation = g)

theorem newestAccepted_spec {log : List (UpdateRecord × V)} {g : ConnectionGeneration}
    {r : UpdateRecord} {value : V} (hrecords : log.map (·.1) = s.history.accepted)
    (h : newestAccepted log t g = some (r, value)) :
    r = ⟨t, g, r.sequence⟩ ∧ s.history.lastAccepted t g = some r.sequence ∧ (r, value) ∈ log := by
  refine ⟨?_, ?_, mem_of_find?_eq_some h⟩
  · have hmatch := find?_some h
    rw [Bool.and_eq_true, decide_eq_true_eq, decide_eq_true_eq] at hmatch
    obtain ⟨rfl, rfl⟩ := hmatch
    rfl
  · have hhead : (connectionRecords t g s.history.accepted).head? =
        (newestAccepted log t g).map (·.1) := by
      rw [connectionRecords, head?_filter, ← hrecords, find?_map]
      rfl
    rw [History.lastAccepted, hhead, h]
    rfl

theorem Ordered.accepted_nodup (h : Ordered s) : s.history.accepted.Nodup := by
  rw [nodup_iff_count_le_one]
  intro r
  have hpairwise : (s.history.accepted.filter (·.topicId = r.topicId)).Pairwise (· ≠ ·) := by
    refine List.Pairwise.imp ?_ (pairwise_map.mp (h.topics r.topicId).acceptedOrder)
    rintro r₁ r₂ hnewer rfl
    exact Nat.lt_irrefl _ (hnewer rfl)
  have hcount := nodup_iff_count_le_one.mp hpairwise r
  rwa [count_filter (by simp)] at hcount

theorem Valued.eq_of_mem {log : List (UpdateRecord × V)} (h : Valued log s) (hordered : Ordered s)
    {r : UpdateRecord} {value value' : V} (hmem : (r, value) ∈ log) (hmem' : (r, value') ∈ log) :
    value = value' := by
  have hnodup : (log.map (·.1)).Nodup := h.records ▸ hordered.accepted_nodup
  exact (Prod.mk.inj (inj_on_of_nodup_map hnodup hmem hmem' rfl)).2

section

variable [BEq V] [Inhabited V]

/-- The invariants of an open server, which was open before if it is open now. -/
theorem sound_step (hsound : s.core.lifecycle = .opened → Ordered s ∧ Accounted s)
    (hstep : State.step s action = some s') (hopen : s'.core.lifecycle = .opened) :
    (Ordered s ∧ Accounted s ∧ s.core.lifecycle = .opened) ∧ Ordered s' ∧ Accounted s' := by
  have heffect := step_effect hstep
  have hbefore := heffect.opened hopen
  obtain ⟨hordered, hwf⟩ := hsound hbefore
  exact ⟨⟨hordered, hwf, hbefore⟩, hordered.step hwf hbefore heffect,
    hwf.step (hwf.resetsEmpty hbefore action) heffect⟩

variable {actions : List (Action V N)}

/-- **The log of a run**, by induction over it. -/
theorem Valued.run : ∀ {s t : State V N} {log : List (UpdateRecord × V)},
      (s.core.lifecycle = .opened → Ordered s ∧ Accounted s ∧ Valued log s) →
      Lib.run State.step s actions = some t → t.core.lifecycle = .opened →
      Ordered t ∧ Accounted t ∧ Valued (acceptedLog s actions ++ log) t := by
  induction actions with
  | nil =>
    intro s t log h hrun hopen
    cases hrun
    exact h hopen
  | cons action actions ih =>
    intro s t log h hrun hopen
    obtain ⟨u, hu, hrest⟩ := bind_eq_some_iff.mp hrun
    have hlog : acceptedLog s (action :: actions) ++ log =
        acceptedLog u actions ++ (s.acceptedBy action ++ log) := by
      rw [acceptedLog, hu, append_assoc]
    rw [hlog]
    refine ih ?_ hrest hopen
    intro hopen'
    obtain ⟨⟨hordered, hwf, hbefore⟩, hordered', hwf'⟩ :=
      sound_step (fun hopen => ⟨(h hopen).1, (h hopen).2.1⟩) hu hopen'
    exact ⟨hordered', hwf', (h hbefore).2.2.step hordered hwf hbefore hu⟩

/-- **A run in which every refresh fails**: nothing is delivered. -/
theorem run_fails (hordered : Ordered s₀) (hwf : Accounted s₀) (hidle : s₀.batch = none)
    (hrun : Lib.run State.step s₀ actions = some s) (hfails : Meets State.step Fails s₀ actions)
    (hopen : s.core.lifecycle = .opened) : s.history.delivered = s₀.history.delivered := by
  refine (run_invariant_of_meets (I := fun s : State V N => s.core.lifecycle = .opened →
    (Ordered s ∧ Accounted s) ∧ GivesBack s.batch ∧
      s.history.delivered = s₀.history.delivered) ?_ actions s₀ s ?_ hfails hrun hopen).2.2
  · intro s action s' hI hfail hstep hopen'
    obtain ⟨⟨hordered, hwf, hbefore⟩, hordered', hwf'⟩ :=
      sound_step (fun hopen => (hI hopen).1) hstep hopen'
    obtain ⟨-, hback, hdelivered⟩ := hI hbefore
    exact ⟨⟨hordered', hwf'⟩, hback.step hordered hstep hwf'.aborted hfail,
      (delivered_of_fails hordered hwf hback hstep hwf'.aborted).trans hdelivered⟩
  · intro _
    refine ⟨⟨hordered, hwf⟩, ?_, rfl⟩
    intro b outcome ticketError hb
    rw [hidle] at hb
    cases hb

/-- **And a topic nobody else touches stays what it was.** -/
theorem run_kept (hordered : Ordered s₀) (hwf : Accounted s₀) (hidle : s₀.batch = none)
    (hrun : Lib.run State.step s₀ actions = some s) (hfails : Meets State.step Fails s₀ actions)
    (hundisturbed : Meets State.step (Undisturbed t) s₀ actions)
    (hopen : s.core.lifecycle = .opened) : Kept t s₀ s := by
  refine (run_invariant_of_meets (I := fun s : State V N => s.core.lifecycle = .opened →
    (Ordered s ∧ Accounted s) ∧ GivesBack s.batch ∧ Kept t s₀ s) ?_ actions s₀ s ?_
      (hfails.and hundisturbed) hrun hopen).2.2
  · rintro s action s' hI ⟨hfail, hothers⟩ hstep hopen'
    obtain ⟨⟨hordered, hwf, hbefore⟩, hordered', hwf'⟩ :=
      sound_step (fun hopen => (hI hopen).1) hstep hopen'
    obtain ⟨-, hback, hkept⟩ := hI hbefore
    exact ⟨⟨hordered', hwf'⟩, hback.step hordered hstep hwf'.aborted hfail,
      hkept.step hordered hwf hback hstep hwf'.aborted hothers⟩
  · intro _
    refine ⟨⟨hordered, hwf⟩, ?_, rfl, ?_⟩
    · intro b outcome ticketError hb
      rw [hidle] at hb
      cases hb
    · rw [hidle]
      rfl

variable {activeQuota queuedUpdateQuota : Quota} {nextGeneration : Nat}

/-- **What is handed out was accepted.** On an open server a value in the batch or in a slot is the
one value accepted under its sequence, a delivered update was accepted, and what is pending or in
flight is newer than what was delivered for its connection. -/
theorem values_accepted
    (hrun : Lib.run State.step (State.init activeQuota queuedUpdateQuota nextGeneration) actions =
      some s) (hopen : s.core.lifecycle = .opened) :
    (∀ u ∈ batchUpdates s.batch, ∀ value, (⟨u.topicId, u.connectionGeneration, u.sequence⟩, value) ∈
      acceptedLog (State.init activeQuota queuedUpdateQuota nextGeneration) actions ↔
        value = u.value) ∧
    (∀ t a b v, s.core.active? t = some a → a.values b = .resident v →
      ∀ value, (⟨t, v.generation, v.sequence⟩, value) ∈
        acceptedLog (State.init activeQuota queuedUpdateQuota nextGeneration) actions ↔
          value = v.value) ∧
    ∀ r ∈ s.history.delivered, r ∈ s.history.accepted ∧
      (∀ b q, s.core.queued? r.topicId b = some q → q.connectionGeneration = r.generation →
        r.sequence < q.sequence) ∧
      ∀ u ∈ batchUpdates s.batch, u.topicId = r.topicId → u.connectionGeneration = r.generation →
        r.sequence < u.sequence := by
  obtain ⟨h, -, hvalued⟩ := Valued.run (fun _ => ⟨Ordered.init _ _ _, Accounted.init _ _ _, map_nil,
    (by rintro t a b v ⟨⟩), (by rintro u ⟨⟩)⟩) hrun hopen
  rw [append_nil] at hvalued
  refine ⟨fun u hu value => ⟨fun hmem => hvalued.eq_of_mem h hmem (hvalued.batch u hu), ?_⟩,
    fun t a b v ha hv value => ⟨fun hmem => hvalued.eq_of_mem h hmem (hvalued.slots t a b v ha hv), ?_⟩,
    fun r hr => ?_⟩
  · rintro rfl
    exact hvalued.batch u hu
  · rintro rfl
    exact hvalued.slots t a b v ha hv
  · have htopic := h.topics r.topicId
    have hdelivered : ⟨r.generation, r.sequence⟩ ∈ (s.view r.topicId).delivered :=
      mem_recordsOf.mpr hr
    exact ⟨mem_recordsOf.mp (htopic.delivered _ hdelivered),
      fun b q hq => htopic.queuedNewer b q hq _ hdelivered,
      fun u hu ht => htopic.takenNewer u (mem_filter.mpr ⟨hu, decide_eq_true ht⟩) _ hdelivered⟩

/-- **A failed refresh restores everything.** From any state without a refresh, let refreshes be
planned and fail in any of the ways there are: the plan is dropped part-way through the shards, the
batch is completed as failed or dropped, or it is handed in as delivered when no ticket is left.
Other operations may interleave as they like. When the last of these refreshes is over and the
server still open:

* the phase is between refreshes, and nothing has been delivered;
* a topic nobody else has touched has the pending entries and the slots it had before, and the next
  refresh takes for it what a refresh would have taken then;
* of every committed connection the newest accepted value was delivered before, was seen by the
  connecting caller, or is pending and resident, whatever was published meanwhile. -/
theorem failed_refresh_restores {before : List (Action V N)}
    (hbefore : Lib.run State.step (State.init activeQuota queuedUpdateQuota nextGeneration) before =
      some s₀) (hidle : s₀.batch = none) (hrun : Lib.run State.step s₀ actions = some s)
    (hfails : Meets State.step Fails s₀ actions) (hended : s.batch = none)
    (hopen : s.core.lifecycle = .opened) :
    (∃ signal, s.core.refresh.phase = .betweenRefreshes signal) ∧
    s.history.delivered = s₀.history.delivered ∧
    (∀ t, Meets State.step (Undisturbed t) s₀ actions →
      s.core.queued? t = s₀.core.queued? t ∧ s.core.active? t = s₀.core.active? t ∧
      ∀ first next, s₀.core.beginRefresh.2 = .ok first → s.core.beginRefresh.2 = .ok next →
        ∀ u : RtdUpdate V, u.topicId = t → (u ∈ next ↔ u ∈ first)) ∧
    ∀ t a r value, s.core.active? t = some a → a.committed = true →
      newestAccepted (acceptedLog (State.init activeQuota queuedUpdateQuota nextGeneration)
        (before ++ actions)) t a.generation = some (r, value) →
      r ∈ s₀.history.delivered ∨ r ∈ s.history.observed ∨
      ∃ b, s.core.queued? t b = some ⟨a.generation, r.sequence⟩ ∧
        (∀ b' q, s.core.queued? t b' = some q → q.sequence ≤ r.sequence) ∧
        a.values b = .resident ⟨a.generation, r.sequence, value⟩ := by
  have hwhole : Lib.run State.step (State.init activeQuota queuedUpdateQuota nextGeneration)
      (before ++ actions) = some s := by
    rw [run_append, hbefore]
    exact hrun
  have hinit : Ordered (State.init activeQuota queuedUpdateQuota nextGeneration : State V N) ∧
      Accounted (State.init activeQuota queuedUpdateQuota nextGeneration : State V N) ∧
      Valued [] (State.init activeQuota queuedUpdateQuota nextGeneration : State V N) :=
    ⟨Ordered.init _ _ _, Accounted.init _ _ _, rfl, (by rintro t a b v ⟨⟩), (by rintro u ⟨⟩)⟩
  obtain ⟨hordered, hwf, hvalued⟩ := Valued.run (fun _ => hinit) hwhole hopen
  have hopen₀ : s₀.core.lifecycle = .opened := by
    refine run_invariant (I := fun s : State V N => s.core.lifecycle = .opened →
      s₀.core.lifecycle = .opened) ?_ id hrun hopen
    exact fun s action s' hI hstep hopen => hI ((step_effect hstep).opened hopen)
  obtain ⟨hordered₀, hwf₀, -⟩ := Valued.run (fun _ => hinit) hbefore hopen₀
  have hdelivered := run_fails hordered₀ hwf₀ hidle hrun hfails hopen
  refine ⟨?_, hdelivered, ?_, ?_⟩
  · refine s.core.refresh.phase_of_not_running ?_
    rw [hordered.running, hended]
    rfl
  · intro t hundisturbed
    have hkept := run_kept hordered₀ hwf₀ hidle hrun hfails hundisturbed hopen
    have hactive : s.core.active? t = s₀.core.active? t := by
      have hback := hkept.active
      rwa [hended] at hback
    refine ⟨hkept.queued, hactive, ?_⟩
    rintro first next hfirst hnext u rfl
    have hready : (slackOf s).ready = true := hwf.lifecycle.mp hopen
    have hready₀ : (slackOf s₀).ready = true := hwf₀.lifecycle.mp hopen₀
    rw [mem_beginRefresh_iff hwf.core hready hnext, mem_beginRefresh_iff hwf₀.core hready₀ hfirst,
      deliverable?, deliverable?, hkept.queued, hactive]
  · intro t a r value ha hcommitted hnewest
    rw [append_nil] at hvalued
    obtain ⟨hr, hlast, hlogged⟩ := newestAccepted_spec hvalued.records hnewest
    rcases hordered.lastUpdate ha hlast with hd | ho | ⟨b, hb, hmax, hslot⟩
    · rw [← hr, hdelivered] at hd
      exact .inl hd
    · rw [← hr] at ho
      exact .inr (.inl ho)
    · refine .inr (.inr ⟨b, hb, hmax, ?_⟩)
      rcases hslot with ⟨⟨g, n, value'⟩, hslot, rfl, rfl⟩ | ⟨-, u, hu, -⟩
      · have hlogged' := hvalued.slots t a b _ ha hslot
        rw [← hr] at hlogged'
        rw [hslot, hvalued.eq_of_mem hordered hlogged hlogged']
      · have hmem : u ∈ batchUpdates s.batch := (mem_filter.mp hu).1
        rw [hended] at hmem
        cases hmem

end

theorem values_accepted_overtakenRun : ∃ s : State Nat Unit,
    run State.step (State.init ⟨3, 8⟩ ⟨0, 8⟩ 1) overtakenRun = some s ∧ ∀ u ∈ batchUpdates s.batch,
      (⟨u.topicId, u.connectionGeneration, u.sequence⟩, u.value) ∈
        acceptedLog (State.init ⟨3, 8⟩ ⟨0, 8⟩ 1) overtakenRun := by
  have hrun : (run State.step (State.init ⟨3, 8⟩ ⟨0, 8⟩ 1 : State Nat Unit) overtakenRun).any
      (decide <| ·.core.lifecycle = .opened) = true := by
    decide +kernel
  obtain ⟨s, hs, hopen⟩ := (Option.any_eq_true ..).mp hrun
  exact ⟨s, hs, fun u hu => ((values_accepted hs (of_decide_eq_true hopen)).1 u hu _).mpr rfl⟩

/-- A value is in flight, a newer one is published, and the batch is dropped. -/
def droppedRun : List (Action Nat Unit) :=
  List.flatten [[.enterRequest 3 .planRefresh, .advance 3 .proceed, .collect],
    [.enterPublish 4 ⟨⟨1⟩, ⟨1, Nat.one_ne_zero⟩⟩ 6], .replicate 3 (.advance 4 .proceed),
    [.complete .failed, .completeNext, .finishRefresh 5]]

theorem failed_refresh_restores_droppedRun : ∃ s₀ s : State Nat Unit,
      run State.step (State.init ⟨3, 8⟩ ⟨0, 8⟩ 1) (publishRun ++ .replicate 2 (.advance 2 .proceed)) =
        some s₀ ∧
      run State.step s₀ droppedRun = some s ∧ s.history.delivered = [] ∧
      ∃ a b, s.core.active? ⟨1⟩ = some a ∧
        s.core.queued? ⟨1⟩ b = some ⟨⟨1, Nat.one_ne_zero⟩, 1⟩ ∧
        a.values b = .resident ⟨⟨1, Nat.one_ne_zero⟩, 1, 6⟩ := by
  have hrun : ((run State.step (State.init ⟨3, 8⟩ ⟨0, 8⟩ 1 : State Nat Unit)
      (publishRun ++ .replicate 2 (.advance 2 .proceed))).bind fun s₀ =>
        (run State.step s₀ droppedRun).map fun s =>
          (s₀.batch.isNone && s.batch.isNone && decide (Meets State.step Fails s₀ droppedRun),
            decide (s.core.lifecycle = .opened ∧ s₀.history.delivered = [] ∧
              s.history.observed = []),
            decide (newestAccepted (acceptedLog (State.init ⟨3, 8⟩ ⟨0, 8⟩ 1)
              ((publishRun ++ .replicate 2 (.advance 2 .proceed)) ++ droppedRun)) ⟨1⟩
              ⟨1, Nat.one_ne_zero⟩ = some (⟨⟨1⟩, ⟨1, Nat.one_ne_zero⟩, 1⟩, 6)),
            (s.core.active? ⟨1⟩).any fun a => a.committed && a.generation.raw == 1)) =
      some (true, true, true, true) := by
    decide +kernel
  obtain ⟨s₀, hbefore, hrun⟩ := bind_eq_some_iff.mp hrun
  obtain ⟨s, hs, hcond⟩ := map_eq_some_iff.mp hrun
  simp only [Prod.mk.injEq, Bool.and_eq_true, decide_eq_true_eq, isNone_iff_eq_none]
    at hcond
  obtain ⟨⟨⟨hidle, hended⟩, hfails⟩, ⟨hopen, hnone, hobserved⟩, hnewest, hactive⟩ := hcond
  obtain ⟨a, ha, hcommitted⟩ := (Option.any_eq_true ..).mp hactive
  rw [Bool.and_eq_true] at hcommitted
  have hg : a.generation = ⟨1, Nat.one_ne_zero⟩ :=
    ConnectionGeneration.eq_of_raw (eq_of_beq hcommitted.2)
  obtain ⟨-, hdelivered, -, hpending⟩ :=
    failed_refresh_restores hbefore hidle hs hfails hended hopen
  refine ⟨s₀, s, hbefore, hs, hdelivered.trans hnone, ?_⟩
  rcases hpending ⟨1⟩ a _ 6 ha hcommitted.1 (hg ▸ hnewest) with hmem | hmem | ⟨b, hb, -, hslot⟩
  · rw [hnone] at hmem
    cases hmem
  · rw [hobserved] at hmem
    cases hmem
  · rw [hg] at hb hslot
    exact ⟨a, b, ha, hb, hslot⟩

end Xlfn.Subscription
