import Xlfn.Subscription.PublicationLedger

/-!
# Xlfn — the hand-off of a refresh batch

A publication marshals the updates of its batch into an array and hands the array over to the
output slots. Each call on the way may fail or unwind; the destructors of the locals then give up
the outputs, the array and the batch, in this order.
-/

namespace Xlfn.Subscription.Publication

open Xlfn.Lib Xlfn.Lib.Comp Xlfn.Kernel RefreshPublication StagedOutputs

variable {A D V N : Type} {host : Host A D V N} {w w' : World A D V N}

-- ---- Marshalling a batch.

/-- The publication ended before its outputs were staged. -/
structure Rejected (w : World A D V N) (updates : List (RtdUpdate V)) (w' : World A D V N) :
    Prop where
  disposed  : Disposed (arrays w'.history)
  outputs   : w'.outputs = w.outputs
  completed : CompletedOnce (batches w.history) w.core updates .failed (batches w'.history)

variable {updates : List (RtdUpdate V)}

theorem Settled.rejected {t u : World A D V N} (hsame : SameBatch w t)
    (hdisposed : Disposed (arrays t.history)) (h : Settled t updates .failed u) :
    Rejected w updates u where
  disposed  := by rw [h.same.arrays]; exact hdisposed
  outputs   := h.same.outputs.trans hsame.outputs
  completed := by
    have := h.completed
    rwa [hsame.batches, hsame.core] at this

/-- The process aborted while marshalling failed. -/
structure Broken (w w' : World A D V N) : Prop where
  disposed  : Disposed (arrays w'.history)
  requested : batches w'.history = batches w.history ∨
    Requested (batches w.history) .failed (batches w'.history)

theorem Interrupted.broken {t u : World A D V N} (hsame : SameBatch w t)
    (hdisposed : Disposed (arrays t.history)) (h : Interrupted t .failed u) : Broken w u where
  disposed  := by rw [h.same.arrays]; exact hdisposed
  requested := .inr (by
    have := h.requested
    rwa [hsame.batches] at this)

/-- **Preparing a publication** marshals the batch, or restores it once the array is disposed of. -/
theorem RefreshPublication.prepare_spec (host : Host A D V N) (w : World A D V N)
    (batch : Batch V) (hbatch : w.batch = some batch)
    (hfinished : batch.finished = false)
    (hrunning : w.core.refresh.running? = some batch.refreshId)
    (harrays : arrays w.history = absent) :
    wp (RefreshPublication.prepare host batch)
      ⟨fun r w' => (∃ array, r = .ok ⟨array, batch.updates.length⟩ ∧
            batch.updates.length ≤ i32Max ∧ (array = none ↔ batch.updates = []) ∧
            SameBatch w w' ∧ arrays w'.history = ledgerOf array) ∨
          (∃ e, r = .error e) ∧ Rejected w batch.updates w',
        Rejected w batch.updates, Broken w⟩ w := by
  simp only [RefreshPublication.prepare, wp_bind, wp_onUnwind]
  refine wp_mono (ReadyArray.prepare_spec batch.updates harrays) ?_ ?_ ?_
  · rintro r t ⟨hsame, ⟨array, rfl, hcount, hempty, ht⟩ | ⟨⟨e, rfl⟩, hdisposed⟩⟩
    · exact .inl ⟨array, rfl, hcount, hempty, hsame, ht⟩
    · simp only [wp_bind, wp_catchUnwind]
      refine wp_mono (Batch.abort_spec (hsame.batch.trans hbatch) (by rwa [hsame.core]))
        ?_ ?_ ?_
      · exact fun _ u hu => .inr ⟨⟨e, rfl⟩, hu.rejected hsame hdisposed⟩
      · exact fun u hu => .inr ⟨⟨e, rfl⟩, hu.rejected hsame hdisposed⟩
      · exact fun u hu => hu.broken hsame hdisposed
  · rintro t ⟨hsame, hdisposed⟩
    refine wp_mono (Batch.drop_spec (hsame.batch.trans hbatch) hfinished (by rwa [hsame.core]))
      ?_ ?_ ?_
    · exact fun _ u hu => hu.rejected hsame hdisposed
    · exact fun u hu => ⟨by rw [hu.same.arrays]; exact hdisposed,
        .inr (by have := hu.completed.toRequested; rwa [hsame.batches] at this)⟩
    · exact fun u hu => hu.broken hsame hdisposed
  · exact fun t ht => ⟨ht.2, .inl ht.1.batches⟩

-- ---- Handing over.

/-- Everything is still in the hands of the publication. -/
structure Staged (array : Option A) (count : Int) (batch : Batch V) (core : PublishCore V N)
    (w : World A D V N) : Prop where
  arrays  : arrays w.history = ledgerOf array
  ready   : w.ready = ⟨array, count⟩
  staged  : w.staged = some true
  batch   : w.batch = some batch
  core    : w.core = core
  batches : batches w.history = ⟨false, [], [], false⟩

/-- The outputs are committed, and the batch is not yet completed. -/
structure Committed (array : Option A) (count : Int) (batch : Batch V) (core : PublishCore V N)
    (w : World A D V N) : Prop where
  arrays  : arrays w.history = ledgerOf array
  ready   : w.ready.array = none
  staged  : w.staged = none
  batch   : w.batch = some batch
  core    : w.core = core
  outputs : w.outputs = ⟨count, array⟩
  batches : batches w.history = ⟨true, [], [], false⟩

/-- The outputs are committed, and the batch is completed. -/
structure Handed (array : Option A) (count : Int) (updates : List (RtdUpdate V))
    (core : PublishCore V N) (w : World A D V N) : Prop where
  arrays    : arrays w.history = ledgerOf array
  ready     : w.ready.array = none
  staged    : w.staged = none
  batch     : w.batch = none
  outputs   : w.outputs = ⟨count, array⟩
  completed : CompletedOnce ⟨true, [], [], false⟩ core updates .delivered (batches w.history)

/-- The process aborted after the commit. -/
structure Torn (array : Option A) (w : World A D V N) : Prop where
  arrays    : arrays w.history = ledgerOf array
  committed : (batches w.history).committed = true

variable {array : Option A} {count : Int} {batch : Batch V} {core : PublishCore V N}

theorem OutputSlots.write_spec {c : Call A D V} {written : OutputSlots A → OutputSlots A}
    (hc : ∀ (l : ArrayLedger A) outcome, l.record (N := N) (.called c outcome) = l)
    (h : Staged array count batch core w) :
    wp (OutputSlots.write host c written)
      ⟨fun r w' => Staged array count batch core w' ∧ (r = .ok () → w'.outputs = written w.outputs),
        Staged array count batch core, fun _ => False⟩ w := by
  have harrays : ∀ outcome, arrays (.called c outcome :: w.history) = ledgerOf array := by
    intro outcome
    rw [arrays_cons, hc]
    exact h.arrays
  simp only [OutputSlots.write, wp_bind, wp_onUnwind]
  refine wp_call ?_ (fun status => ?_) ?_
  · exact ⟨⟨harrays .ok, h.ready, h.staged, h.batch, h.core, h.batches⟩, fun _ => rfl⟩
  · exact ⟨⟨harrays (.error status), h.ready, h.staged, h.batch, h.core, h.batches⟩, nofun⟩
  · exact ⟨harrays .unwind, h.ready, h.staged, h.batch, h.core, h.batches⟩

/-- The staged outputs are dropped and not committed. -/
structure Cleared (array : Option A) (count : Int) (batch : Batch V) (core : PublishCore V N)
    (w : World A D V N) : Prop where
  arrays  : arrays w.history = ledgerOf array
  ready   : w.ready = ⟨array, count⟩
  batch   : w.batch = some batch
  core    : w.core = core
  batches : ∃ resetUnwound, batches w.history = ⟨false, [], [], resetUnwound⟩ ∧
    (resetUnwound = true ∨ w.outputs = .cleared)

/-- The array is disposed of as well. -/
structure Unowned (batch : Batch V) (core : PublishCore V N) (w : World A D V N) : Prop where
  disposed : Disposed (arrays w.history)
  batch    : w.batch = some batch
  core     : w.core = core
  batches  : ∃ resetUnwound, batches w.history = ⟨false, [], [], resetUnwound⟩ ∧
    (resetUnwound = true ∨ w.outputs = .cleared)

/-- Nothing was handed over, and the batch is restored. -/
structure Failed (updates : List (RtdUpdate V)) (core : PublishCore V N) (w : World A D V N) :
    Prop where
  disposed  : Disposed (arrays w.history)
  completed : ∃ resetUnwound,
    CompletedOnce ⟨false, [], [], resetUnwound⟩ core updates .failed (batches w.history) ∧
      (resetUnwound = true ∨ w.outputs = .cleared)

/-- What holds even where the process aborted. -/
structure Aborted (w : World A D V N) : Prop where
  owned     : (∃ array, arrays w.history = ledgerOf array) ∨ Disposed (arrays w.history)
  committed : (batches w.history).committed = true → ∃ array, arrays w.history = ledgerOf array
  delivered : .delivered ∈ (batches w.history).requested → (batches w.history).committed = true

theorem Cleared.aborted (h : Cleared array count batch core w) : Aborted w := by
  obtain ⟨resetUnwound, hbatches, -⟩ := h.batches
  refine ⟨.inl ⟨array, h.arrays⟩, ?_, ?_⟩
  · intro hcommitted
    exact ⟨array, h.arrays⟩
  · intro hdelivered
    rw [hbatches] at hdelivered
    cases hdelivered

/-- **Dropping armed outputs** resets them, unless the reset itself unwinds. -/
theorem StagedOutputs.drop_spec (h : Staged array count batch core w) : wp (drop host)
      ⟨fun _ => Cleared array count batch core, Cleared array count batch core,
        Cleared array count batch core⟩ w := by
  -- The output's own destructor leaves everything as it is.
  have hdrop : ∀ t, Cleared array count batch core t →
      wp (command host .dropOutput)
        ⟨fun _ => Cleared array count batch core, Cleared array count batch core, fun _ => False⟩
        t := by
    intro t ht
    exact wp_command ⟨ht.arrays, ht.ready, ht.batch, ht.core, ht.batches⟩
      ⟨ht.arrays, ht.ready, ht.batch, ht.core, ht.batches⟩
  simp only [drop, wp_bind, wp_get, h.staged, wp_modify, if_true, wp_withDrop,
    OutputSlots.reset, wp_onUnwind]
  refine wp_command ?_ ?_
  · refine wp_mono (hdrop _ ⟨h.arrays, h.ready, h.batch, h.core, ⟨false, ?_, .inr rfl⟩⟩)
      (fun _ _ => id) (fun _ => id) fun _ => False.elim
    show (batches w.history).record (.commanded .reset false : Event A D V N) = _
    rw [h.batches]
    rfl
  · refine wp_mono (hdrop _ ⟨h.arrays, h.ready, h.batch, h.core, ⟨true, ?_, .inl rfl⟩⟩)
      (fun _ _ => id) (fun _ => id) fun _ => False.elim
    show (batches w.history).record (.commanded .reset true : Event A D V N) = _
    rw [h.batches]
    rfl

theorem ReadyArray.drop_spec (h : Cleared array count batch core w) : wp (ReadyArray.drop host)
      ⟨fun _ => Unowned batch core, Unowned batch core, fun _ => False⟩ w := by
  cases array with
  | none =>
    simp only [ReadyArray.drop, wp_bind, wp_get, h.ready]
    exact ⟨.inl h.arrays, h.batch, h.core, h.batches⟩
  | some a =>
    have hgone : ∀ unwound, arrays (.commanded (.destroy a) unwound :: w.history) = gone a := by
      intro unwound
      simp [h.arrays, ledgerOf, ArrayLedger.record, held, gone]
    simp only [ReadyArray.drop, wp_bind, wp_get, h.ready, wp_modify]
    exact wp_command ⟨.inr ⟨a, .inl (hgone false)⟩, h.batch, h.core, h.batches⟩
      ⟨.inr ⟨a, .inl (hgone true)⟩, h.batch, h.core, h.batches⟩

theorem Batch.drop_spec_of_unowned (h : Unowned batch core w) (hfinished : batch.finished = false)
    (hrunning : core.refresh.running? = some batch.refreshId) :
    wp (Batch.drop host)
      ⟨fun _ => Failed batch.updates core, Failed batch.updates core, Aborted⟩ w := by
  obtain ⟨resetUnwound, hbatches, houtputs⟩ := h.batches
  have hfailed : ∀ t, Settled w batch.updates .failed t → Failed batch.updates core t := by
    intro t ht
    have hcompleted := ht.completed
    rw [hbatches, h.core] at hcompleted
    exact ⟨by rw [ht.same.arrays]; exact h.disposed,
      ⟨resetUnwound, hcompleted, houtputs.imp_right ht.same.outputs.trans⟩⟩
  refine wp_mono (Batch.drop_spec h.batch hfinished (by rwa [h.core])) (fun _ => hfailed) hfailed ?_
  intro t ht
  have hcommitted : (batches t.history).committed = false := by
    rw [ht.requested.committed, hbatches]
  have hrequested : (batches t.history).requested = [.failed] := by
    rw [ht.requested.requested, hbatches]
  refine ⟨.inr (by rw [ht.same.arrays]; exact h.disposed), ?_, ?_⟩
  · intro h'
    rw [hcommitted] at h'
    cases h'
  · intro h'
    rw [hrequested] at h'
    cases List.mem_singleton.mp h'

theorem StagedOutputs.drop_spec_of_disarmed (hstaged : w.staged = some false)
    (h : Committed array count batch core { w with staged := none }) :
    wp (drop host)
      ⟨fun _ => Committed array count batch core, Committed array count batch core,
        fun _ => False⟩ w := by
  simp only [drop, wp_bind, wp_get, hstaged, wp_modify, wp_withDrop]
  exact wp_command ⟨h.arrays, h.ready, rfl, h.batch, h.core, h.outputs, h.batches⟩
    ⟨h.arrays, h.ready, rfl, h.batch, h.core, h.outputs, h.batches⟩

theorem Committed.finishPending_spec (h : Committed array count batch core w)
    (hrunning : core.refresh.running? = some batch.refreshId) :
    wp (CommittedRefresh.finishPending host)
      ⟨fun _ => Handed array count batch.updates core, fun _ => False, Torn array⟩ w := by
  refine wp_mono (CommittedRefresh.finishPending_spec h.batch (by rwa [h.core])) ?_
    (fun _ => id) ?_
  · intro _ t ht
    have hcompleted := ht.completed
    rw [h.batches, h.core] at hcompleted
    exact ⟨ht.same.arrays.trans h.arrays, by rw [ht.same.ready]; exact h.ready,
      ht.same.staged.trans h.staged, ht.batch, ht.same.outputs.trans h.outputs, hcompleted⟩
  · intro t ht
    refine ⟨ht.same.arrays.trans h.arrays, ?_⟩
    rw [ht.requested.committed, h.batches]

/-- **The commit** hands the outputs over and completes the batch, also when it unwinds. -/
theorem RefreshPublication.commit_spec (h : Staged array count batch core w)
    (houtputs : w.outputs = ⟨count, array⟩)
    (hrunning : core.refresh.running? = some batch.refreshId) :
    wp (commit host)
      ⟨fun _ => Handed array count batch.updates core, Handed array count batch.updates core,
        Torn array⟩ w := by
  -- The guard runs on every way out; it finds the batch completed or completes it.
  have hguard : ∀ t, Committed array count batch core t →
      wp (do let _ ← CommittedRefresh.finishPending host)
        ⟨fun _ => Handed array count batch.updates core, Torn array, Torn array⟩ t := by
    intro t ht
    rw [wp_bind]
    exact wp_mono (ht.finishPending_spec hrunning) (fun _ _ => id) (fun _ => False.elim)
      fun _ => id
  simp only [commit, wp_bind, wp_modify, wp_note, wp_withDrop]
  refine wp_mono (drop_spec_of_disarmed rfl ⟨h.arrays, rfl, rfl, h.batch, h.core,
    houtputs, ?_⟩) ?_ ?_ fun _ => False.elim
  · show (batches w.history).record (.committed : Event A D V N) = _
    rw [h.batches]
    rfl
  · intro _ t ht
    simp only [wp_bind]
    have hafter : ∀ unwound, Committed array count batch core
        (t.note (.commanded (.after .committed) unwound)) := fun unwound =>
      ⟨ht.arrays, ht.ready, ht.staged, ht.batch, ht.core, ht.outputs, ht.batches⟩
    refine wp_command ?_ ?_
    · refine wp_mono ((hafter false).finishPending_spec hrunning) ?_ (fun _ => False.elim)
        fun _ => id
      intro _ u hu
      simp only [wp_bind]
      rw [wp_finishPending_of_none hu.batch]
      exact hu
    · exact hguard _ (hafter true)
  · intro t ht
    exact hguard t ht

/-- **The body of the hand-off** commits everything or nothing. -/
theorem RefreshPublication.write_spec (h : Staged array count batch core w)
    (hrunning : core.refresh.running? = some batch.refreshId) :
    wp (RefreshPublication.write host)
      ⟨fun r w' => (∃ c, r = .ok c) ∧ Handed array count batch.updates core w' ∨
          (∃ status, r = .error status) ∧ Staged array count batch core w',
        fun w' => Handed array count batch.updates core w' ∨ Staged array count batch core w',
        Torn array⟩ w := by
  have hafter : ∀ (t : World A D V N) stage unwound, Staged array count batch core t →
      Staged array count batch core (t.note (.commanded (.after stage) unwound)) :=
    fun t stage unwound ht => ⟨ht.arrays, ht.ready, ht.staged, ht.batch, ht.core, ht.batches⟩
  simp only [RefreshPublication.write, wp_bind, wp_get, h.ready]
  refine wp_mono (OutputSlots.write_spec (fun l outcome => by cases outcome <;> rfl) h) ?_
    (fun _ => .inr) fun _ => False.elim
  rintro (status | u) t ⟨ht, hcount⟩
  · exact .inr ⟨⟨status, rfl⟩, ht⟩
  have hcount := congrArg OutputSlots.count (hcount rfl)
  simp only [wp_bind]
  refine wp_command ?_ (.inr (hafter t .countWritten true ht))
  show wp (OutputSlots.writeArray host array >>= _) _ _
  rw [wp_bind]
  refine wp_mono (OutputSlots.write_spec (fun l outcome => by cases outcome <;> rfl)
    (hafter t .countWritten false ht)) ?_ (fun _ => .inr) fun _ => False.elim
  rintro (status | u) u ⟨hu, harray⟩
  · exact .inr ⟨⟨status, rfl⟩, hu⟩
  have harray := harray rfl
  simp only [wp_bind]
  refine wp_command ?_ (.inr (hafter u .pointerWritten true hu))
  show wp (commit host >>= _) _ _
  rw [wp_bind]
  have houtputs : u.outputs = ⟨count, array⟩ := by
    rw [harray]
    exact congrArg (OutputSlots.mk · array) hcount
  refine wp_mono (commit_spec (hafter u .pointerWritten false hu) houtputs
    hrunning) ?_ (fun _ => .inl) fun _ => id
  exact fun c v hv => .inl ⟨⟨c, rfl⟩, hv⟩

-- ---- The whole publication.

theorem wp_stagedDrop_of_none (h : w.staged = none) {Q : Post (World A D V N) Unit} :
    wp (drop host) Q w = Q.returned () w := by
  simp only [drop, wp_bind, wp_get, h]
  rfl

theorem wp_readyDrop_of_none (h : w.ready.array = none) {Q : Post (World A D V N) Unit} :
    wp (ReadyArray.drop host) Q w = Q.returned () w := by
  simp only [ReadyArray.drop, wp_bind, wp_get, h]
  rfl

theorem Unowned.aborted (h : Unowned batch core w) : Aborted w := by
  obtain ⟨resetUnwound, hbatches, -⟩ := h.batches
  refine ⟨.inr h.disposed, ?_, ?_⟩
  · intro hcommitted
    rw [hbatches] at hcommitted
    cases hcommitted
  · intro hdelivered
    rw [hbatches] at hdelivered
    cases hdelivered

theorem Failed.aborted (h : Failed updates core w) : Aborted w := by
  obtain ⟨resetUnwound, hcompleted, -⟩ := h.completed
  have hrequested := hcompleted.toRequested
  refine ⟨.inr h.disposed, ?_, ?_⟩
  · intro hcommitted
    rw [hrequested.committed] at hcommitted
    cases hcommitted
  · intro hdelivered
    rw [hrequested.requested] at hdelivered
    cases List.mem_singleton.mp hdelivered

theorem Cleared.unwinding_spec (h : Cleared array count batch core w)
    (hfinished : batch.finished = false)
    (hrunning : core.refresh.running? = some batch.refreshId) :
    wp (ReadyArray.drop host)
      ⟨fun _ => wp (Batch.drop host) ⟨fun _ => Failed batch.updates core, Aborted, Aborted⟩,
        Aborted, Aborted⟩ w := by
  refine wp_mono (ReadyArray.drop_spec h) ?_ (fun _ => Unowned.aborted) fun _ => False.elim
  intro _ t ht
  exact wp_mono (Batch.drop_spec_of_unowned ht hfinished hrunning) (fun _ _ => id)
    (fun _ => Failed.aborted) fun _ => id

theorem Cleared.returning_spec (h : Cleared array count batch core w)
    (hfinished : batch.finished = false)
    (hrunning : core.refresh.running? = some batch.refreshId) :
    wp (ReadyArray.drop host)
      ⟨fun _ => wp (Batch.drop host)
          ⟨fun _ => Failed batch.updates core, Failed batch.updates core, Aborted⟩,
        wp (Batch.drop host) ⟨fun _ => Failed batch.updates core, Aborted, Aborted⟩,
        Aborted⟩ w := by
  refine wp_mono (ReadyArray.drop_spec h) ?_ ?_ fun _ => False.elim
  · exact fun _ t ht => Batch.drop_spec_of_unowned ht hfinished hrunning
  · intro t ht
    exact wp_mono (Batch.drop_spec_of_unowned ht hfinished hrunning) (fun _ _ => id)
      (fun _ => Failed.aborted) fun _ => id

/-- A hand-off commits everything, or gives everything up. -/
def Concluded (array : Option A) (updates : List (RtdUpdate V)) (core : PublishCore V N)
    (r : Except Int (Except CompletionError Unit)) (w : World A D V N) : Prop :=
  (∃ c, r = .ok c) ∧ Handed array updates.length updates core w ∨
    (∃ status, r = .error status) ∧ Failed updates core w

/-- **The hand-off**, with its destructors. -/
theorem RefreshPublication.handoff_spec (harrays : arrays w.history = ledgerOf array)
    (hbatch : w.batch = some batch) (hfinished : batch.finished = false)
    (hcore : w.core = core) (hbatches : batches w.history = ⟨false, [], [], false⟩)
    (hrunning : core.refresh.running? = some batch.refreshId) :
    wp (handoff host ⟨array, batch.updates.length⟩)
      ⟨Concluded array batch.updates core,
        fun w' => Handed array batch.updates.length batch.updates core w' ∨
          Failed batch.updates core w',
        Aborted⟩ w := by
  have hstaged : Staged array batch.updates.length batch core
      { w with ready := ⟨array, batch.updates.length⟩, staged := some true } :=
    ⟨harrays, rfl, rfl, hbatch, hcore, hbatches⟩
  simp only [handoff, wp_bind, wp_modify, wp_withDrop]
  refine wp_mono (RefreshPublication.write_spec hstaged hrunning) ?_ ?_ ?_
  · rintro r t (⟨hr, ht⟩ | ⟨hr, ht⟩)
    · show wp (drop host) _ t
      rw [wp_stagedDrop_of_none ht.staged]
      show wp (ReadyArray.drop host) _ t
      rw [wp_readyDrop_of_none ht.ready]
      show wp (Batch.drop host) _ t
      rw [wp_batchDrop_of_none ht.batch]
      exact .inl ⟨hr, ht⟩
    · refine wp_mono (drop_spec ht) ?_ ?_ fun _ => Cleared.aborted
      · intro _ u hu
        refine wp_mono (hu.returning_spec hfinished hrunning) ?_ ?_ fun _ => id
        · exact fun _ v hv => wp_mono hv (fun _ _ h => .inr ⟨hr, h⟩) (fun _ => .inr) fun _ => id
        · exact fun v hv => wp_mono hv (fun _ _ => .inr) (fun _ => id) fun _ => id
      · intro u hu
        refine wp_mono (hu.unwinding_spec hfinished hrunning) ?_ (fun _ => id) fun _ => id
        exact fun _ v hv => wp_mono hv (fun _ _ => .inr) (fun _ => id) fun _ => id
  · rintro t (ht | ht)
    · show wp (drop host) _ t
      rw [wp_stagedDrop_of_none ht.staged]
      show wp (ReadyArray.drop host) _ t
      rw [wp_readyDrop_of_none ht.ready]
      show wp (Batch.drop host) _ t
      rw [wp_batchDrop_of_none ht.batch]
      exact .inl ht
    · refine wp_mono (drop_spec ht) ?_ (fun _ => Cleared.aborted)
        fun _ => Cleared.aborted
      intro _ u hu
      refine wp_mono (hu.unwinding_spec hfinished hrunning) ?_ (fun _ => id) fun _ => id
      exact fun _ v hv => wp_mono hv (fun _ _ => .inr) (fun _ => id) fun _ => id
  · exact fun t ht => ⟨.inl ⟨array, ht.arrays⟩, fun _ => ⟨array, ht.arrays⟩, fun _ => ht.committed⟩

/-- What became of the array that was created. -/
inductive Fate
  | destroyed
  | transferred
  | retained

/-- Destroyed once, handed to the output slots, or kept back with its lock indeterminate. -/
def Fate.Holds (w : World A D V N) (a : A) : Fate → Prop
  | .destroyed => (batches w.history).committed = false ∧ (arrays w.history).destroyed = [a] ∧
      (arrays w.history).lock = .unlocked
  | .transferred => (batches w.history).committed = true ∧ (arrays w.history).destroyed = [] ∧
      (arrays w.history).lock = .unlocked ∧ w.outputs.array = some a
  | .retained => (batches w.history).committed = false ∧ (arrays w.history).destroyed = [] ∧
      (arrays w.history).lock = .indeterminate

/-- The outcome a publication completes its batch with. -/
def outcomeOf (committed : Bool) : RefreshOutcome := if committed then .delivered else .failed

/-- What holds of a publication that ended without aborting the process. -/
structure Ended (core : PublishCore V N) (updates : List (RtdUpdate V)) (w : World A D V N) :
    Prop where
  array     : (arrays w.history).created = [] ∧ (arrays w.history).destroyed = [] ∨
    ∃ a, (arrays w.history).created = [a] ∧ ∃! fate : Fate, fate.Holds w a
  requested : (batches w.history).requested = [outcomeOf (batches w.history).committed]
  completed : ∃ core', (batches w.history).completed =
      [(applied core (outcomeOf (batches w.history).committed), core')] ∧
    Completed core updates (applied core (outcomeOf (batches w.history).committed)) core'
  written   : (batches w.history).committed = true →
    w.outputs = ⟨updates.length, (arrays w.history).created.head?⟩ ∧
      ((arrays w.history).created = [] ↔ updates = [])
  reset     : (batches w.history).committed = false →
    w.outputs = .cleared ∨ (batches w.history).resetUnwound = true

theorem Failed.committed (h : Failed updates core w) : (batches w.history).committed = false := by
  obtain ⟨resetUnwound, hcompleted, -⟩ := h.completed
  exact hcompleted.toRequested.committed

theorem Handed.committed (h : Handed array count updates core w) :
    (batches w.history).committed = true :=
  h.completed.toRequested.committed

theorem CompletedOnce.ended {l l' : BatchLedger V N} {outcome : RefreshOutcome}
    (h : CompletedOnce l core updates outcome l') (hrequested : l.requested = [])
    (hcompleted : l.completed = []) (houtcome : outcome = outcomeOf l.committed) :
    l'.requested = [outcomeOf l'.committed] ∧
      ∃ core', l'.completed = [(applied core (outcomeOf l'.committed), core')] ∧
        Completed core updates (applied core (outcomeOf l'.committed)) core' := by
  cases h with
  | intro core' h =>
    subst houtcome
    exact ⟨congrArg (_ :: ·) hrequested, core', congrArg (_ :: ·) hcompleted, h⟩

theorem Handed.ended (h : Handed array updates.length updates core w)
    (hempty : array = none ↔ updates = []) : Ended core updates w := by
  obtain ⟨hrequested, hcompleted⟩ := h.completed.ended rfl rfl rfl
  have hcommitted := h.committed
  refine ⟨?_, hrequested, hcompleted, ?_, ?_⟩
  · cases array with
    | none => exact .inl (by rw [h.arrays]; exact ⟨rfl, rfl⟩)
    | some a =>
      refine .inr ⟨a, by rw [h.arrays]; rfl, .transferred, ?_, ?_⟩
      · exact ⟨hcommitted, by rw [h.arrays]; rfl, by rw [h.arrays]; rfl, by rw [h.outputs]⟩
      · rintro (_ | _ | _) hfate
        · exact absurd (hfate.1.symm.trans hcommitted) Bool.false_ne_true
        · rfl
        · exact absurd (hfate.1.symm.trans hcommitted) Bool.false_ne_true
  · intro _
    rw [h.outputs, h.arrays, ← hempty]
    cases array with
    | none => exact ⟨rfl, iff_of_true rfl rfl⟩
    | some a => exact ⟨rfl, iff_of_false (List.cons_ne_nil a []) (Option.some_ne_none a)⟩
  · intro h'
    rw [hcommitted] at h'
    cases h'

theorem Failed.ended (h : Failed updates core w) : Ended core updates w := by
  obtain ⟨resetUnwound, hcompleted, houtputs⟩ := h.completed
  obtain ⟨hrequested, hcompleted'⟩ := hcompleted.ended rfl rfl rfl
  have hcommitted := h.committed
  refine ⟨?_, hrequested, hcompleted', ?_, ?_⟩
  · rcases h.disposed with habsent | ⟨a, hgone | hkept⟩
    · exact .inl (by rw [habsent]; exact ⟨rfl, rfl⟩)
    · refine .inr ⟨a, by rw [hgone]; rfl, .destroyed, ?_, ?_⟩
      · exact ⟨hcommitted, by rw [hgone]; rfl, by rw [hgone]; rfl⟩
      · rintro (_ | _ | _) ⟨hc, hdestroyed, hrest⟩
        · rfl
        · exact absurd (hcommitted.symm.trans hc) Bool.false_ne_true
        · rw [hgone] at hdestroyed
          cases hdestroyed
    · refine .inr ⟨a, by rw [hkept]; rfl, .retained, ?_, ?_⟩
      · exact ⟨hcommitted, by rw [hkept]; rfl, by rw [hkept]; rfl⟩
      · rintro (_ | _ | _) ⟨hc, hdestroyed, hrest⟩
        · rw [hkept] at hdestroyed
          cases hdestroyed
        · exact absurd (hcommitted.symm.trans hc) Bool.false_ne_true
        · rfl
  · intro h'
    rw [hcommitted] at h'
    cases h'
  · intro _
    rw [hcompleted.resetUnwound]
    exact houtputs.symm

/-- **A publication** from its start: everything is handed over, or everything is given up. -/
theorem publish_spec (host : Host A D V N) (core : PublishCore V N) (refreshId : Nat)
    (updates : List (RtdUpdate V))
    (hrunning : core.refresh.running? = some refreshId) :
    wp (publish host ⟨refreshId, updates, false⟩)
      ⟨fun r w' => (∃ c, r = .ok c) ∧ (∃ array, (array = none ↔ updates = []) ∧
            Handed array updates.length updates core w') ∨
          (∃ status, r = .error status) ∧ Failed updates core w',
        fun w' => (∃ array, (array = none ↔ updates = []) ∧
            Handed array updates.length updates core w') ∨ Failed updates core w',
        Aborted⟩ (World.start core refreshId updates) := by
  have hfailed : ∀ t : World A D V N, Rejected (World.start core refreshId updates) updates t →
      Failed updates core t :=
    fun t ht => ⟨ht.disposed, ⟨false, ht.completed, .inr ht.outputs⟩⟩
  rw [publish, wp_bind]
  have hprepare := RefreshPublication.prepare_spec host (World.start core refreshId updates)
    ⟨refreshId, updates, false⟩ rfl rfl hrunning rfl
  refine wp_mono hprepare ?_ (fun t ht => .inr (hfailed t ht)) ?_
  · rintro r t (⟨array, rfl, -, hempty, hsame, harrays⟩ | ⟨⟨e, rfl⟩, hrejected⟩)
    · refine wp_mono (handoff_spec harrays hsame.batch rfl hsame.core
        hsame.batches hrunning) ?_ ?_ fun _ => id
      · rintro r u (⟨hr, hu⟩ | hu)
        · exact .inl ⟨hr, array, hempty, hu⟩
        · exact .inr hu
      · exact fun u hu => hu.imp_left fun hu => ⟨array, hempty, hu⟩
    · exact .inr ⟨⟨_, rfl⟩, hfailed t hrejected⟩
  · intro t ht
    have hfree : (batches t.history).committed = false ∧
        .delivered ∉ (batches t.history).requested := by
      rcases ht.requested with hsame | hrequested
      · rw [hsame]
        exact ⟨rfl, List.not_mem_nil⟩
      · rw [hrequested.committed, hrequested.requested]
        refine ⟨rfl, fun h => ?_⟩
        cases List.mem_singleton.mp h
    refine ⟨.inr ht.disposed, ?_, fun h => absurd h hfree.2⟩
    intro h
    rw [hfree.1] at h
    cases h

theorem Aborted.safe (h : Aborted w) : (arrays w.history).sound = true ∧
    (arrays w.history).destroyed.length ≤ 1 ∧
    ((batches w.history).committed = true → (arrays w.history).destroyed = []) ∧
    (.delivered ∈ (batches w.history).requested → (batches w.history).committed = true) := by
  have hledger : ∀ array : Option A, (ledgerOf array).sound = true ∧
      (ledgerOf array).destroyed = [] := by
    rintro (_ | a) <;> exact ⟨rfl, rfl⟩
  refine ⟨?_, ?_, ?_, h.delivered⟩
  · rcases h.owned with ⟨array, harrays⟩ | habsent | ⟨a, hgone | hkept⟩
    · rw [harrays]
      exact (hledger array).1
    · rw [habsent]
      rfl
    · rw [hgone]
      rfl
    · rw [hkept]
      rfl
  · rcases h.owned with ⟨array, harrays⟩ | habsent | ⟨a, hgone | hkept⟩
    · rw [harrays, (hledger array).2]
      exact Nat.zero_le 1
    · rw [habsent]
      exact Nat.zero_le 1
    · rw [hgone]
      exact Nat.le_refl 1
    · rw [hkept]
      exact Nat.zero_le 1
  · intro hcommitted
    obtain ⟨array, harrays⟩ := h.committed hcommitted
    rw [harrays]
    exact (hledger array).2

theorem Handed.aborted (h : Handed array count updates core w) : Aborted w where
  owned     := .inl ⟨array, h.arrays⟩
  committed := fun _ => ⟨array, h.arrays⟩
  delivered := fun _ => h.committed

/-- **The hand-off of a refresh batch**, whatever the calls of the host do. An array is only ever
destroyed while unlocked, at most once and never after it was handed over, even where a second panic
aborts the process. Otherwise an array that was created is exactly one of destroyed, transferred and
retained because its lock is indeterminate; the batch is completed once, as delivered exactly when
the outputs were committed; the completion is applied as requested if a notification ticket is left
and restores the batch if none is; and outputs that were not committed are reset, unless the reset
itself unwound. -/
theorem publication_settles (host : Host A D V N) (core : PublishCore V N) (refreshId : Nat)
    (updates : List (RtdUpdate V)) {exit : Exit (Except Int (Except CompletionError Unit))}
    (hrunning : core.refresh.running? = some refreshId)
    (h : publish host ⟨refreshId, updates, false⟩ (World.start core refreshId updates) =
      (exit, w)) :
    (arrays w.history).sound = true ∧ (arrays w.history).destroyed.length ≤ 1 ∧
      ((batches w.history).committed = true → (arrays w.history).destroyed = []) ∧
      (.delivered ∈ (batches w.history).requested → (batches w.history).committed = true) ∧
      (exit ≠ .aborted → Ended core updates w ∧
        ((∃ c, exit = .returned (.ok c)) → (batches w.history).committed = true) ∧
        ((∃ status, exit = .returned (.error status)) →
          (batches w.history).committed = false)) := by
  have hspec := publish_spec host core refreshId updates hrunning
  unfold wp at hspec
  rw [h] at hspec
  -- What holds where the process aborted holds in every case.
  have hsafe : Aborted w := by
    cases exit with
    | returned r =>
      rcases hspec with ⟨-, array, -, hw⟩ | ⟨-, hw⟩
      · exact hw.aborted
      · exact hw.aborted
    | unwound =>
      rcases hspec with ⟨array, -, hw⟩ | hw
      · exact hw.aborted
      · exact hw.aborted
    | aborted => exact hspec
  obtain ⟨hsound, honce, hkept, hdelivered⟩ := hsafe.safe
  refine ⟨hsound, honce, hkept, hdelivered, fun hne => ?_⟩
  cases exit with
  | returned r =>
    rcases hspec with ⟨⟨c, rfl⟩, array, hempty, hw⟩ | ⟨⟨status, rfl⟩, hw⟩
    · exact ⟨hw.ended hempty, fun _ => hw.committed, by rintro ⟨status, ⟨⟩⟩⟩
    · exact ⟨hw.ended, by rintro ⟨c, ⟨⟩⟩, fun _ => hw.committed⟩
  | unwound =>
    rcases hspec with ⟨array, hempty, hw⟩ | hw
    · exact ⟨hw.ended hempty, by rintro ⟨c, ⟨⟩⟩, by rintro ⟨status, ⟨⟩⟩⟩
    · exact ⟨hw.ended, by rintro ⟨c, ⟨⟩⟩, by rintro ⟨status, ⟨⟩⟩⟩
  | aborted => exact absurd rfl hne

/-- A host on which every call succeeds; its arrays are numbered by the calls before them. -/
def obliging : Host Nat Unit Nat Unit where
  answer _ _     := .ok
  unwinds _ _    := false
  array history  := history.length
  data _         := ()
  leftover _     := .cleared

/-- A core whose refresh is out, with its next notification ticket. -/
def refreshingCore (nextNotificationTicket : Nat) : PublishCore Nat Unit :=
  { (PublishCore.new ⟨0, 8⟩ ⟨0, 8⟩ : PublishCore Nat Unit) with
    refresh := ⟨1, nextNotificationTicket, none, .refreshing 0⟩ }

/-- One update of a topic. -/
def publishedUpdate : RtdUpdate Nat := ⟨1, ⟨1⟩, ⟨1, Nat.one_ne_zero⟩, .first, 5⟩

/-- Its publication on the obliging host. -/
def obligingPublication (ticket : Nat) :
    Exit (Except Int (Except CompletionError Unit)) × World Nat Unit Nat Unit :=
  publish obliging ⟨0, [publishedUpdate], false⟩
    (World.start (refreshingCore ticket) 0 [publishedUpdate])

theorem publication_settles_obliging : (obligingPublication 0).1 = .returned (.ok (.ok ())) ∧
      (batches (obligingPublication 0).2.history).committed = true ∧
      (obligingPublication 0).2.outputs = ⟨1, some 1⟩ ∧
      Ended (refreshingCore 0) [publishedUpdate] (obligingPublication 0).2 := by
  have hexit : (obligingPublication 0).1 = .returned (.ok (.ok ())) := rfl
  have hrest := (publication_settles obliging (refreshingCore 0) 0 [publishedUpdate] rfl
    (Prod.ext hexit rfl)).2.2.2.2 nofun
  exact ⟨hexit, rfl, rfl, hrest.1⟩

/-- Without a notification ticket the outputs are committed and the batch is restored: the
completion that was requested as delivered is applied as failed. -/
theorem exhausted_publication_restores : (refreshingCore u64Max).refresh.running? = some 0 ∧
      (obligingPublication u64Max).1 =
        .returned (.ok (.error (.returned (.internal .ticketOverflow)))) ∧
      (batches (obligingPublication u64Max).2.history).committed = true ∧
      (obligingPublication u64Max).2.outputs = ⟨1, some 1⟩ ∧
      (batches (obligingPublication u64Max).2.history).completed.map Prod.fst = [.failed] := by
  refine ⟨rfl, rfl, rfl, rfl, rfl⟩

end Xlfn.Subscription.Publication
