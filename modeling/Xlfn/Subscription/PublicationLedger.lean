import Xlfn.Subscription.Publication

/-!
# Xlfn — the ledgers of a publication

What the history of a publication says of its array and of its batch, and what each part of the
publication adds to it, whatever the host answers.

* `arrays`, `batches` — what happened to the array, and to the batch and the outputs.
-/

namespace Xlfn.Subscription.Publication

open Xlfn.Lib Xlfn.Lib.Comp Xlfn.Kernel BuildingArray CommittedRefresh

variable {A D V N : Type}

-- ---- What the history says.

/-- The lock of an array, as far as its calls tell. -/
inductive Lock
  | unlocked
  | locked
  | indeterminate
deriving DecidableEq

/-- What happened to the arrays of a publication; `sound` says that each destruction found the
array unlocked. -/
structure ArrayLedger (A : Type) where
  created   : List A
  lock      : Lock
  destroyed : List A
  sound     : Bool

/-- An access that returned an error took no lock; one that unwound may have. A lock whose release
did not return `Ok` is indeterminate. -/
def ArrayLedger.record (l : ArrayLedger A) : Event A D V N → ArrayLedger A
  | .created a => { l with created := a :: l.created }
  | .called (.access _) .ok => { l with lock := .locked }
  | .called (.access _) .unwind => { l with lock := .indeterminate }
  | .called (.unaccess _) .ok => { l with lock := .unlocked }
  | .called (.unaccess _) (.error _) => { l with lock := .indeterminate }
  | .called (.unaccess _) .unwind => { l with lock := .indeterminate }
  | .commanded (.destroy a) _ =>
    { l with destroyed := a :: l.destroyed, sound := l.sound && decide (l.lock = .unlocked) }
  | _ => l

/-- What happened to the batch and the outputs. -/
structure BatchLedger (V N : Type) where
  committed    : Bool
  requested    : List RefreshOutcome
  completed    : List (RefreshOutcome × PublishCore V N)
  resetUnwound : Bool

def BatchLedger.record (l : BatchLedger V N) : Event A D V N → BatchLedger V N
  | .committed => { l with committed := true }
  | .requested outcome => { l with requested := outcome :: l.requested }
  | .completed outcome core => { l with completed := (outcome, core) :: l.completed }
  | .commanded .reset unwound => { l with resetUnwound := l.resetUnwound || unwound }
  | _ => l

def arrays (history : List (Event A D V N)) : ArrayLedger A :=
  history.foldr (fun e l => l.record e) ⟨[], .unlocked, [], true⟩

def batches (history : List (Event A D V N)) : BatchLedger V N :=
  history.foldr (fun e l => l.record e) ⟨false, [], [], false⟩

@[simp] theorem arrays_cons (e : Event A D V N) (history : List (Event A D V N)) :
    arrays (e :: history) = (arrays history).record e := rfl

@[simp] theorem batches_cons (e : Event A D V N) (history : List (Event A D V N)) :
    batches (e :: history) = (batches history).record e := rfl

-- ---- Calls.

variable {host : Host A D V N} {w w' : World A D V N}

@[simp] theorem World.note_history (e : Event A D V N) : (w.note e).history = e :: w.history := rfl

@[simp] theorem World.note_core (e : Event A D V N) : (w.note e).core = w.core := rfl

variable {Q : Post (World A D V N) Unit} {w'' : World A D V N} {updates : List (RtdUpdate V)}
  {batch : Batch V}

@[simp] theorem wp_note {e : Event A D V N} : wp (note e) Q w = Q.returned () (w.note e) := rfl

theorem wp_call {c : Call A D V} {Q : Post (World A D V N) (Except Int Unit)}
    (hok : Q.returned (.ok ()) (w.note (.called c .ok)))
    (herror : ∀ status, Q.returned (.error status) (w.note (.called c (.error status))))
    (hunwind : Q.unwound (w.note (.called c .unwind))) : wp (call host c) Q w := by
  simp only [call, wp_bind, wp_get, wp_note]
  cases host.answer w.history c with
  | ok => exact hok
  | error status => exact herror status
  | unwind => exact hunwind

theorem wp_command {c : Command A N} (hreturned : Q.returned () (w.note (.commanded c false)))
    (hunwound : Q.unwound (w.note (.commanded c true))) : wp (command host c) Q w := by
  simp only [command, wp_bind, wp_get, wp_note]
  cases host.unwinds w.history c with
  | false => exact hreturned
  | true => exact hunwound

-- ---- The construction.

/-- Only the construction moved. -/
structure SameBatch (w w' : World A D V N) : Prop where
  ready   : w'.ready = w.ready
  staged  : w'.staged = w.staged
  batch   : w'.batch = w.batch
  outputs : w'.outputs = w.outputs
  core    : w'.core = w.core
  batches : batches w'.history = batches w.history

/-- The array exists and is unlocked, and nobody has destroyed it. -/
def held (a : A) : ArrayLedger A := ⟨[a], .unlocked, [], true⟩

/-- The array was destroyed while unlocked. -/
def gone (a : A) : ArrayLedger A := ⟨[a], .unlocked, [a], true⟩

/-- The lock of the array is indeterminate, and nobody has destroyed it. -/
def kept (a : A) : ArrayLedger A := ⟨[a], .indeterminate, [], true⟩

/-- There never was an array. -/
def absent : ArrayLedger A := ⟨[], .unlocked, [], true⟩

/-- The ledger of what a ready array holds. -/
def ledgerOf : Option A → ArrayLedger A
  | none => absent
  | some a => held a

/-- No array, or one that is accounted for without being handed over. -/
def Disposed (l : ArrayLedger A) : Prop := l = absent ∨ ∃ a, l = gone a ∨ l = kept a

/-- What the cell of the construction knows about the array. -/
inductive Building (a : A) : BuildingArray A → ArrayLedger A → Prop
  | unlocked : Building a ⟨some a, false⟩ (held a)
  | locked : Building a ⟨some a, true⟩ ⟨[a], .locked, [], true⟩
  | lost : Building a ⟨none, false⟩ (kept a)

theorem SameBatch.refl (w : World A D V N) : SameBatch w w := ⟨rfl, rfl, rfl, rfl, rfl, rfl⟩

theorem SameBatch.trans (h : SameBatch w w') (h' : SameBatch w' w'') : SameBatch w w'' where
  ready   := h'.ready.trans h.ready
  staged  := h'.staged.trans h.staged
  batch   := h'.batch.trans h.batch
  outputs := h'.outputs.trans h.outputs
  core    := h'.core.trans h.core
  batches := h'.batches.trans h.batches

theorem SameBatch.after (h' : SameBatch w' w'') (h : SameBatch w w') : SameBatch w w'' :=
  h.trans h'

variable {a : A}

/-- **Unlocking** an array gives it back unlocked, or gives it up with its lock indeterminate. -/
theorem BuildingArray.unlock_spec (hbuilding : w.building = ⟨some a, true⟩)
    (harrays : arrays w.history = ⟨[a], .locked, [], true⟩) : wp (unlock host)
      ⟨fun r w' => SameBatch w w' ∧ (r = .ok () ∧ w'.building = ⟨some a, false⟩ ∧
          arrays w'.history = held a ∨
          (∃ status, r = .error status) ∧ w'.building = ⟨none, false⟩ ∧
            arrays w'.history = kept a),
        fun w' => SameBatch w w' ∧ w'.building = ⟨none, false⟩ ∧ arrays w'.history = kept a,
        fun _ => False⟩ w := by
  simp only [unlock, wp_bind, wp_get, hbuilding, if_true, wp_modify]
  refine wp_call ?_ (fun status => ?_) ?_
  · refine ⟨⟨rfl, rfl, rfl, rfl, rfl, rfl⟩, .inl ⟨rfl, rfl, ?_⟩⟩
    simp [harrays, ArrayLedger.record, held]
  · simp only [wp_bind]
    refine wp_command ⟨⟨rfl, rfl, rfl, rfl, rfl, rfl⟩, .inr ⟨⟨status, rfl⟩, rfl, ?_⟩⟩
      ⟨⟨rfl, rfl, rfl, rfl, rfl, rfl⟩, rfl, ?_⟩
    · simp [harrays, ArrayLedger.record, kept]
    · simp [harrays, ArrayLedger.record, kept]
  · refine ⟨⟨rfl, rfl, rfl, rfl, rfl, rfl⟩, rfl, ?_⟩
    simp [harrays, ArrayLedger.record, kept]

theorem wp_unlock_of_unlocked (h : w.building.locked = false)
    {Q : Post (World A D V N) (Except Int Unit)} :
    wp (unlock host) Q w = Q.returned (.ok ()) w := by
  simp only [unlock, wp_bind, wp_get, h]
  rfl

theorem BuildingArray.destroy_spec (hbuilding : w.building = ⟨some a, false⟩)
    (harrays : arrays w.history = held a) : wp (destroy host)
      ⟨fun _ w' => SameBatch w w' ∧ arrays w'.history = gone a,
        fun w' => SameBatch w w' ∧ arrays w'.history = gone a, fun _ => False⟩ w := by
  have hgone : ∀ unwound, arrays (.commanded (.destroy a) unwound :: w.history) = gone a := by
    intro unwound
    simp [harrays, ArrayLedger.record, held, gone]
  simp only [destroy, wp_bind, wp_get, hbuilding, wp_modify]
  exact wp_command ⟨⟨rfl, rfl, rfl, rfl, rfl, rfl⟩, hgone false⟩
    ⟨⟨rfl, rfl, rfl, rfl, rfl, rfl⟩, hgone true⟩

theorem wp_destroy_of_empty (h : w.building.array = none) :
    wp (destroy host) Q w = Q.returned () w := by
  simp only [destroy, wp_bind, wp_get, h]
  rfl

/-- **Dropping a construction** destroys an array that is unlocked, unlocks one that is locked
first, and keeps one whose lock is indeterminate. -/
theorem BuildingArray.drop_spec (host : Host A D V N)
    (h : Building a w.building (arrays w.history)) : wp (drop host)
      ⟨fun _ w' => SameBatch w w' ∧ (arrays w'.history = gone a ∨ arrays w'.history = kept a),
        fun w' => SameBatch w w' ∧ (arrays w'.history = gone a ∨ arrays w'.history = kept a),
        fun _ => False⟩ w := by
  generalize hcell : w.building = cell at h
  generalize hledger : arrays w.history = ledger at h
  rw [drop, wp_bind]
  cases h with
  | unlocked =>
    rw [wp_unlock_of_unlocked (by rw [hcell])]
    exact wp_mono (destroy_spec hcell hledger)
      (fun _ t ht => ⟨ht.1, .inl ht.2⟩) (fun t ht => ⟨ht.1, .inl ht.2⟩) fun _ => id
  | locked =>
    refine wp_mono (unlock_spec hcell hledger) ?_ ?_ fun _ => False.elim
    · rintro r t ⟨hsame, ⟨-, hbuilding, harrays⟩ | ⟨-, hbuilding, harrays⟩⟩
      · exact wp_mono (destroy_spec hbuilding harrays)
          (fun _ u hu => ⟨hsame.trans hu.1, .inl hu.2⟩)
          (fun u hu => ⟨hsame.trans hu.1, .inl hu.2⟩) fun _ => id
      · show wp (destroy host) _ t
        rw [wp_destroy_of_empty (by rw [hbuilding])]
        exact ⟨hsame, .inr harrays⟩
    · rintro t ⟨hsame, -, harrays⟩
      exact ⟨hsame, .inr harrays⟩
  | lost =>
    rw [wp_unlock_of_unlocked (by rw [hcell])]
    show wp (destroy host) _ w
    rw [wp_destroy_of_empty (by rw [hcell])]
    exact ⟨.refl w, .inr hledger⟩

/-- **The construction** gives a held array, or leaves its cell knowing what became of it. -/
theorem ReadyArray.construct_spec (updates : List (RtdUpdate V))
    (harrays : arrays w.history = held a) : wp (ReadyArray.construct host a updates)
      ⟨fun r w' => SameBatch w w' ∧ (r = .ok ⟨some a, updates.length⟩ ∧
          w'.building = ⟨none, false⟩ ∧ arrays w'.history = held a ∨
          (∃ e, r = .error e) ∧ Building a w'.building (arrays w'.history)),
        fun w' => SameBatch w w' ∧ Building a w'.building (arrays w'.history),
        fun _ => False⟩ w := by
  simp only [ReadyArray.construct, wp_bind, wp_modify]
  refine wp_call ?_ (fun status => ?_) ?_
  · -- The access took the lock.
    have hlocked : ∀ outcome, arrays (.called (.fill (host.data (.called (.access a) .ok ::
        w.history)) updates) outcome :: .called (.access a) .ok :: w.history) =
        ⟨[a], .locked, [], true⟩ := by
      intro outcome
      cases outcome <;> simp [harrays, ArrayLedger.record, held]
    simp only [wp_bind, wp_get, wp_modify]
    refine wp_call ?_ (fun status => ?_) ?_
    · simp only [wp_bind]
      refine wp_mono (unlock_spec (a := a) rfl (hlocked .ok)) ?_ ?_ fun _ => id
      · rintro r t ⟨hsame, ⟨rfl, hbuilding, hheld⟩ | ⟨⟨status, rfl⟩, hbuilding, hkept⟩⟩
        · simp only [wp_bind, wp_get, wp_modify, wp_pure, hbuilding]
          have : SameBatch w t := hsame.after ⟨rfl, rfl, rfl, rfl, rfl, rfl⟩
          exact ⟨⟨this.ready, this.staged, this.batch, this.outputs, this.core, this.batches⟩,
            .inl ⟨trivial, trivial, hheld⟩⟩
        · refine ⟨hsame.after ⟨rfl, rfl, rfl, rfl, rfl, rfl⟩, .inr ⟨⟨_, rfl⟩, ?_⟩⟩
          rw [hbuilding, hkept]
          exact .lost
      · rintro t ⟨hsame, hbuilding, hkept⟩
        refine ⟨hsame.after ⟨rfl, rfl, rfl, rfl, rfl, rfl⟩, ?_⟩
        rw [hbuilding, hkept]
        exact .lost
    · refine ⟨⟨rfl, rfl, rfl, rfl, rfl, rfl⟩, .inr ⟨⟨_, rfl⟩, ?_⟩⟩
      exact hlocked (.error status) ▸ .locked
    · refine ⟨⟨rfl, rfl, rfl, rfl, rfl, rfl⟩, ?_⟩
      exact hlocked .unwind ▸ .locked
  · -- The access failed: no lock was taken.
    have hheld : arrays (.called (.access a) (.error status) :: w.history) = held a := by
      simp [harrays, ArrayLedger.record]
    refine ⟨⟨rfl, rfl, rfl, rfl, rfl, rfl⟩, .inr ⟨⟨_, rfl⟩, ?_⟩⟩
    exact hheld ▸ .unlocked
  · -- The access unwound: the cell is empty.
    have hkept : arrays (.called (.access a) .unwind :: w.history) = kept a := by
      simp [harrays, ArrayLedger.record, held, kept]
    refine ⟨⟨rfl, rfl, rfl, rfl, rfl, rfl⟩, ?_⟩
    exact hkept ▸ .lost

/-- **Marshalling** gives a ready array, or disposes of what it made. -/
theorem ReadyArray.prepare_spec (updates : List (RtdUpdate V))
    (harrays : arrays w.history = absent) :
    wp (ReadyArray.prepare host updates)
      ⟨fun r w' => SameBatch w w' ∧
          ((∃ array, r = .ok ⟨array, updates.length⟩ ∧ updates.length ≤ i32Max ∧
              (array = none ↔ updates = []) ∧ arrays w'.history = ledgerOf array) ∨
            (∃ e, r = .error e) ∧ Disposed (arrays w'.history)),
        fun w' => SameBatch w w' ∧ Disposed (arrays w'.history),
        fun w' => SameBatch w w' ∧ Disposed (arrays w'.history)⟩ w := by
  unfold ReadyArray.prepare
  split
  · exact ⟨.refl w, .inr ⟨⟨_, rfl⟩, .inl harrays⟩⟩
  · next hcount =>
    split
    · next hempty =>
      have hnil : updates = [] := List.isEmpty_iff.mp hempty
      exact ⟨.refl w, .inl ⟨none, rfl, Nat.not_lt.mp hcount, iff_of_true rfl hnil, harrays⟩⟩
    · next hempty =>
      have hnil : updates ≠ [] := fun h => hempty (List.isEmpty_iff.mpr h)
      split
      · exact ⟨.refl w, .inr ⟨⟨_, rfl⟩, .inl harrays⟩⟩
      · rw [wp_bind]
        refine wp_call ?_ (fun status => ?_) ?_
        · simp only [wp_bind, wp_get, wp_note, wp_modify, wp_withDrop]
          generalize harray : host.array (w.note (.called (.create updates.length) .ok)).history = a
          have hheld : arrays (.created a :: .called (.create updates.length) .ok :: w.history) =
              held a := by
            simp [harrays, ArrayLedger.record, absent, held]
          -- The destructor of the construction, from what its cell knows.
          have hdrop := fun (t : World A D V N) (h : Building a t.building (arrays t.history)) =>
            BuildingArray.drop_spec host h
          refine wp_mono (ReadyArray.construct_spec updates hheld) ?_ ?_ fun _ => False.elim
          · rintro r t ⟨hsame, ⟨rfl, hbuilding, ht⟩ | ⟨⟨e, rfl⟩, hbuilding⟩⟩
            · simp only [BuildingArray.drop, wp_bind]
              rw [wp_unlock_of_unlocked (by rw [hbuilding])]
              show wp (BuildingArray.destroy host) _ t
              rw [wp_destroy_of_empty (by rw [hbuilding])]
              exact ⟨hsame.after ⟨rfl, rfl, rfl, rfl, rfl, rfl⟩, .inl ⟨some a, rfl,
                Nat.not_lt.mp hcount, iff_of_false (Option.some_ne_none a) hnil, ht⟩⟩
            · refine wp_mono (hdrop t hbuilding) ?_ ?_ fun _ => False.elim
              · exact fun _ u hu => ⟨(hsame.trans hu.1).after ⟨rfl, rfl, rfl, rfl, rfl, rfl⟩,
                  .inr ⟨⟨e, rfl⟩, .inr ⟨a, hu.2⟩⟩⟩
              · exact fun u hu => ⟨(hsame.trans hu.1).after ⟨rfl, rfl, rfl, rfl, rfl, rfl⟩,
                  .inr ⟨a, hu.2⟩⟩
          · rintro t ⟨hsame, hbuilding⟩
            refine wp_mono (hdrop t hbuilding) ?_ ?_ fun _ => False.elim
            · exact fun _ u hu => ⟨(hsame.trans hu.1).after ⟨rfl, rfl, rfl, rfl, rfl, rfl⟩,
                .inr ⟨a, hu.2⟩⟩
            · exact fun u hu => ⟨(hsame.trans hu.1).after ⟨rfl, rfl, rfl, rfl, rfl, rfl⟩,
                .inr ⟨a, hu.2⟩⟩
        · refine ⟨⟨rfl, rfl, rfl, rfl, rfl, rfl⟩, .inr ⟨⟨_, rfl⟩, .inl ?_⟩⟩
          exact harrays
        · exact ⟨⟨rfl, rfl, rfl, rfl, rfl, rfl⟩, .inl harrays⟩

-- ---- Completion of the batch.

/-- Only the batch and the core moved. -/
structure SameArray (w w' : World A D V N) : Prop where
  arrays  : arrays w'.history = arrays w.history
  ready   : w'.ready = w.ready
  staged  : w'.staged = w.staged
  outputs : w'.outputs = w.outputs

theorem SameArray.trans (h : SameArray w w') (h' : SameArray w' w'') : SameArray w w'' where
  arrays  := h'.arrays.trans h.arrays
  ready   := h'.ready.trans h.ready
  staged  := h'.staged.trans h.staged
  outputs := h'.outputs.trans h.outputs

/-- The outcome a completion is applied with: without a notification ticket left, a batch is always
restored. -/
def applied (core : PublishCore V N) (outcome : RefreshOutcome) : RefreshOutcome :=
  if core.refresh.nextNotificationTicket < u64Max then outcome else .failed

/-- Every update of a batch has been through the completion loop. -/
def Completed (core : PublishCore V N) (updates : List (RtdUpdate V)) (outcome : RefreshOutcome)
    (core' : PublishCore V N) : Prop :=
  updates.reverse.foldlM (fun core u => core.completeUpdate outcome u) core = some core'

/-- The ledger of a batch after one completion. -/
inductive CompletedOnce (l : BatchLedger V N) (core : PublishCore V N)
    (updates : List (RtdUpdate V)) (outcome : RefreshOutcome) : BatchLedger V N → Prop
  | intro (core' : PublishCore V N) (h : Completed core updates (applied core outcome) core') :
    CompletedOnce l core updates outcome
      { l with requested := outcome :: l.requested,
               completed := (applied core outcome, core') :: l.completed }

/-- An outcome was requested, of a completion that need not have got to its end. -/
structure Requested (l : BatchLedger V N) (outcome : RefreshOutcome) (l' : BatchLedger V N) :
    Prop where
  committed : l'.committed = l.committed
  requested : l'.requested = outcome :: l.requested

theorem CompletedOnce.toRequested {l l' : BatchLedger V N} {core : PublishCore V N}
    {outcome : RefreshOutcome} (h : CompletedOnce l core updates outcome l') :
    Requested l outcome l' := by
  cases h with
  | intro core' h => exact ⟨rfl, rfl⟩

/-- The process aborted in the completion. -/
structure Interrupted (w : World A D V N) (outcome : RefreshOutcome) (w' : World A D V N) :
    Prop where
  same      : SameArray w w'
  requested : Requested (batches w.history) outcome (batches w'.history)

/-- **One completion** of the batch of the running refresh. -/
theorem Batch.finishProtocol_spec (outcome : RefreshOutcome)
    (hrunning : w.core.refresh.running? = some batch.refreshId) :
    wp (Batch.finishProtocol host batch outcome)
      ⟨fun _ w' => SameArray w w' ∧ (∃ b, w'.batch = some b ∧ b.finished = true) ∧
          CompletedOnce (batches w.history) w.core batch.updates outcome (batches w'.history),
        fun w' => SameArray w w' ∧ (∃ b, w'.batch = some b ∧ b.finished = true) ∧
          CompletedOnce (batches w.history) w.core batch.updates outcome (batches w'.history),
        Interrupted w outcome⟩ w := by
  have hcheck := PublishCore.checkRefresh_of_running hrunning
  have happlied : (if (!decide (w.core.refresh.nextNotificationTicket < u64Max)) = true
      then RefreshOutcome.failed else outcome) = applied w.core outcome := by
    unfold applied
    by_cases h : w.core.refresh.nextNotificationTicket < u64Max <;> simp [h]
  simp only [Batch.finishProtocol, completeRefreshInner, wp_bind, wp_modify, wp_note, wp_get,
    World.note_core, hcheck, happlied]
  cases hfold : batch.updates.reverse.foldlM
      (fun core u => core.completeUpdate (applied w.core outcome) u) w.core with
  | none => exact ⟨⟨rfl, rfl, rfl, rfl⟩, rfl, rfl⟩
  | some core =>
    simp only [wp_bind, wp_note, wp_modify, wp_pure]
    have hledger : CompletedOnce (batches w.history) w.core batch.updates outcome _ :=
      .intro core hfold
    split
    · exact ⟨⟨rfl, rfl, rfl, rfl⟩, ⟨_, rfl, rfl⟩, hledger⟩
    · exact ⟨⟨rfl, rfl, rfl, rfl⟩, ⟨_, rfl, rfl⟩, hledger⟩
    · simp only [wp_bind]
      exact wp_command ⟨⟨rfl, rfl, rfl, rfl⟩, ⟨_, rfl, rfl⟩, hledger⟩
        ⟨⟨rfl, rfl, rfl, rfl⟩, ⟨_, rfl, rfl⟩, hledger⟩

theorem CompletedOnce.resetUnwound {l l' : BatchLedger V N} {core : PublishCore V N}
    {outcome : RefreshOutcome} (h : CompletedOnce l core updates outcome l') :
    l'.resetUnwound = l.resetUnwound := by
  cases h with
  | intro core' h => rfl

/-- The batch is gone, completed once with the outcome. -/
structure Settled (w : World A D V N) (updates : List (RtdUpdate V)) (outcome : RefreshOutcome)
    (w' : World A D V N) : Prop where
  same      : SameArray w w'
  batch     : w'.batch = none
  completed : CompletedOnce (batches w.history) w.core updates outcome (batches w'.history)

theorem Batch.drop_spec_of_finished (hbatch : w.batch = some batch)
    (hfinished : batch.finished = true) : wp (Batch.drop host)
      ⟨fun _ w' => SameArray w w' ∧ w'.batch = none ∧ batches w'.history = batches w.history,
        fun w' => SameArray w w' ∧ w'.batch = none ∧ batches w'.history = batches w.history,
        fun _ => False⟩ w := by
  simp only [Batch.drop, Batch.abortOnDrop, wp_bind, wp_get, hbatch, hfinished, if_true, wp_pure,
    wp_modify]
  exact wp_command ⟨⟨rfl, rfl, rfl, rfl⟩, rfl, rfl⟩ ⟨⟨rfl, rfl, rfl, rfl⟩, rfl, rfl⟩

theorem wp_batchDrop_of_none (h : w.batch = none) : wp (Batch.drop host) Q w = Q.returned () w := by
  simp only [Batch.drop, wp_bind, wp_get, h]
  rfl

/-- **Dropping a batch** that was not completed restores it. -/
theorem Batch.drop_spec (hbatch : w.batch = some batch) (hfinished : batch.finished = false)
    (hrunning : w.core.refresh.running? = some batch.refreshId) : wp (Batch.drop host)
      ⟨fun _ => Settled w batch.updates .failed, Settled w batch.updates .failed,
        Interrupted w .failed⟩ w := by
  -- What is left after the completion, however it ended.
  have hrelease : ∀ t, SameArray w t ∧ (∃ b, t.batch = some b ∧ b.finished = true) ∧
      CompletedOnce (batches w.history) w.core batch.updates .failed (batches t.history) →
      wp (command host .releaseOperation)
        ⟨fun _ => Settled w batch.updates .failed, Settled w batch.updates .failed,
          Interrupted w .failed⟩ { t with batch := none } := by
    rintro t ⟨hsame, -, hcompleted⟩
    exact wp_command ⟨⟨hsame.arrays, hsame.ready, hsame.staged, hsame.outputs⟩, rfl, hcompleted⟩
      ⟨⟨hsame.arrays, hsame.ready, hsame.staged, hsame.outputs⟩, rfl, hcompleted⟩
  simp only [Batch.drop, Batch.abortOnDrop, wp_bind, wp_get, hbatch, hfinished]
  rw [if_neg (by decide)]
  simp only [wp_bind, wp_catchUnwind]
  refine wp_mono (Batch.finishProtocol_spec .failed hrunning) (fun _ => hrelease) hrelease
    fun _ => id

/-- **Aborting a batch** restores it. -/
theorem Batch.abort_spec (hbatch : w.batch = some batch)
    (hrunning : w.core.refresh.running? = some batch.refreshId) : wp (Batch.abort host)
      ⟨fun _ => Settled w batch.updates .failed, Settled w batch.updates .failed,
        Interrupted w .failed⟩ w := by
  simp only [Batch.abort, wp_bind, wp_get, hbatch, wp_withDrop]
  refine wp_mono (Batch.finishProtocol_spec .failed hrunning) ?_ ?_ fun _ => id
  · rintro r t ⟨hsame, ⟨b, hb, hfin⟩, hcompleted⟩
    refine wp_mono (Batch.drop_spec_of_finished hb hfin) ?_ ?_ fun _ => False.elim
    · rintro - u ⟨hsame', hnone, hkept⟩
      exact ⟨hsame.trans hsame', hnone, hkept ▸ hcompleted⟩
    · rintro u ⟨hsame', hnone, hkept⟩
      exact ⟨hsame.trans hsame', hnone, hkept ▸ hcompleted⟩
  · rintro t ⟨hsame, ⟨b, hb, hfin⟩, hcompleted⟩
    refine wp_mono (Batch.drop_spec_of_finished hb hfin) ?_ ?_ fun _ => False.elim
    · rintro - u ⟨hsame', hnone, hkept⟩
      exact ⟨hsame.trans hsame', hnone, hkept ▸ hcompleted⟩
    · rintro u ⟨hsame', hnone, hkept⟩
      exact ⟨hsame.trans hsame', hkept ▸ hcompleted.toRequested⟩

/-- Nothing moved but the history, and no ledger sees the difference. -/
structure SameLedgers (w w' : World A D V N) : Prop extends SameArray w w' where
  batch   : w'.batch = w.batch
  batches : batches w'.history = batches w.history

theorem recordCleanupResult_spec (result : Except CompletionError Unit) :
    wp (recordCleanupResult host result)
      ⟨fun _ => SameLedgers w, fun _ => False, fun _ => False⟩ w := by
  cases result with
  | ok u => exact ⟨⟨rfl, rfl, rfl, rfl⟩, rfl, rfl⟩
  | error e =>
    simp only [recordCleanupResult, wp_bind, wp_catchUnwind]
    exact wp_command ⟨⟨rfl, rfl, rfl, rfl⟩, rfl, rfl⟩ ⟨⟨rfl, rfl, rfl, rfl⟩, rfl, rfl⟩

theorem CommittedRefresh.release_spec {t : World A D V N} (result : Except CompletionError Unit)
    (hsame : SameArray w t) (hbatch : ∃ b, t.batch = some b ∧ b.finished = true)
    (hcompleted : CompletedOnce (batches w.history) w.core updates .delivered
      (batches t.history)) : wp (release host result)
      ⟨fun _ => Settled w updates .delivered, fun _ => False, Interrupted w .delivered⟩ t := by
  obtain ⟨b, hb, hfinished⟩ := hbatch
  rw [release, wp_bind]
  refine wp_mono (recordCleanupResult_spec result) ?_ (fun _ => False.elim) fun _ => False.elim
  intro _ u hu
  have hsettled : ∀ v, SameArray u v ∧ v.batch = none ∧ batches v.history = batches u.history →
      Settled w updates .delivered v := by
    rintro v ⟨hsame', hnone, hkept⟩
    exact ⟨(hsame.trans hu.toSameArray).trans hsame', hnone, (hkept.trans hu.batches) ▸ hcompleted⟩
  show wp (catchUnwind (Batch.drop host) >>= _) _ u
  rw [wp_bind, wp_catchUnwind]
  exact wp_mono (Batch.drop_spec_of_finished (hu.batch.trans hb) hfinished) (fun _ => hsettled)
    hsettled fun _ => False.elim

/-- **The committed guard** completes its batch as delivered, and contains every panic. -/
theorem CommittedRefresh.finishPending_spec (hbatch : w.batch = some batch)
    (hrunning : w.core.refresh.running? = some batch.refreshId) :
    wp (finishPending host)
      ⟨fun _ => Settled w batch.updates .delivered, fun _ => False, Interrupted w .delivered⟩
      w := by
  simp only [finishPending, wp_bind, wp_get, hbatch, wp_catchUnwind]
  refine wp_mono (Batch.finishProtocol_spec .delivered hrunning) ?_ ?_ fun _ => id
  · rintro r t ⟨hsame, hb, hcompleted⟩
    exact release_spec _ hsame hb hcompleted
  · rintro t ⟨hsame, hb, hcompleted⟩
    exact release_spec _ hsame hb hcompleted

theorem wp_finishPending_of_none (h : w.batch = none)
    {Q : Post (World A D V N) (Except CompletionError Unit)} :
    wp (finishPending host) Q w = Q.returned (.ok ()) w := by
  simp only [finishPending, wp_bind, wp_get, h]
  rfl

end Xlfn.Subscription.Publication
