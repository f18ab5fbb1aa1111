import Xlfn.Kernel.DrainWait

/-!
# Xlfn — sealing an idle gate

`try_seal_if_idle` seals a striped gate one compare-exchange at a time, and undoes its own seals
where a stripe refuses. Around it users acquire and release permits, and waiters register on
stripes at any moment, also without the claim.

* `Attempt`             — what an attempt has sealed and not yet undone.
-/

namespace Xlfn.Kernel

open Lib StripedDrainGate Option GateSystem

namespace IdleSealSystem

variable {w N : Nat}

inductive Action (N : Nat) where
  /-- A step of the gate and its parties. -/
  | gate (action : GateSystem.Action N)
  /-- `mark_waiting` on a stripe, by any thread. -/
  | mark (stripe : Fin N)
deriving DecidableEq

def mark (s : GateSystem w N) (stripe : Fin N) : GateSystem w N :=
  s.setCounter stripe (markWaiting (s.gate.counters stripe))

def step (s : GateSystem w N) : Action N → Option (GateSystem w N)
  | .gate action => s.step .striped action
  | .mark stripe => if s.aborted.isSome then none else some (mark s stripe)

/-- The holder of the claim is inside `try_seal_if_idle`. -/
def attempting : Option (GateManager w) → Bool
  | some (.idleSealing _) => true
  | _ => false

def Attempting (s : GateSystem w N) (_ : Action N) : Prop := attempting s.manager = true

instance (s : GateSystem w N) (action : Action N) : Decidable (Attempting s action) :=
  inferInstanceAs (Decidable (attempting s.manager = true))

/-- The action is no call of `reopen`. -/
def KeepsClosed (_ : GateSystem w N) (action : Action N) : Prop :=
  action ≠ .gate (.begin .reopen)

-- ---- Registration.

variable {s s' : GateSystem w N}

theorem mark_active (s : GateSystem w N) (stripe : Fin N) (i : Fin N) :
    active ((mark s stripe).gate.counters i) = active (s.gate.counters i) :=
  forall_setCounter (P := fun j c => active c = active (s.gate.counters j))
    (fun _ _ => rfl) (active_markWaiting _) i

theorem mark_isSealed (s : GateSystem w N) (stripe : Fin N) (i : Fin N) :
    isSealed ((mark s stripe).gate.counters i) = isSealed (s.gate.counters i) :=
  forall_setCounter (P := fun j c => isSealed c = isSealed (s.gate.counters j))
    (fun _ _ => rfl) (isSealed_markWaiting _) i

theorem mark_isWaiting (s : GateSystem w N) (stripe : Fin N) (i : Fin N)
    (h : isWaiting (s.gate.counters i) = true) :
    isWaiting ((mark s stripe).gate.counters i) = true :=
  forall_setCounter
    (P := fun j c => isWaiting (s.gate.counters j) = true → isWaiting c = true)
    (fun _ _ h => h) (fun _ => isWaiting_markWaiting _) i h

theorem mark_keeps (s : GateSystem w N) (stripe : Fin N) :
    ReadersKeep s.gate (mark s stripe).gate where
  isSealed := mark_isSealed s stripe
  idleAt i h := (mark_active s stripe i).trans h.2
  manager := Iff.rfl

theorem observed_mark {i : Nat} {idle : Bool} (h : GateSystem.Observed s.gate i idle)
    (stripe : Fin N) : GateSystem.Observed (mark s stripe).gate i idle where
  registered j hj := mark_isWaiting s stripe j (h.registered j hj)
  busy hidle := by
    obtain ⟨j, hj, hpos⟩ := h.busy hidle
    exact ⟨j, hj, by rw [mark_active]; exact hpos⟩
  drained hidle j hj hs := by
    rw [mark_active]
    exact h.drained hidle j hj ((mark_isSealed s stripe j).symm.trans hs)

theorem stage_mark {m : GateManager w} (h : s.Stage m) (stripe : Fin N) :
    (mark s stripe).Stage m := by
  have hkeep := mark_keeps s stripe
  cases m with
  | ready phase =>
    exact ⟨fun hp => hkeep.allSealed (h.1 hp), fun hp i => hkeep.stays (h.2.1 hp i),
      fun hp i => (hkeep.isSealed i).trans (h.2.2 hp i)⟩
  | sealing proc => exact SealProc.Inv.of_readers h hkeep
  | sealingBare i | checking i => exact fun j hj => hkeep.sealedAt (h j hj)
  | waiting result proc =>
    refine ⟨fun hr => hkeep.allSealed (h.1 hr), h.2.1, ?_⟩
    cases proc with
    | lock => exact trivial
    | observe i idle => exact observed_mark h.2.2 stripe
    | parked =>
      intro hn
      obtain ⟨hreg, hwake⟩ := h.2.2 hn
      refine ⟨fun i => mark_isWaiting s stripe i (hreg i), hwake.imp_left ?_⟩
      rintro ⟨i, hpos⟩
      exact ⟨i, by rw [mark_active]; exact hpos⟩
  | polling origin proc =>
    exact ⟨h.1.imp_right fun ho => ⟨ho.1, hkeep.allSealed ho.2⟩, DrainProc.Inv.of_readers h.2 hkeep⟩
  | idleSealing proc => exact IdleSealProc.Inv.of_readers h hkeep
  | reopening proc =>
    refine ⟨ReopenProc.Inv.of_readers h.1 hkeep, ?_⟩
    cases proc with
    | stripe i => exact fun j hj => (hkeep.isSealed j).trans (h.2 j hj)
    | _ => exact trivial

theorem inv_mark (hinv : s.Inv) (stripe : Fin N) : (mark s stripe).Inv :=
  { hinv with
    counted i := (mark_active s stripe i).trans (hinv.counted i)
    stage m hm := stage_mark (hinv.stage m hm) stripe }

variable {action : Action N} {before : Fin N → Bool} {gate : StripedDrainGate w N}
  {proc : IdleSealProc w}

theorem inv_step (hinv : s.Inv) (h : step s action = some s') : s'.Inv := by
  cases action with
  | gate action => exact hinv.step h
  | mark stripe =>
    simp only [step] at h
    split at h
    next => cases h
    next =>
      cases h
      exact inv_mark hinv stripe

-- ---- An attempt.

/-- The seals of the gate, against those before the attempt: more exactly on the stripes that it
has sealed and not yet undone. -/
def Attempt (before : Fin N → Bool) (gate : StripedDrainGate w N) : IdleSealProc w → Prop
  | .load i => ∀ j : Fin N, (j.val < i → before j = false) ∧
    (i ≤ j.val → isSealed (gate.counters j) = before j)
  | .exchange i _ => ∀ j : Fin N, (j.val < i → before j = false) ∧
    (i ≤ j.val → isSealed (gate.counters j) = before j)
  | .undo rollback index => ∀ j : Fin N, (rollback ≤ j.val → j.val < index → before j = false) ∧
    (j.val < rollback ∨ index ≤ j.val → isSealed (gate.counters j) = before j)

theorem Attempt.congr {gate' : StripedDrainGate w N} (h : Attempt before gate proc)
    (hseals : ∀ i, isSealed (gate'.counters i) = isSealed (gate.counters i)) :
    Attempt before gate' proc := by
  cases proc with
  | load i | exchange i state | undo rollback index =>
    exact fun j => ⟨(h j).1, fun hj => (hseals j).trans ((h j).2 hj)⟩

theorem attempt_undo {i : Nat} (h : ∀ j : Fin N, (j.val < i → before j = false) ∧
      (i ≤ j.val → isSealed (gate.counters j) = before j)) : Attempt before gate (.undo 0 i) :=
  fun j => ⟨fun _ hj => (h j).1 hj, fun hj => (h j).2 (hj.resolve_left (Nat.not_lt_zero _))⟩

/-- **One access of the attempt**: no registration is lost, and the account of the seals stays
right; a refused attempt returns with the seals there were. -/
theorem attempt_step (hinv : proc.Inv gate) (h : Attempt before gate proc) : (proc.step gate).Yields
      (fun gate' next => Attempt before gate' next ∧
        ∀ i, isWaiting (gate'.counters i) = isWaiting (gate.counters i))
      (fun gate' ok => gate' = gate ∧
        (ok = false → ∀ i, isSealed (gate.counters i) = before i)) := by
  cases proc with
  | load i =>
    simp only [IdleSealProc.step]
    split
    next hi =>
      split
      next => exact ⟨h, fun _ => rfl⟩
      next => exact ⟨attempt_undo h, fun _ => rfl⟩
    next => exact ⟨rfl, (fun h => by cases h)⟩
  | exchange i state =>
    obtain ⟨-, hopen, -⟩ := hinv
    simp only [IdleSealProc.step]
    split
    next hi =>
      split
      next heq =>
        have hbefore : before ⟨i, hi⟩ = false :=
          ((h ⟨i, hi⟩).2 (Nat.le_refl i)).symm.trans (heq ▸ hopen)
        refine ⟨fun j => ⟨fun hj => ?_, fun hj => ?_⟩, ?_⟩
        · rcases Nat.lt_succ_iff_lt_or_eq.mp hj with hlt | hji
          · exact (h j).1 hlt
          · have hj' : j = ⟨i, hi⟩ := Fin.ext hji
            rw [hj']
            exact hbefore
        · have hne : j ≠ ⟨i, hi⟩ := by
            rintro rfl
            exact absurd hj (Nat.not_succ_le_self i)
          rw [setCounter_ne gate _ hne]
          exact (h j).2 (Nat.le_of_succ_le hj)
        · exact forall_setCounter (P := fun j c => isWaiting c = isWaiting (gate.counters j))
            (fun _ _ => rfl) (by rw [isWaiting_seal, heq])
      next => exact ⟨attempt_undo h, fun _ => rfl⟩
    next => exact ⟨attempt_undo h, fun _ => rfl⟩
  | undo rollback index =>
    simp only [IdleSealProc.step]
    split
    next hlt =>
      have hat : gate.IdleAt ⟨rollback, hlt.2⟩ := hinv ⟨rollback, hlt.2⟩ (Nat.le_refl _) hlt.1
      rcases undoIdleSealLogic_spec (gate.counters ⟨rollback, hlt.2⟩) with
        ⟨-, -, t, ht, hopen, hwaiting, -⟩ | ⟨hnot, -⟩
      · rw [ht]
        refine ⟨fun j => ⟨fun hj => (h j).1 (Nat.le_of_succ_le hj), fun hj => ?_⟩, ?_⟩
        · by_cases hji : j = ⟨rollback, hlt.2⟩
          · subst hji
            rw [setCounter_self, hopen]
            exact ((h ⟨rollback, hlt.2⟩).1 (Nat.le_refl _) hlt.1).symm
          · have hval : j.val ≠ rollback := fun heq => hji (Fin.ext heq)
            rw [setCounter_ne gate _ hji]
            exact (h j).2 (hj.imp_left fun hle => by omega)
        · exact forall_setCounter (P := fun j c => isWaiting c = isWaiting (gate.counters j))
            (fun _ _ => rfl) hwaiting
      · exact absurd hat hnot
    next hdone =>
      refine ⟨rfl, fun _ j => (h j).2 ?_⟩
      have hj := j.isLt
      omega

-- ---- A whole attempt.

/-- Where an attempt stands that found the seals `before`. -/
structure During (before : Fin N → Bool) (s : GateSystem w N) : Prop where
  inv     : s.Inv
  outcome : (∃ proc, s.manager = some (.idleSealing proc) ∧ Attempt before s.gate proc) ∨
    (s.manager = some (.ready .sealed) ∧ s.gate.AllIdle) ∨
    (s.manager = some (.ready .unknown) ∧ ∀ i, isSealed (s.gate.counters i) = before i)

theorem manage_idleSealing (hinv : s.Inv) (hm : s.manager = some (.idleSealing proc))
    (hattempt : Attempt before s.gate proc) (h : s.manage (.idleSealing proc) = some s') :
    ((∃ proc, s'.manager = some (.idleSealing proc) ∧ Attempt before s'.gate proc) ∨
      (s'.manager = some (.ready .sealed) ∧ s'.gate.AllIdle) ∨
      (s'.manager = some (.ready .unknown) ∧ ∀ i, isSealed (s'.gate.counters i) = before i)) ∧
    ∀ i, isWaiting (s'.gate.counters i) = isWaiting (s.gate.counters i) := by
  have hproc : proc.Inv s.gate := hinv.stage _ hm
  have hseals := attempt_step hproc hattempt
  have hidle := proc.step_yields hproc
  simp only [manage] at h
  generalize proc.step s.gate = out at h hseals hidle
  cases h
  cases out with
  | running gate' next => exact ⟨.inl ⟨next, rfl, hseals.1⟩, hseals.2⟩
  | done gate' ok =>
    obtain ⟨rfl, hall⟩ := hidle
    refine ⟨.inr ?_, fun _ => rfl⟩
    cases ok with
    | true => exact .inl ⟨rfl, hall rfl⟩
    | false => exact .inr ⟨rfl, hseals.2 rfl⟩
  | failStop => exact hidle.elim

theorem Attempting.exists_proc (h : Attempting s action) :
    ∃ proc, s.manager = some (.idleSealing proc) := by
  unfold Attempting at h
  generalize s.manager = manager at h
  match manager, h with
  | some (.idleSealing proc), _ => exact ⟨proc, rfl⟩

/-- **One step of the system during an attempt.** -/
theorem During.step (h : During before s) (hattempting : Attempting s action)
    (hstep : step s action = some s') : During before s' ∧
      ∀ i, isWaiting (s.gate.counters i) = true → isWaiting (s'.gate.counters i) = true := by
  have hinv' := inv_step h.inv hstep
  obtain ⟨proc, hm⟩ := hattempting.exists_proc
  have hattempt : Attempt before s.gate proc := by
    rcases h.outcome with ⟨proc', hm', hattempt⟩ | ⟨hm', -⟩ | ⟨hm', -⟩
    · rw [hm] at hm'
      cases hm'
      exact hattempt
    · rw [hm] at hm'
      cases hm'
    · rw [hm] at hm'
      cases hm'
  cases action with
  | mark stripe =>
    simp only [IdleSealSystem.step] at hstep
    split at hstep
    next => cases hstep
    next =>
      cases hstep
      exact ⟨⟨hinv', .inl ⟨proc, hm, hattempt.congr (mark_isSealed s stripe)⟩⟩,
        mark_isWaiting s stripe⟩
  | gate action =>
    simp only [IdleSealSystem.step, GateSystem.step] at hstep
    split at hstep
    next => cases hstep
    next =>
      cases action with
      | enter stripe =>
        cases hstep
        exact ⟨⟨hinv', .inl ⟨proc, hm, hattempt⟩⟩, fun _ hw => hw⟩
      | user r =>
        have hmove := GateSystem.userMove_of_userStep hstep
        refine ⟨⟨hinv', .inl ⟨proc, hmove.manager.trans hm, ?_⟩⟩, fun i hw => ?_⟩
        · exact hattempt.congr (hmove.keep h.inv.toUsersInv).isSealed
        · exact (hmove.isWaiting i).trans hw
      | claim | dropClaim | begin op =>
        rw [hm] at hstep
        cases hstep
      | manage =>
        rw [hm] at hstep
        obtain ⟨houtcome, hwaiting⟩ := manage_idleSealing h.inv hm hattempt hstep
        exact ⟨⟨hinv', houtcome⟩, fun i hw => (hwaiting i).trans hw⟩

variable {as : List (Action N)}

theorem During.run (h : During before s) (hmeets : Meets IdleSealSystem.step Attempting s as)
    (hrun : Lib.run IdleSealSystem.step s as = some s') : During before s' :=
  run_invariant_of_meets (fun _ _ _ hd ha hs => (hd.step ha hs).1) as s s' h hmeets hrun

theorem During.waiting (h : During before s) (hmeets : Meets IdleSealSystem.step Attempting s as)
    (hrun : Lib.run IdleSealSystem.step s as = some s') {i : Fin N}
    (hwaiting : isWaiting (s.gate.counters i) = true) : isWaiting (s'.gate.counters i) = true := by
  have hkept := run_invariant_of_meets
    (I := fun t : GateSystem w N => During before t ∧ isWaiting (t.gate.counters i) = true)
    (fun t a t' ht ha hs => ⟨(ht.1.step ha hs).1, (ht.1.step ha hs).2 i ht.2⟩)
    as s s' ⟨h, hwaiting⟩ hmeets hrun
  exact hkept.2

-- ---- A sealed and idle gate.

/-- No reopening is under way, and no attempt has passed a stripe. -/
def Resting : GateManager w → Prop
  | .reopening _ => False
  | .idleSealing (.load i) => i = 0
  | .idleSealing (.exchange _ _) => False
  | .idleSealing (.undo rollback index) => rollback = 0 ∧ index = 0
  | _ => True

/-- Every stripe is sealed and idle, and nobody is about to change that. -/
structure Closed (s : GateSystem w N) : Prop where
  inv     : s.Inv
  idle    : s.gate.AllIdle
  resting : ∀ m, s.manager = some m → Resting m

theorem closed_manage (h : Closed s) {m : GateManager w} (hm : s.manager = some m)
    (hstep : s.manage m = some s') :
    s'.gate.AllIdle ∧ ∀ m', s'.manager = some m' → Resting m' := by
  have hlock := h.inv.lock_of hm
  have hstage := h.inv.stage m hm
  have hresting := h.resting m hm
  cases m with
  | ready phase => cases hstep
  | sealing proc =>
    simp only [manage] at hstep
    obtain ⟨out, hout, rfl⟩ := map_eq_some_iff.mp hstep
    have hyields := proc.step_yields hout hstage hlock
    cases out with
    | running gate' next | done gate' ok =>
      exact ⟨hyields.1.allIdle h.idle, by rintro m' ⟨⟩; trivial⟩
    | failStop => exact hyields.elim
  | sealingBare i =>
    simp only [manage] at hstep
    split at hstep
    next hi =>
      cases hstep
      exact ⟨(keeps_seal s.gate ⟨i, hi⟩).allIdle h.idle, by rintro m' ⟨⟩; trivial⟩
    next =>
      cases hstep
      exact ⟨h.idle, by rintro m' ⟨⟩; trivial⟩
  | checking i =>
    simp only [manage] at hstep
    split at hstep
    next =>
      split at hstep
      next =>
        cases hstep
        exact ⟨h.idle, by rintro m' ⟨⟩; trivial⟩
      next =>
        cases hstep
        exact ⟨h.idle, by rintro m' ⟨⟩; trivial⟩
    next =>
      cases hstep
      exact ⟨h.idle, by rintro m' ⟨⟩; trivial⟩
  | waiting result proc =>
    simp only [manage] at hstep
    obtain ⟨out, hout, rfl⟩ := map_eq_some_iff.mp hstep
    have hyields := (h.inv.stage _ hm).2.2.step (h.inv.lock_of hm) hout
    cases out with
    | running gate' next =>
      refine ⟨?_, ?_⟩
      · cases next with
        | parked => exact hyields.1.allIdle h.idle
        | _ => exact hyields.1.allIdle h.idle
      · cases next with
        | parked => rintro m' ⟨⟩; trivial
        | _ => rintro m' ⟨⟩; trivial
    | done gate' ok => exact ⟨hyields.1.allIdle h.idle, by rintro m' ⟨⟩; trivial⟩
    | failStop => exact hyields.elim
  | polling origin proc =>
    have hyields := proc.step_yields hstage.2 hlock
    simp only [manage] at hstep
    generalize proc.step s.gate = out at hstep hyields
    cases hstep
    cases out with
    | running gate' next | done gate' ok =>
      exact ⟨hyields.1.allIdle h.idle, by rintro m' ⟨⟩; trivial⟩
    | failStop => exact hyields.elim
  | idleSealing proc =>
    cases proc with
    | load i =>
      have hzero : i = 0 := hresting
      simp only [manage, IdleSealProc.step] at hstep
      split at hstep
      next hi =>
        split at hstep
        next hs =>
          obtain ⟨t, ht⟩ := isSome_iff_exists.mp hs
          have hopen := (idleSealLogic_spec ht).1
          rw [(h.idle ⟨i, hi⟩).1] at hopen
          cases hopen
        next =>
          cases hstep
          refine ⟨h.idle, ?_⟩
          rintro m' ⟨⟩
          exact ⟨rfl, hzero⟩
      next =>
        cases hstep
        exact ⟨h.idle, by rintro m' ⟨⟩; trivial⟩
    | exchange i state => exact hresting.elim
    | undo rollback index =>
      have hzero : index = 0 := hresting.2
      simp only [manage, IdleSealProc.step] at hstep
      rw [dif_neg (by omega)] at hstep
      cases hstep
      exact ⟨h.idle, by rintro m' ⟨⟩; trivial⟩
  | reopening proc => exact hresting.elim

/-- **Only `reopen` opens a closed gate.** -/
theorem Closed.step (h : Closed s) (haction : KeepsClosed s action)
    (hstep : step s action = some s') : Closed s' := by
  have hinv' := inv_step h.inv hstep
  cases action with
  | mark stripe =>
    simp only [IdleSealSystem.step] at hstep
    split at hstep
    next => cases hstep
    next =>
      cases hstep
      exact ⟨hinv', fun i => (mark_keeps s stripe).stays (h.idle i), h.resting⟩
  | gate action =>
    simp only [IdleSealSystem.step, GateSystem.step] at hstep
    split at hstep
    next => cases hstep
    next =>
      cases action with
      | enter stripe =>
        cases hstep
        exact ⟨hinv', h.idle, h.resting⟩
      | user r =>
        have hmove := GateSystem.userMove_of_userStep hstep
        refine ⟨hinv', fun i => (hmove.keep h.inv.toUsersInv).stays (h.idle i), fun m hm => ?_⟩
        rw [hmove.manager] at hm
        exact h.resting m hm
      | claim =>
        simp only [] at hstep
        split at hstep
        next =>
          cases hstep
          exact ⟨hinv', h.idle, by rintro m ⟨⟩; trivial⟩
        next => cases hstep
      | dropClaim =>
        simp only [] at hstep
        split at hstep
        next =>
          cases hstep
          exact ⟨hinv', h.idle, by rintro m ⟨⟩⟩
        next => cases hstep
      | begin op =>
        simp only [] at hstep
        split at hstep
        next phase hm =>
          have hbegin : s'.gate = s.gate ∧ ∀ m, s'.manager = some m → Resting m := by
            cases op with
            | reopen => exact absurd rfl haction
            | doSeal =>
              cases hstep
              exact ⟨rfl, by rintro m ⟨⟩; trivial⟩
            | _ =>
              simp only [GateSystem.begin] at hstep
              split at hstep
              next =>
                cases hstep
                exact ⟨rfl, by rintro m ⟨⟩; trivial⟩
              next => cases hstep
          exact ⟨hinv', by rw [hbegin.1]; exact h.idle, hbegin.2⟩
        next => cases hstep
      | manage =>
        simp only [] at hstep
        split at hstep
        next m hm =>
          obtain ⟨hidle, hresting⟩ := closed_manage h hm hstep
          exact ⟨hinv', hidle, hresting⟩
        next => cases hstep

-- ---- The guarantee.

theorem reachable_inv {sealedAtStart : Bool}
    (h : Reachable step (new sealedAtStart : GateSystem w N) s) : s.Inv :=
  Lib.Reachable.invariant (fun _ _ _ hi hs => inv_step hi hs) (new_inv sealedAtStart) h

/-- **Sealing an idle gate is all or nothing.** Take any reachable gate on which the claim holder
calls `try_seal_if_idle`, and any interleaving up to its return with users and registrations.
A registration from before or during the attempt is there at its end, and no rollback stops the
process. If it returns `true` every stripe is sealed and without a permit, through every further
interleaving until `reopen` is called; if it returns `false` the seals are the ones there were. -/
theorem try_seal_if_idle_all_or_nothing {sealedAtStart : Bool} {s₀ s₁ : GateSystem w N}
    (hreachable : Reachable step (GateSystem.new sealedAtStart : GateSystem w N) s₀)
    (hbegin : step s₀ (.gate (.begin .trySealIfIdle)) = some s₁)
    (hattempt : Meets step Attempting s₁ as) (hrun : run step s₁ as = some s) :
    (∀ i, isWaiting (s₀.gate.counters i) = true → isWaiting (s.gate.counters i) = true) ∧
    (∀ bs cs t i, as = bs ++ cs → run step s₁ bs = some t →
      isWaiting (t.gate.counters i) = true → isWaiting (s.gate.counters i) = true) ∧
    s.aborted ≠ some .undo ∧
    (∀ phase, s.manager = some (.ready phase) → phase = .sealed ∨ phase = .unknown) ∧
    (s.manager = some (.ready .sealed) → s.gate.AllIdle ∧
      ∀ bs t, Meets step KeepsClosed s bs → run step s bs = some t → t.gate.AllIdle) ∧
    (s.manager = some (.ready .unknown) →
      ∀ i, isSealed (s.gate.counters i) = isSealed (s₀.gate.counters i)) := by
  have hinv := reachable_inv hreachable
  have hstart : s₁.gate = s₀.gate ∧ s₁.manager = some (.idleSealing (.load 0)) := by
    simp only [step, GateSystem.step] at hbegin
    split at hbegin
    next => cases hbegin
    next =>
      split at hbegin
      next phase hm =>
        simp only [GateSystem.begin] at hbegin
        split at hbegin
        next =>
          cases hbegin
          exact ⟨rfl, rfl⟩
        next => cases hbegin
      next => cases hbegin
  have hfirst : During (fun i => isSealed (s₀.gate.counters i)) s₁ := by
    refine ⟨inv_step hinv hbegin, .inl ⟨_, hstart.2, fun j => ⟨?_, fun _ => ?_⟩⟩⟩
    · exact fun hj => absurd hj (Nat.not_lt_zero _)
    · rw [hstart.1]
  have hduring := hfirst.run hattempt hrun
  refine ⟨fun i hw => ?_, ?_, fun hundo => ?_, fun phase hm => ?_, fun hm => ?_, fun hm => ?_⟩
  · exact hfirst.waiting hattempt hrun (by rwa [hstart.1])
  · rintro bs cs t i rfl hbs hw
    have hrest : run step t cs = some s := by
      rwa [run_append, hbs, bind_some] at hrun
    exact (hfirst.run hattempt.of_append hbs).waiting (hattempt.of_append_right hbs) hrest hw
  · rcases hduring.inv.aborts with hnone | hsome
    · rw [hnone] at hundo
      cases hundo
    · rw [hsome] at hundo
      cases hundo
  · rcases hduring.outcome with ⟨proc, hm', -⟩ | ⟨hm', -⟩ | ⟨hm', -⟩
    · rw [hm'] at hm
      cases hm
    · rw [hm'] at hm
      cases hm
      exact .inl rfl
    · rw [hm'] at hm
      cases hm
      exact .inr rfl
  · rcases hduring.outcome with ⟨proc, hm', -⟩ | ⟨-, hidle⟩ | ⟨hm', -⟩
    · rw [hm'] at hm
      cases hm
    · have hclosed : Closed s := by
        refine ⟨hduring.inv, hidle, fun m hm' => ?_⟩
        rw [hm] at hm'
        cases hm'
        trivial
      refine ⟨hidle, fun bs t hmeets hbs => ?_⟩
      exact (run_invariant_of_meets (fun _ _ _ hc ha hs => hc.step ha hs) bs s t hclosed hmeets
        hbs).idle
    · rw [hm'] at hm
      cases hm
  · rcases hduring.outcome with ⟨proc, hm', -⟩ | ⟨hm', -⟩ | ⟨-, hseals⟩
    · rw [hm'] at hm
      cases hm
    · rw [hm'] at hm
      cases hm
    · exact hseals

/-- Two stripes: the first is sealed and marked, the second acquired before its exchange. -/
def refusedAttempt : List (Action 2) :=
  [.gate .manage, .gate .manage, .mark ⟨0, Nat.two_pos⟩, .gate .manage,
    .gate (.enter ⟨1, Nat.one_lt_two⟩), .gate (.user 0), .gate .manage, .gate .manage,
    .gate .manage]

theorem try_seal_if_idle_all_or_nothing_refused :
    ∃ s₀ s₁ s : GateSystem 30 2, run step (.new false) [.gate .claim] = some s₀ ∧
      step s₀ (.gate (.begin .trySealIfIdle)) = some s₁ ∧
      run step s₁ refusedAttempt = some s ∧ s.manager = some (.ready .unknown) ∧
      isSealed (s.gate.counters 0) = false ∧ isSealed (s.gate.counters 1) = false := by
  have hvalue : ((run step (.new false : GateSystem 30 2) [.gate .claim]).bind fun s₀ =>
      (step s₀ (.gate (.begin .trySealIfIdle))).bind fun s₁ =>
        (run step s₁ refusedAttempt).map fun s =>
          (s.manager, decide (Meets step Attempting s₁ refusedAttempt),
            isSealed (s₀.gate.counters 0), isSealed (s₀.gate.counters 1))) =
      some (some (.ready .unknown), true, false, false) := by
    decide +kernel
  obtain ⟨s₀, hclaim, hvalue⟩ := bind_eq_some_iff.mp hvalue
  obtain ⟨s₁, hbegin, hvalue⟩ := bind_eq_some_iff.mp hvalue
  obtain ⟨s, hrun, hvalue⟩ := map_eq_some_iff.mp hvalue
  simp only [Prod.mk.injEq, decide_eq_true_eq] at hvalue
  obtain ⟨hm, hmeets, hfirst, hsecond⟩ := hvalue
  have hseals := (try_seal_if_idle_all_or_nothing ⟨_, hclaim⟩ hbegin hmeets hrun).2.2.2.2.2 hm
  exact ⟨s₀, s₁, s, hclaim, hbegin, hrun, hm, (hseals 0).trans hfirst, (hseals 1).trans hsecond⟩

end IdleSealSystem

end Xlfn.Kernel
