import Xlfn.Kernel.DrainWait

/-!
# Xlfn — what a client of a drain gate relies on

A component that owns a gate runs the steps of `GateSystem` among its own. What it
needs of each of them is stated here once.
-/

namespace Xlfn.Kernel

open StripedDrainGate Option

variable {w N : Nat}

/-- What one access makes of a user. -/
inductive GateUser.Next : GateUser N → GateUser N → Prop
  | acquired (i : Fin N) : Next (.entering i) (.holding i)
  | refused (i : Fin N) : Next (.entering i) .finished
  | released (i : Fin N) : Next (.holding i) .finished
  | retained (i : Fin N) : Next (.holding i) (.retained i)
  | locked (i : Fin N) : Next (.retained i) (.releasing i)
  | releasedLast (i : Fin N) : Next (.releasing i) .notifying
  | releasedLocked (i : Fin N) : Next (.releasing i) .tail
  | notified : Next .notifying .tail
  | unlocked : Next .tail .finished

/-- A user that gives up a permit of stripe `i`, up to the end of its release. -/
def GateUser.Leaving (i : Fin N) : GateUser N → Prop
  | .holding stripe => stripe = i
  | .retained stripe => stripe = i
  | .releasing stripe => stripe = i
  | .notifying => True
  | .tail => True
  | _ => False

theorem GateUser.Leaving.next {i : Fin N} {x x' : GateUser N} (h : x.Leaving i)
    (hnext : x.Next x') : x' = .finished ∨ x'.Leaving i := by
  cases hnext with
  | acquired => exact h.elim
  | refused | released | unlocked => exact .inl rfl
  | retained | locked => exact .inr h
  | releasedLast | releasedLocked | notified => exact .inr trivial

/-- The holder of the claim is inside the operation, or back from it. -/
def ControlOp.At (m : GateManager w) : ControlOp → Prop
  | .doSeal => (∃ proc, m = .sealing proc) ∨ (∃ i, m = .sealingBare i) ∨ m = .ready .sealed
  | .waitIdle => (∃ proc, m = .waiting .unknown proc) ∨ m = .ready .unknown
  | .waitIfSealed =>
    (∃ i, m = .checking i) ∨ (∃ proc, m = .waiting .drained proc) ∨ m = .ready .unknown ∨
      m = .ready .drained
  | .tryDrained =>
    (∃ proc, m = .polling .unknown proc) ∨ m = .ready .unknown ∨ m = .ready .drained
  | .trySealIfIdle => (∃ proc, m = .idleSealing proc) ∨ m = .ready .unknown ∨ m = .ready .sealed
  | .wait => (∃ proc, m = .waiting .drained proc) ∨ m = .ready .drained
  | .tryWait => (∃ proc, m = .polling .sealed proc) ∨ m = .ready .sealed ∨ m = .ready .drained
  | .reopen => (∃ proc, m = .reopening proc) ∨ m = .ready .opened

namespace GateSystem

variable {s s' : GateSystem w N} {kind : GateKind} {action : Action N}

theorem step_eq_some (h : s.step kind action = some s') : s.aborted = none := by
  unfold step at h
  split at h
  next => cases h
  next hnot => simpa using hnot

theorem enter_of_step {stripe : Fin N} (h : s.step kind (.enter stripe) = some s') :
    s' = { s with users := s.users ++ [.entering stripe] } := by
  unfold step at h
  split at h
  next => cases h
  next => exact (some.inj h).symm

variable {r : Nat}

/-- **One user moves.** Its own state takes one step, every other user and the
claim stay as they are; or the process stops, with everything as it was. -/
theorem user_step (h : s.step kind (.user r) = some s') : s'.manager = s.manager ∧
      ((∃ x x', s.users[r]? = some x ∧ x.Next x' ∧ s'.users = s.users.set r x') ∨
        s'.users = s.users ∧ s'.gate = s.gate ∧ s'.aborted.isSome = true) := by
  have hnot := step_eq_some h
  simp only [step, hnot, isSome_none, Bool.false_eq_true, if_false] at h
  unfold userStep at h
  split at h
  next => cases h
  next stripe hx =>
    split at h
    next =>
      cases h
      exact ⟨rfl, .inl ⟨_, _, hx, .acquired stripe, rfl⟩⟩
    next =>
      cases h
      exact ⟨rfl, .inl ⟨_, _, hx, .refused stripe, rfl⟩⟩
    next =>
      cases h
      exact ⟨rfl, .inr ⟨rfl, rfl, rfl⟩⟩
  next stripe hx =>
    split at h
    next =>
      cases h
      exact ⟨rfl, .inl ⟨_, _, hx, .released stripe, rfl⟩⟩
    next =>
      cases h
      exact ⟨rfl, .inl ⟨_, _, hx, .retained stripe, rfl⟩⟩
    next =>
      cases h
      exact ⟨rfl, .inr ⟨rfl, rfl, rfl⟩⟩
  next stripe hx =>
    split at h
    next =>
      cases h
      exact ⟨rfl, .inl ⟨_, _, hx, .locked stripe, rfl⟩⟩
    next => cases h
  next stripe hx =>
    split at h
    next =>
      cases h
      refine ⟨rfl, .inl ⟨_, _, hx, ?_, rfl⟩⟩
      cases releaseOutcomeStep (s.gate.counters stripe) with
      | stillActive => exact .releasedLocked stripe
      | becameIdle => exact .releasedLast stripe
    next =>
      cases h
      exact ⟨rfl, .inr ⟨rfl, rfl, rfl⟩⟩
    next =>
      cases h
      exact ⟨rfl, .inr ⟨rfl, rfl, rfl⟩⟩
  next hx =>
    cases h
    exact ⟨rfl, .inl ⟨_, _, hx, .notified, rfl⟩⟩
  next hx =>
    cases h
    exact ⟨rfl, .inl ⟨_, _, hx, .unlocked, rfl⟩⟩
  next => cases h

theorem users_advance {δ : Type} (next : δ → GateManager w) (finish : Bool → GateManager w)
    (stop : GateAbort) (out : Progress (StripedDrainGate w N) δ) :
    (s.advance next finish stop out).users = s.users := by
  cases out with
  | _ => rfl

theorem users_enterWait (result : ControlPhase) (out : Progress (StripedDrainGate w N) WaitProc) :
    (s.enterWait result out).users = s.users := by
  cases out with
  | running gate proc =>
    cases proc with
    | _ => rfl
  | _ => rfl

variable {m : GateManager w}

theorem users_manage (h : s.manage m = some s') : s'.users = s.users := by
  cases m with
  | ready phase => cases h
  | sealing proc =>
    obtain ⟨out, -, rfl⟩ := map_eq_some_iff.mp h
    exact users_advance ..
  | sealingBare i =>
    simp only [manage] at h
    split at h
    · cases h
      rfl
    · cases h
      rfl
  | checking i =>
    simp only [manage] at h
    split at h
    · split at h
      · cases h
        rfl
      · cases h
        rfl
    · cases h
      rfl
  | waiting result proc =>
    obtain ⟨out, -, rfl⟩ := map_eq_some_iff.mp h
    exact users_enterWait ..
  | polling origin proc | idleSealing proc =>
    cases h
    exact users_advance ..
  | reopening proc =>
    obtain ⟨out, -, rfl⟩ := map_eq_some_iff.mp h
    cases out with
    | running gate next => rfl
    | done gate ok =>
      cases ok with
      | true => rfl
      | false => rfl
    | failStop => rfl

variable {op : ControlOp}

/-- Beginning an operation writes the claim alone; only a `DrainGate` takes the
idle lock in the same access. -/
theorem begin_goto {phase : ControlPhase} (h : s.begin kind phase op = some s') :
    ∃ gate m, s' = s.goto gate m ∧ (kind = .striped → gate = s.gate) := by
  have hsame : ∀ {P : Prop} [Decidable P] {m : GateManager w},
      (if P then some (s.goto s.gate m) else none) = some s' →
      ∃ gate m, s' = s.goto gate m ∧ (kind = .striped → gate = s.gate) := by
    intro P _ m hif
    split at hif
    next => exact ⟨_, _, (some.inj hif).symm, fun _ => rfl⟩
    next => cases hif
  cases op with
  | doSeal => exact ⟨_, _, (some.inj h).symm, fun _ => rfl⟩
  | waitIdle | waitIfSealed | tryDrained | trySealIfIdle | wait | tryWait => exact hsame h
  | reopen =>
    simp only [begin] at h
    split at h
    next =>
      split at h
      next => exact ⟨_, _, (some.inj h).symm, fun _ => rfl⟩
      next hkind =>
        split at h
        next => exact ⟨_, _, (some.inj h).symm, fun hk => absurd hk hkind⟩
        next => cases h
    next => cases h

theorem users_begin {phase : ControlPhase} (h : s.begin kind phase op = some s') :
    s'.users = s.users := by
  obtain ⟨gate, m, rfl, -⟩ := begin_goto h
  rfl

/-- One access of a wait leaves the waiter waiting, or ready in the wait's result. -/
theorem manager_enterWait {result : ControlPhase} {proc : WaitProc}
    (hm : s.manager = some (.waiting result proc))
    (out : Progress (StripedDrainGate w N) WaitProc) :
    ∃ m, (s.enterWait result out).manager = some m ∧
      ((∃ proc, m = .waiting result proc) ∨ m = .ready result) := by
  cases out with
  | running gate next =>
    cases next with
    | _ => exact ⟨_, rfl, .inl ⟨_, rfl⟩⟩
  | done gate ok => exact ⟨_, rfl, .inr rfl⟩
  | failStop => exact ⟨_, hm, .inl ⟨proc, rfl⟩⟩

/-- The accesses of the claim's holder change no user. -/
theorem control_step (h : s.step kind action = some s') (huser : ∀ r, action ≠ .user r)
    (henter : ∀ stripe, action ≠ .enter stripe) : s'.users = s.users := by
  unfold step at h
  split at h
  next => cases h
  next =>
    cases action with
    | enter stripe => exact absurd rfl (henter stripe)
    | user r => exact absurd rfl (huser r)
    | claim | dropClaim =>
      simp only [] at h
      split at h
      · cases h
        rfl
      · cases h
    | begin op =>
      simp only [] at h
      split at h
      next phase hm => exact users_begin h
      next => cases h
    | manage =>
      simp only [] at h
      split at h
      next m hm => exact users_manage h
      next => cases h

-- ---- The holder of the claim.

theorem claim_of_step (h : s.step kind .claim = some s') :
    s.manager = none ∧ s' = s.goto s.gate (.ready .unknown) := by
  unfold step at h
  split at h
  next => cases h
  next =>
    simp only [] at h
    split at h
    next hnone => exact ⟨isNone_iff_eq_none.mp hnone, (some.inj h).symm⟩
    next => cases h

theorem dropClaim_of_step (h : s.step kind .dropClaim = some s') :
    s' = { s with manager := none } := by
  unfold step at h
  split at h
  next => cases h
  next =>
    simp only [] at h
    split at h
    next => exact (some.inj h).symm
    next => cases h

theorem begin_of_step (h : s.step kind (.begin op) = some s') :
    ∃ phase, s.manager = some (.ready phase) ∧ s.begin kind phase op = some s' := by
  unfold step at h
  split at h
  next => cases h
  next =>
    simp only [] at h
    split at h
    next phase hm => exact ⟨phase, hm, h⟩
    next => cases h

theorem manage_of_step (h : s.step kind .manage = some s') :
    ∃ m, s.manager = some m ∧ s.manage m = some s' := by
  unfold step at h
  split at h
  next => cases h
  next =>
    simp only [] at h
    split at h
    next m hm => exact ⟨m, hm, h⟩
    next => cases h

theorem at_of_begin (h : s.step kind (.begin op) = some s') :
    ∃ m, s'.manager = some m ∧ op.At m := by
  obtain ⟨phase, -, hbegin⟩ := begin_of_step h
  cases op with
  | doSeal =>
    cases hbegin
    refine ⟨_, rfl, ?_⟩
    split
    · exact .inl ⟨_, rfl⟩
    · exact .inr (.inl ⟨_, rfl⟩)
  | waitIdle | waitIfSealed | tryDrained | trySealIfIdle | wait | tryWait =>
    simp only [begin] at hbegin
    split at hbegin
    · cases hbegin
      exact ⟨_, rfl, .inl ⟨_, rfl⟩⟩
    · cases hbegin
  | reopen =>
    simp only [begin] at hbegin
    split at hbegin
    · split at hbegin
      · cases hbegin
        exact ⟨_, rfl, .inl ⟨_, rfl⟩⟩
      · split at hbegin
        · cases hbegin
          exact ⟨_, rfl, .inl ⟨_, rfl⟩⟩
        · cases hbegin
    · cases hbegin

theorem at_of_manage (hm : s.manager = some m) (hat : op.At m) (h : s.step kind .manage = some s') :
    ∃ m', s'.manager = some m' ∧ op.At m' := by
  obtain ⟨m₀, hm₀, hmanage⟩ := manage_of_step h
  cases hm.symm.trans hm₀
  cases op with
  | doSeal =>
    rcases hat with ⟨proc, rfl⟩ | ⟨i, rfl⟩ | rfl
    · obtain ⟨out, -, rfl⟩ := map_eq_some_iff.mp hmanage
      cases out with
      | running gate next => exact ⟨_, rfl, .inl ⟨next, rfl⟩⟩
      | done gate ok => exact ⟨_, rfl, .inr (.inr rfl)⟩
      | failStop => exact ⟨_, hm, .inl ⟨proc, rfl⟩⟩
    · simp only [manage] at hmanage
      split at hmanage
      · cases hmanage
        exact ⟨_, rfl, .inr (.inl ⟨i + 1, rfl⟩)⟩
      · cases hmanage
        exact ⟨_, rfl, .inr (.inr rfl)⟩
    · cases hmanage
  | waitIdle =>
    rcases hat with ⟨proc, rfl⟩ | rfl
    · obtain ⟨out, -, rfl⟩ := map_eq_some_iff.mp hmanage
      obtain ⟨m', hm', hor⟩ := manager_enterWait hm out
      exact ⟨m', hm', hor⟩
    · cases hmanage
  | waitIfSealed =>
    rcases hat with ⟨i, rfl⟩ | ⟨proc, rfl⟩ | rfl | rfl
    · simp only [manage] at hmanage
      split at hmanage
      · split at hmanage
        · cases hmanage
          exact ⟨_, rfl, .inl ⟨i + 1, rfl⟩⟩
        · cases hmanage
          exact ⟨_, rfl, .inr (.inr (.inl rfl))⟩
      · cases hmanage
        exact ⟨_, rfl, .inr (.inl ⟨_, rfl⟩)⟩
    · obtain ⟨out, -, rfl⟩ := map_eq_some_iff.mp hmanage
      obtain ⟨m', hm', hor⟩ := manager_enterWait hm out
      exact ⟨m', hm', .inr (hor.imp_right .inr)⟩
    · cases hmanage
    · cases hmanage
  | tryDrained | trySealIfIdle | tryWait =>
    rcases hat with ⟨proc, rfl⟩ | rfl | rfl
    · cases hmanage
      cases proc.step s.gate with
      | running gate next => exact ⟨_, rfl, .inl ⟨next, rfl⟩⟩
      | done gate ok =>
        cases ok with
        | true => exact ⟨_, rfl, .inr (.inr rfl)⟩
        | false => exact ⟨_, rfl, .inr (.inl rfl)⟩
      | failStop => exact ⟨_, hm, .inl ⟨proc, rfl⟩⟩
    · cases hmanage
    · cases hmanage
  | wait =>
    rcases hat with ⟨proc, rfl⟩ | rfl
    · obtain ⟨out, -, rfl⟩ := map_eq_some_iff.mp hmanage
      exact manager_enterWait hm out
    · cases hmanage
  | reopen =>
    rcases hat with ⟨proc, rfl⟩ | rfl
    · obtain ⟨out, -, rfl⟩ := map_eq_some_iff.mp hmanage
      cases out with
      | running gate next => exact ⟨_, rfl, .inl ⟨next, rfl⟩⟩
      | done gate ok =>
        cases ok with
        | true => exact ⟨_, rfl, .inr rfl⟩
        | false => exact ⟨_, hm, .inl ⟨proc, rfl⟩⟩
      | failStop => exact ⟨_, hm, .inl ⟨proc, rfl⟩⟩
    · cases hmanage

-- ---- A drained gate.

/-- Nobody has a permit of a drained gate. -/
theorem Inv.not_holds (hinv : s.Inv) (hidle : s.gate.AllIdle) {x : GateUser N}
    (hx : s.users[r]? = some x) (i : Fin N) : x.holds i = false := by
  cases hholds : x.holds i with
  | false => rfl
  | true =>
    have hpos := hinv.active_pos hx hholds
    rw [(hidle i).2] at hpos
    exact absurd hpos (Nat.lt_irrefl 0)

theorem Inv.allIdle_manage (hinv : s.Inv) (hm : s.manager = some m) (h : s.manage m = some s')
    (hidle : s.gate.AllIdle) (hreopen : ∀ proc, m ≠ .reopening proc)
    (hseal : ∀ proc, m ≠ .idleSealing proc) : s'.gate.AllIdle := by
  have hlock := hinv.lock_of hm
  have hstage := hinv.stage m hm
  cases m with
  | ready phase => cases h
  | sealing proc =>
    obtain ⟨out, hout, rfl⟩ := map_eq_some_iff.mp h
    have hyields := proc.step_yields hout hstage hlock
    cases out with
    | running gate next | done gate ok => exact hyields.1.allIdle hidle
    | failStop => exact hidle
  | sealingBare i =>
    simp only [GateSystem.manage] at h
    split at h
    next hi =>
      cases h
      exact (keeps_seal s.gate ⟨i, hi⟩).allIdle hidle
    next =>
      cases h
      exact hidle
  | checking i =>
    simp only [GateSystem.manage] at h
    split at h
    · split at h
      · cases h
        exact hidle
      · cases h
        exact hidle
    · cases h
      exact hidle
  | waiting result proc =>
    obtain ⟨out, hout, rfl⟩ := map_eq_some_iff.mp h
    have hyields := (hinv.stage _ hm).2.2.step (hinv.lock_of hm) hout
    cases out with
    | running gate next =>
      have hgate : (s.enterWait result (.running gate next)).gate = gate := by
        cases next with
        | _ => rfl
      rw [hgate]
      exact hyields.1.allIdle hidle
    | done gate ok => exact hyields.1.allIdle hidle
    | failStop => exact hidle
  | polling origin proc =>
    have hyields := proc.step_yields hstage.2 hlock
    cases h
    generalize proc.step s.gate = out at hyields
    cases out with
    | running gate next | done gate ok => exact hyields.1.allIdle hidle
    | failStop => exact hidle
  | idleSealing proc => exact absurd rfl (hseal proc)
  | reopening proc => exact absurd rfl (hreopen proc)

theorem Inv.allIdle_user (hinv : s.Inv) (h : s.step kind (.user r) = some s')
    (hidle : s.gate.AllIdle) : s'.gate.AllIdle := by
  unfold GateSystem.step at h
  split at h
  next => cases h
  next =>
    have hkeep := (userMove_of_userStep h).keep hinv.toUsersInv
    exact fun i => hkeep.stays (hidle i)

/-- **A drained gate stays drained** until the holder of the claim reopens it or
rolls an idle seal back. -/
theorem Inv.allIdle_step (hinv : s.Inv) (h : s.step .striped action = some s')
    (hidle : s.gate.AllIdle) (hreopen : ∀ proc, s.manager ≠ some (.reopening proc))
    (hseal : ∀ proc, s.manager ≠ some (.idleSealing proc)) : s'.gate.AllIdle := by
  cases action with
  | enter stripe =>
    rw [enter_of_step h]
    exact hidle
  | user r => exact hinv.allIdle_user h hidle
  | claim =>
    rw [(claim_of_step h).2]
    exact hidle
  | dropClaim =>
    rw [dropClaim_of_step h]
    exact hidle
  | begin op =>
    obtain ⟨phase, hm, hbegin⟩ := begin_of_step h
    obtain ⟨gate, m, rfl, hgate⟩ := begin_goto hbegin
    rw [← hgate rfl] at hidle
    exact hidle
  | manage =>
    obtain ⟨m, hm, hmanage⟩ := manage_of_step h
    exact hinv.allIdle_manage hm hmanage hidle (fun proc hp => hreopen proc (hm.trans (congrArg some hp)))
      (fun proc hp => hseal proc (hm.trans (congrArg some hp)))

end GateSystem

end Xlfn.Kernel
