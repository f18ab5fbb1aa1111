import Xlfn.Kernel.SealableCounter

/-!
# Xlfn — the striped drain gate

`drain_gate.rs` spreads the admissions of one gate over `N` sealable counters.
Readers touch one stripe; management visits them all, one atomic access at a
time, and other threads run between any two of these accesses. The model
therefore keeps each management function as a procedure: a program counter and
a step function on the gate, one atomic access a step.

* `SealProc` — `seal`: every stripe, under the idle lock.
* `DrainProc` — `is_sealed` followed by `try_wait_until_idle`.
* `WaitProc` — `wait_until_idle`, with its park and its re-observation.
* `IdleSealProc` — `try_seal_if_idle`: load, compare-exchange, roll back.
* `ReopenProc` — `reopen`: the check of every stripe, then every stripe.

For each procedure `Inv` says what it knows at each program counter, and one
lemma says what a step makes of it. `MovesKeep` is what all of them share: no
management step changes a count, and the idle lock passes only between nobody
and the manager.
-/

namespace Xlfn.Kernel

/-- Who holds the idle lock of a gate: who seals it, waits on it or reopens it, or the
release of a reader on the notification path. -/
inductive IdleHolder where
  | manager
  | releaser (reader : Nat)
deriving DecidableEq

/-- `StripedDrainGate<N>`: the counters, the idle lock and the control lock. The
condition variable has no state of its own: a parked waiter is a program counter
of `WaitProc`. -/
structure StripedDrainGate (w N : Nat) where
  counters : Fin N → StateWord w
  idle     : Option IdleHolder
  control  : Bool

/-- What one step of a procedure leads to. -/
inductive Progress (γ δ : Type) where
  | running (gate : γ) (next : δ)
  | done (gate : γ) (ok : Bool)
  | failStop

/-- The step did not stop the process, and led to what `R` or `D` describes. -/
def Progress.Yields {γ δ : Type} (R : γ → δ → Prop) (D : γ → Bool → Prop) : Progress γ δ → Prop
  | .running gate next => R gate next
  | .done gate ok => D gate ok
  | .failStop => False

namespace StripedDrainGate

variable {w N : Nat}

def newOpen : StripedDrainGate w N where
  counters := fun _ => 0
  idle     := none
  control  := false

def newSealed : StripedDrainGate w N where
  counters := fun _ => sealedBit w
  idle     := none
  control  := false

def setCounter (gate : StripedDrainGate w N) (i : Fin N) (state : StateWord w) :
    StripedDrainGate w N :=
  { gate with counters := Function.update gate.counters i state }

def setIdle (gate : StripedDrainGate w N) (holder : Option IdleHolder) : StripedDrainGate w N :=
  { gate with idle := holder }

def setControl (gate : StripedDrainGate w N) (held : Bool) : StripedDrainGate w N :=
  { gate with control := held }

@[simp] theorem setIdle_counters (gate : StripedDrainGate w N) (holder : Option IdleHolder) :
    (gate.setIdle holder).counters = gate.counters := rfl

@[simp] theorem setIdle_idle (gate : StripedDrainGate w N) (holder : Option IdleHolder) :
    (gate.setIdle holder).idle = holder := rfl

@[simp] theorem setControl_counters (gate : StripedDrainGate w N) (held : Bool) :
    (gate.setControl held).counters = gate.counters := rfl

@[simp] theorem setControl_idle (gate : StripedDrainGate w N) (held : Bool) :
    (gate.setControl held).idle = gate.idle := rfl

@[simp] theorem setCounter_idle (gate : StripedDrainGate w N) (i : Fin N) (state : StateWord w) :
    (gate.setCounter i state).idle = gate.idle := rfl

@[simp] theorem setCounter_self (gate : StripedDrainGate w N) (i : Fin N) (state : StateWord w) :
    (gate.setCounter i state).counters i = state := Function.update_self ..

variable {i : Fin N} {gate gate' : StripedDrainGate w N} {state : StateWord w}

/-- The other stripes do not move. -/
theorem setCounter_ne (gate : StripedDrainGate w N) {j : Fin N} (state : StateWord w) (h : j ≠ i) :
    (gate.setCounter i state).counters j = gate.counters j :=
  Function.update_of_ne h ..

theorem forall_setCounter {P : Fin N → StateWord w → Prop}
    (hall : ∀ j, j ≠ i → P j (gate.counters j)) (hi : P i state) :
    ∀ j, P j ((gate.setCounter i state).counters j) := by
  intro j
  by_cases h : j = i
  · subst h
    rwa [setCounter_self]
  · rw [setCounter_ne gate state h]
    exact hall j h

section

variable (gate : StripedDrainGate w N)

/-- Stripe `i` rejects admission. -/
def SealedAt (i : Fin N) : Prop := isSealed (gate.counters i) = true

/-- Stripe `i` rejects admission and has no permit. -/
def IdleAt (i : Fin N) : Prop :=
  isSealed (gate.counters i) = true ∧ active (gate.counters i) = 0

/-- `StripedDrainGate::is_sealed`. -/
def AllSealed : Prop := ∀ i, gate.SealedAt i

def AllIdle : Prop := ∀ i, gate.IdleAt i

/-- Every stripe admits readers. -/
def AllOpen : Prop := ∀ i, isSealed (gate.counters i) = false

/-- Some stripe admits readers. -/
def IsOpen : Prop := ∃ i, isSealed (gate.counters i) = false

end

instance (gate : StripedDrainGate w N) : Decidable gate.AllSealed :=
  inferInstanceAs (Decidable (∀ i, isSealed (gate.counters i) = true))

instance (gate : StripedDrainGate w N) : Decidable gate.IsOpen :=
  inferInstanceAs (Decidable (∃ i, isSealed (gate.counters i) = false))

/-- An idle gate is sealed. -/
theorem AllIdle.allSealed (h : gate.AllIdle) : gate.AllSealed :=
  fun i => (h i).1

theorem AllSealed.not_isOpen (h : gate.AllSealed) : ¬gate.IsOpen := by
  rintro ⟨i, hi⟩
  have hs : isSealed (gate.counters i) = true := h i
  rw [hs] at hi
  cases hi

/-- What every management step keeps: the counts of all stripes, and an idle lock
that a releasing reader holds. -/
structure MovesKeep (gate gate' : StripedDrainGate w N) : Prop where
  active   : ∀ i, active (gate'.counters i) = active (gate.counters i)
  releaser : ∀ r, gate'.idle = some (.releaser r) ↔ gate.idle = some (.releaser r)

/-- What the steps that only seal and observe keep besides. -/
structure SealsKeep (gate gate' : StripedDrainGate w N) : Prop extends MovesKeep gate gate' where
  stays      : ∀ i, gate.SealedAt i → gate'.SealedAt i
  registered : ∀ i, isWaiting (gate.counters i) = true → isWaiting (gate'.counters i) = true

theorem MovesKeep.refl (gate : StripedDrainGate w N) : MovesKeep gate gate where
  active _ := rfl
  releaser _ := Iff.rfl

theorem SealsKeep.refl (gate : StripedDrainGate w N) : SealsKeep gate gate where
  toMovesKeep := .refl gate
  stays _ h := h
  registered _ h := h

/-- Taking the idle lock moves no count. -/
theorem MovesKeep.lock (h : gate.idle = none) : MovesKeep gate (gate.setIdle (some .manager)) where
  active _ := rfl
  releaser r := by simp [h]

/-- Taking the idle lock unseals nothing. -/
theorem SealsKeep.lock (h : gate.idle = none) : SealsKeep gate (gate.setIdle (some .manager)) where
  toMovesKeep := .lock h
  stays _ hs := hs
  registered _ hw := hw

theorem MovesKeep.unlock (h : gate.idle = some .manager) : MovesKeep gate (gate.setIdle none) where
  active _ := rfl
  releaser r := by simp [h]

theorem SealsKeep.unlock (h : gate.idle = some .manager) : SealsKeep gate (gate.setIdle none) where
  toMovesKeep := .unlock h
  stays _ hs := hs
  registered _ hw := hw

theorem MovesKeep.setCounter (h : Kernel.active state = Kernel.active (gate.counters i)) :
    MovesKeep gate (gate.setCounter i state) where
  active := forall_setCounter (P := fun j c => Kernel.active c = Kernel.active (gate.counters j))
    (fun _ _ => rfl) h
  releaser _ := Iff.rfl

theorem SealsKeep.setCounter (h : Kernel.active state = Kernel.active (gate.counters i))
    (hs : isSealed (gate.counters i) = true → isSealed state = true)
    (hw : isWaiting (gate.counters i) = true → isWaiting state = true) :
    SealsKeep gate (gate.setCounter i state) where
  toMovesKeep := .setCounter h
  stays := forall_setCounter
    (P := fun j c => isSealed (gate.counters j) = true → isSealed c = true) (fun _ _ h => h) hs
  registered := forall_setCounter
    (P := fun j c => isWaiting (gate.counters j) = true → isWaiting c = true) (fun _ _ h => h) hw

/-- `seal` of one stripe. -/
theorem keeps_seal (gate : StripedDrainGate w N) (i : Fin N) :
    SealsKeep gate (gate.setCounter i (sealWord (gate.counters i))) :=
  .setCounter (active_seal _) (fun _ => isSealed_seal _) (isWaiting_seal _).trans

/-- `mark_waiting` of one stripe. -/
theorem keeps_markWaiting (gate : StripedDrainGate w N) (i : Fin N) :
    SealsKeep gate (gate.setCounter i (markWaiting (gate.counters i))) :=
  .setCounter (active_markWaiting _) (isSealed_markWaiting _).trans fun _ => isWaiting_markWaiting _

/-- What was sealed stays sealed. -/
theorem SealsKeep.allSealed (h : SealsKeep gate gate') (hs : gate.AllSealed) : gate'.AllSealed :=
  fun i => h.stays i (hs i)

/-- What was idle stays idle. -/
theorem SealsKeep.allIdle (h : SealsKeep gate gate') (hs : gate.AllIdle) : gate'.AllIdle :=
  fun i => ⟨h.stays i (hs i).1, (h.active i).trans (hs i).2⟩

/-- What every step of a reader keeps: the sealed bits, the idle stripes, and the
manager's hold on the idle lock. -/
structure ReadersKeep (gate gate' : StripedDrainGate w N) : Prop where
  isSealed : ∀ i, isSealed (gate'.counters i) = isSealed (gate.counters i)
  idleAt   : ∀ i, gate.IdleAt i → Kernel.active (gate'.counters i) = 0
  manager  : gate'.idle = some .manager ↔ gate.idle = some .manager

theorem ReadersKeep.refl (gate : StripedDrainGate w N) : ReadersKeep gate gate where
  isSealed _ := rfl
  idleAt _ h := h.2
  manager := Iff.rfl

theorem ReadersKeep.sealedAt (h : ReadersKeep gate gate') (hs : gate.SealedAt i) :
    gate'.SealedAt i :=
  (h.isSealed i).trans hs

theorem ReadersKeep.stays (h : ReadersKeep gate gate') (hs : gate.IdleAt i) : gate'.IdleAt i :=
  ⟨h.sealedAt hs.1, h.idleAt i hs⟩

/-- Users unseal nothing. -/
theorem ReadersKeep.allSealed (h : ReadersKeep gate gate') (hs : gate.AllSealed) :
    gate'.AllSealed :=
  fun i => h.sealedAt (hs i)

end StripedDrainGate

open StripedDrainGate

variable {w N : Nat}

/-- The manager holds the idle lock exactly when `held` says so. -/
def ManagerLock (gate : StripedDrainGate w N) (held : Bool) : Prop :=
  gate.idle = some .manager ↔ held = true

variable {gate gate' : StripedDrainGate w N}

/-- Users do not take the manager's lock. -/
theorem ManagerLock.of_readers {held : Bool} (h : ManagerLock gate held)
    (hkeep : ReadersKeep gate gate') : ManagerLock gate' held :=
  hkeep.manager.trans h

theorem managerLock_setIdle_manager (gate : StripedDrainGate w N) :
    ManagerLock (gate.setIdle (some .manager)) true := by
  simp [ManagerLock]

theorem managerLock_setIdle_none (gate : StripedDrainGate w N) :
    ManagerLock (gate.setIdle none) false := by
  simp [ManagerLock]

-- ---- `seal`.

inductive SealProc where
  | lock
  | stripe (i : Nat)
deriving DecidableEq

namespace SealProc

/-- `StripedDrainGate::seal`; `none` waits for the idle lock. -/
def step (gate : StripedDrainGate w N) :
    SealProc → Option (Progress (StripedDrainGate w N) SealProc)
  | lock =>
    if gate.idle = none then some (.running (gate.setIdle (some .manager)) (stripe 0)) else none
  | stripe i =>
    if h : i < N then
      some (.running (gate.setCounter ⟨i, h⟩ (sealWord (gate.counters ⟨i, h⟩))) (stripe (i + 1)))
    else some (.done (gate.setIdle none) true)

/-- The manager holds the idle lock here. -/
def locks : SealProc → Bool
  | lock => false
  | stripe _ => true

/-- The stripes before the current one are sealed. -/
def Inv (gate : StripedDrainGate w N) : SealProc → Prop
  | lock => True
  | stripe i => ∀ j : Fin N, j.val < i → gate.SealedAt j

theorem Inv.of_readers {proc : SealProc} (h : proc.Inv gate) (hkeep : ReadersKeep gate gate') :
    proc.Inv gate' := by
  cases proc with
  | lock => exact trivial
  | stripe i => exact fun j hj => hkeep.sealedAt (h j hj)

/-- **Sealing.** It only seals, and ends with every stripe sealed. -/
theorem step_yields {proc : SealProc} {out : Progress (StripedDrainGate w N) SealProc}
    (hstep : proc.step gate = some out) (hinv : proc.Inv gate)
    (hlock : ManagerLock gate proc.locks) : out.Yields
      (fun gate' next => SealsKeep gate gate' ∧ next.Inv gate' ∧ ManagerLock gate' next.locks)
      (fun gate' ok => SealsKeep gate gate' ∧ ok = true ∧ gate'.AllSealed ∧
        ManagerLock gate' false) := by
  cases proc with
  | lock =>
    simp only [step] at hstep
    split at hstep
    next hfree =>
      cases hstep
      refine ⟨.lock hfree, ?_, managerLock_setIdle_manager gate⟩
      intro j hj
      exact absurd hj (Nat.not_lt_zero _)
    next => cases hstep
  | stripe i =>
    simp only [step] at hstep
    split at hstep
    next hi =>
      cases hstep
      refine ⟨keeps_seal gate ⟨i, hi⟩, ?_, hlock⟩
      refine forall_setCounter (P := fun j c => j.val < i + 1 → isSealed c = true) ?_ ?_
      · intro j hne hj
        have hval : j.val ≠ i := fun h => hne (Fin.ext h)
        exact hinv j (by omega)
      · intro _
        exact isSealed_seal _
    next hi =>
      cases hstep
      have hheld : gate.idle = some .manager := hlock.mpr rfl
      refine ⟨.unlock hheld, rfl, ?_, managerLock_setIdle_none gate⟩
      intro j
      exact hinv j (by have := j.isLt; omega)

end SealProc

-- ---- `try_drained`: `is_sealed`, then `try_wait_until_idle`.

inductive DrainProc where
  | checkSealed (i : Nat)
  | tryLock
  | observe (i : Nat) (idle : Bool)
deriving DecidableEq

namespace DrainProc

/-- `StripedGateControl::try_drained`; it never waits. -/
def step (gate : StripedDrainGate w N) : DrainProc → Progress (StripedDrainGate w N) DrainProc
  | checkSealed i =>
    if h : i < N then
      if isSealed (gate.counters ⟨i, h⟩) then .running gate (checkSealed (i + 1))
      else .done gate false
    else .running gate tryLock
  | tryLock =>
    if gate.idle = none then .running (gate.setIdle (some .manager)) (observe 0 true)
    else .done gate false
  | observe i idle =>
    if h : i < N then
      .running (gate.setCounter ⟨i, h⟩ (markWaiting (gate.counters ⟨i, h⟩)))
        (observe (i + 1) (idle && active (gate.counters ⟨i, h⟩) == 0))
    else .done (gate.setIdle none) idle

def locks : DrainProc → Bool
  | checkSealed _ => false
  | tryLock => false
  | observe _ _ => true

/-- The stripes checked so far are sealed; those observed so far are idle as long
as none was found active. -/
def Inv (gate : StripedDrainGate w N) : DrainProc → Prop
  | checkSealed i => ∀ j : Fin N, j.val < i → gate.SealedAt j
  | tryLock => gate.AllSealed
  | observe i idle =>
    gate.AllSealed ∧ (idle = true → ∀ j : Fin N, j.val < i → active (gate.counters j) = 0)

end DrainProc

private theorem observed_of_readers {i : Nat} {idle : Bool} (hkeep : ReadersKeep gate gate')
    (hs : gate.AllSealed)
    (h : idle = true → ∀ j : Fin N, j.val < i → active (gate.counters j) = 0) :
    idle = true → ∀ j : Fin N, j.val < i → active (gate'.counters j) = 0 :=
  fun hidle j hj => hkeep.idleAt j ⟨hs j, h hidle j hj⟩

/-- Users do not disturb a poll. -/
theorem DrainProc.Inv.of_readers {proc : DrainProc} (h : proc.Inv gate)
    (hkeep : ReadersKeep gate gate') : proc.Inv gate' := by
  cases proc with
  | checkSealed i => exact fun j hj => hkeep.sealedAt (h j hj)
  | tryLock => exact hkeep.allSealed h
  | observe i idle => exact ⟨hkeep.allSealed h.1, observed_of_readers hkeep h.1 h.2⟩

private theorem observe_next {i : Nat} {idle : Bool} (hi : i < N)
    (h : idle = true → ∀ j : Fin N, j.val < i → active (gate.counters j) = 0) :
    (idle && active (gate.counters ⟨i, hi⟩) == 0) = true → ∀ j : Fin N, j.val < i + 1 →
      active ((gate.setCounter ⟨i, hi⟩ (markWaiting (gate.counters ⟨i, hi⟩))).counters j) = 0 := by
  intro hidle
  rw [Bool.and_eq_true, beq_iff_eq] at hidle
  refine forall_setCounter (P := fun j c => j.val < i + 1 → active c = 0) ?_ ?_
  · intro j hne hj
    have hval : j.val ≠ i := fun h => hne (Fin.ext h)
    exact h hidle.1 j (by omega)
  · intro _
    rw [active_markWaiting]
    exact hidle.2

private theorem allIdle_of_observed {i : Nat} (hi : ¬i < N) (hs : gate.AllSealed)
    (h : ∀ j : Fin N, j.val < i → active (gate.counters j) = 0) : gate.AllIdle :=
  fun j => ⟨hs j, h j (by have := j.isLt; omega)⟩

/-- **Polling for drained.** It never seals or unseals; `true` is returned only
for a sealed gate without permits, and, on a sealed gate, `false` only when
another party has the idle lock or some stripe has a permit. -/
theorem DrainProc.step_yields {proc : DrainProc} (hinv : proc.Inv gate)
    (hlock : ManagerLock gate proc.locks) : (proc.step gate).Yields
      (fun gate' next => SealsKeep gate gate' ∧ next.Inv gate' ∧ ManagerLock gate' next.locks)
      (fun gate' ok => SealsKeep gate gate' ∧ (ok = true → gate'.AllIdle) ∧
        ManagerLock gate' false ∧ (ok = true → gate.idle = some .manager)) := by
  cases proc with
  | checkSealed i =>
    simp only [step]
    split
    next hi =>
      split
      next hs =>
        refine ⟨.refl gate, ?_, hlock⟩
        intro j hj
        rcases Nat.lt_succ_iff_lt_or_eq.mp hj with hlt | heq
        · exact hinv j hlt
        · have hji : j = ⟨i, hi⟩ := Fin.ext heq
          rw [hji]
          exact hs
      next =>
        exact ⟨.refl gate, fun h => absurd h Bool.false_ne_true, hlock,
          fun h => absurd h Bool.false_ne_true⟩
    next hi =>
      exact ⟨.refl gate, fun j => hinv j (by have := j.isLt; omega), hlock⟩
  | tryLock =>
    simp only [step]
    split
    next hfree =>
      refine ⟨.lock hfree, ⟨hinv, ?_⟩, managerLock_setIdle_manager gate⟩
      intro _ j hj
      exact absurd hj (Nat.not_lt_zero _)
    next =>
      exact ⟨.refl gate, fun h => absurd h Bool.false_ne_true, hlock,
        fun h => absurd h Bool.false_ne_true⟩
  | observe i idle =>
    simp only [step]
    split
    next hi =>
      have hkeep := keeps_markWaiting gate ⟨i, hi⟩
      exact ⟨hkeep, ⟨hkeep.allSealed hinv.1, observe_next hi hinv.2⟩, hlock⟩
    next hi =>
      have hheld : gate.idle = some .manager := hlock.mpr rfl
      exact ⟨.unlock hheld, fun hidle => allIdle_of_observed hi hinv.1 (hinv.2 hidle),
        managerLock_setIdle_none gate, fun _ => hheld⟩

/-- No stripe observed so far was active. -/
def DrainProc.Clean : DrainProc → Prop
  | .checkSealed _ => True
  | .tryLock => True
  | .observe _ idle => idle = true

/-- **No refusal on a drained gate**: where every stripe is sealed and idle and
no reader has the idle lock, polling ends with `true`. -/
theorem DrainProc.step_yields_of_allIdle {proc : DrainProc} (hidle : gate.AllIdle)
    (hfree : ∀ r, gate.idle ≠ some (.releaser r)) (hlock : ManagerLock gate proc.locks)
    (hclean : proc.Clean) :
    (proc.step gate).Yields (fun _ next => next.Clean) (fun _ ok => ok = true) := by
  cases proc with
  | checkSealed i =>
    simp only [step]
    split
    next hi =>
      rw [if_pos (hidle ⟨i, hi⟩).1]
      exact trivial
    next => exact trivial
  | tryLock =>
    have hnone : gate.idle = none := by
      cases hg : gate.idle with
      | none => rfl
      | some holder =>
        cases holder with
        | manager => exact absurd (hlock.mp hg) (by decide)
        | releaser r => exact absurd hg (hfree r)
    simp only [step]
    rw [if_pos hnone]
    rfl
  | observe i idle =>
    have hidle' : idle = true := hclean
    subst hidle'
    simp only [step]
    split
    next hi =>
      show (true && active (gate.counters ⟨i, hi⟩) == 0) = true
      rw [(hidle ⟨i, hi⟩).2]
      rfl
    next => rfl

-- ---- `wait_until_idle`.

inductive WaitProc where
  | lock
  | observe (i : Nat) (idle : Bool)
  | parked
deriving DecidableEq

namespace WaitProc

/-- `wait_until_idle`. Parking gives the idle lock back; a wake-up, whatever
caused it, takes it again and observes every stripe afresh. -/
def step (gate : StripedDrainGate w N) :
    WaitProc → Option (Progress (StripedDrainGate w N) WaitProc)
  | lock =>
    if gate.idle = none then some (.running (gate.setIdle (some .manager)) (observe 0 true))
    else none
  | observe i idle =>
    if h : i < N then
      some (.running (gate.setCounter ⟨i, h⟩ (markWaiting (gate.counters ⟨i, h⟩)))
        (observe (i + 1) (idle && active (gate.counters ⟨i, h⟩) == 0)))
    else if idle then some (.done (gate.setIdle none) true)
    else some (.running (gate.setIdle none) parked)
  | parked => some (.running gate lock)

def locks : WaitProc → Bool
  | lock => false
  | observe _ _ => true
  | parked => false

def Inv (gate : StripedDrainGate w N) : WaitProc → Prop
  | lock => gate.AllSealed
  | observe i idle =>
    gate.AllSealed ∧ (idle = true → ∀ j : Fin N, j.val < i → active (gate.counters j) = 0)
  | parked => gate.AllSealed

theorem Inv.of_readers {proc : WaitProc} (h : proc.Inv gate) (hkeep : ReadersKeep gate gate') :
    proc.Inv gate' := by
  cases proc with
  | lock => exact hkeep.allSealed h
  | observe i idle => exact ⟨hkeep.allSealed h.1, observed_of_readers hkeep h.1 h.2⟩
  | parked => exact hkeep.allSealed h

/-- **Waiting.** On a sealed gate it ends only with every stripe idle, seen while
the manager held the idle lock. -/
theorem step_yields {proc : WaitProc} {out : Progress (StripedDrainGate w N) WaitProc}
    (hstep : proc.step gate = some out) (hinv : proc.Inv gate)
    (hlock : ManagerLock gate proc.locks) : out.Yields
      (fun gate' next => SealsKeep gate gate' ∧ next.Inv gate' ∧ ManagerLock gate' next.locks)
      (fun gate' ok => SealsKeep gate gate' ∧ ok = true ∧ gate'.AllIdle ∧
        ManagerLock gate' false ∧ gate.idle = some .manager) := by
  cases proc with
  | lock =>
    simp only [step] at hstep
    split at hstep
    next hfree =>
      cases hstep
      refine ⟨.lock hfree, ⟨hinv, ?_⟩, managerLock_setIdle_manager gate⟩
      intro _ j hj
      exact absurd hj (Nat.not_lt_zero _)
    next => cases hstep
  | observe i idle =>
    simp only [step] at hstep
    split at hstep
    next hi =>
      cases hstep
      have hkeep := keeps_markWaiting gate ⟨i, hi⟩
      exact ⟨hkeep, ⟨hkeep.allSealed hinv.1, observe_next hi hinv.2⟩, hlock⟩
    next hi =>
      have hheld : gate.idle = some .manager := hlock.mpr rfl
      split at hstep
      next hidle =>
        cases hstep
        exact ⟨.unlock hheld, rfl, allIdle_of_observed hi hinv.1 (hinv.2 hidle),
          managerLock_setIdle_none gate, hheld⟩
      next =>
        cases hstep
        exact ⟨.unlock hheld, hinv.1, managerLock_setIdle_none gate⟩
  | parked =>
    cases hstep
    exact ⟨.refl gate, hinv, hlock⟩

end WaitProc

-- ---- `try_seal_if_idle`.

inductive IdleSealProc (w : Nat) where
  | load (i : Nat)
  | exchange (i : Nat) (state : StateWord w)
  | undo (rollback index : Nat)
deriving DecidableEq

namespace IdleSealProc

/-- `try_seal_if_idle`: each stripe is loaded and then exchanged if it still has
the loaded value; after a refusal at `index` the stripes before it are undone,
and a rejected undo stops the process. The idle lock is not taken. -/
def step (gate : StripedDrainGate w N) :
    IdleSealProc w → Progress (StripedDrainGate w N) (IdleSealProc w)
  | load i =>
    if h : i < N then
      if (idleSealLogic (gate.counters ⟨i, h⟩)).isSome then
        .running gate (exchange i (gate.counters ⟨i, h⟩))
      else .running gate (undo 0 i)
    else .done gate true
  | exchange i state =>
    if h : i < N then
      if gate.counters ⟨i, h⟩ = state then
        .running (gate.setCounter ⟨i, h⟩ (sealWord state)) (load (i + 1))
      else .running gate (undo 0 i)
    else .running gate (undo 0 i)
  | undo rollback index =>
    if h : rollback < index ∧ rollback < N then
      match undoIdleSealLogic (gate.counters ⟨rollback, h.2⟩) with
      | some state => .running (gate.setCounter ⟨rollback, h.2⟩ state) (undo (rollback + 1) index)
      | none => .failStop
    else .done gate false

/-- The stripes this attempt has sealed and not yet undone are sealed and idle. -/
def Inv (gate : StripedDrainGate w N) : IdleSealProc w → Prop
  | load i => ∀ j : Fin N, j.val < i → gate.IdleAt j
  | exchange i state =>
    (∀ j : Fin N, j.val < i → gate.IdleAt j) ∧ isSealed state = false ∧ active state = 0
  | undo rollback index => ∀ j : Fin N, rollback ≤ j.val → j.val < index → gate.IdleAt j

theorem Inv.of_readers {proc : IdleSealProc w} (h : proc.Inv gate)
    (hkeep : ReadersKeep gate gate') : proc.Inv gate' := by
  cases proc with
  | load i => exact fun j hj => hkeep.stays (h j hj)
  | exchange i state => exact ⟨fun j hj => hkeep.stays (h.1 j hj), h.2⟩
  | undo rollback index => exact fun j hle hlt => hkeep.stays (h j hle hlt)

/-- **Idle sealing.** No rollback is rejected, no count changes, and `true` means
that every stripe is sealed and idle. -/
theorem step_yields {proc : IdleSealProc w} (hinv : proc.Inv gate) : (proc.step gate).Yields
      (fun gate' next => MovesKeep gate gate' ∧ next.Inv gate' ∧ gate'.idle = gate.idle)
      (fun gate' ok => gate' = gate ∧ (ok = true → gate.AllIdle)) := by
  cases proc with
  | load i =>
    simp only [step]
    split
    next hi =>
      split
      next hs =>
        obtain ⟨t, ht⟩ := Option.isSome_iff_exists.mp hs
        obtain ⟨hopen, hzero, -⟩ := idleSealLogic_spec ht
        exact ⟨.refl gate, ⟨hinv, hopen, hzero⟩, rfl⟩
      next => exact ⟨.refl gate, fun j _ hj => hinv j hj, rfl⟩
    next hi => exact ⟨rfl, fun _ j => hinv j (by have := j.isLt; omega)⟩
  | exchange i state =>
    obtain ⟨hdone, hopen, hzero⟩ := hinv
    simp only [step]
    split
    next hi =>
      split
      next heq =>
        have hact : active (sealWord state) = active (gate.counters ⟨i, hi⟩) := by
          rw [active_seal, heq]
        refine ⟨.setCounter hact, ?_, rfl⟩
        refine forall_setCounter
          (P := fun j c => j.val < i + 1 → isSealed c = true ∧ active c = 0) ?_ ?_
        · intro j hne hj
          have hval : j.val ≠ i := fun h => hne (Fin.ext h)
          exact hdone j (by omega)
        · intro _
          exact ⟨isSealed_seal _, by rw [active_seal, hzero]⟩
      next => exact ⟨.refl gate, fun j _ hj => hdone j hj, rfl⟩
    next => exact ⟨.refl gate, fun j _ hj => hdone j hj, rfl⟩
  | undo rollback index =>
    simp only [step]
    split
    next h =>
      have hat : gate.IdleAt ⟨rollback, h.2⟩ := hinv ⟨rollback, h.2⟩ (Nat.le_refl _) h.1
      rcases undoIdleSealLogic_spec (gate.counters ⟨rollback, h.2⟩) with
        ⟨-, -, t, ht, -, -, hzero⟩ | ⟨hnot, -⟩
      · rw [ht]
        refine ⟨.setCounter (hzero.trans hat.2.symm), ?_, rfl⟩
        intro j hle hlt
        have hne : j ≠ ⟨rollback, h.2⟩ := by
          intro hj
          rw [hj] at hle
          exact absurd hle (Nat.not_succ_le_self _)
        show isSealed ((gate.setCounter _ t).counters j) = true ∧ _
        rw [IdleAt] at *
        rw [setCounter_ne gate t hne]
        exact hinv j (by omega) hlt
      · exact absurd hat hnot
    next => exact ⟨rfl, nofun⟩

end IdleSealProc

-- ---- `reopen`.

inductive ReopenProc where
  | lock
  | checkSealed (i : Nat)
  | checkActive (i : Nat)
  | stripe (i : Nat)
deriving DecidableEq

namespace ReopenProc

/-- `StripedDrainGate::reopen`: under the idle lock every stripe is checked, with
one load for each of the two conditions, and then every stripe is reopened. -/
def step (gate : StripedDrainGate w N) :
    ReopenProc → Option (Progress (StripedDrainGate w N) ReopenProc)
  | lock =>
    if gate.idle = none then some (.running (gate.setIdle (some .manager)) (checkSealed 0))
    else none
  | checkSealed i =>
    if h : i < N then
      if isSealed (gate.counters ⟨i, h⟩) then some (.running gate (checkActive i))
      else some (.done (gate.setIdle none) false)
    else some (.running gate (stripe 0))
  | checkActive i =>
    if h : i < N then
      if active (gate.counters ⟨i, h⟩) = 0 then some (.running gate (checkSealed (i + 1)))
      else some (.done (gate.setIdle none) false)
    else some (.running gate (stripe 0))
  | stripe i =>
    if h : i < N then
      match reopenStep (gate.counters ⟨i, h⟩) with
      | .success state => some (.running (gate.setCounter ⟨i, h⟩ state) (stripe (i + 1)))
      | .rejected => some (.done (gate.setIdle none) false)
      | .failStop => some .failStop
    else some (.done (gate.setIdle none) true)

def locks : ReopenProc → Bool
  | lock => false
  | checkSealed _ => true
  | checkActive _ => true
  | stripe _ => true

/-- The stripes that are still to be reopened are sealed and idle. -/
def Inv (gate : StripedDrainGate w N) : ReopenProc → Prop
  | lock => gate.AllIdle
  | checkSealed _ => gate.AllIdle
  | checkActive _ => gate.AllIdle
  | stripe i => ∀ j : Fin N, i ≤ j.val → gate.IdleAt j

theorem Inv.of_readers {proc : ReopenProc} (h : proc.Inv gate) (hkeep : ReadersKeep gate gate') :
    proc.Inv gate' := by
  cases proc with
  | stripe i => exact fun j hj => hkeep.stays (h j hj)
  | _ => exact fun j => hkeep.stays (h j)

/-- **Reopening** a drained gate is never refused. -/
theorem step_yields {proc : ReopenProc} {out : Progress (StripedDrainGate w N) ReopenProc}
    (hstep : proc.step gate = some out) (hinv : proc.Inv gate)
    (hlock : ManagerLock gate proc.locks) : out.Yields
      (fun gate' next => MovesKeep gate gate' ∧ next.Inv gate' ∧ ManagerLock gate' next.locks)
      (fun gate' ok => MovesKeep gate gate' ∧ ok = true ∧ ManagerLock gate' false) := by
  cases proc with
  | lock =>
    simp only [step] at hstep
    split at hstep
    next hfree =>
      cases hstep
      exact ⟨.lock hfree, hinv, managerLock_setIdle_manager gate⟩
    next => cases hstep
  | checkSealed i =>
    simp only [step] at hstep
    split at hstep
    next hi =>
      rw [if_pos (hinv ⟨i, hi⟩).1] at hstep
      cases hstep
      exact ⟨.refl gate, hinv, hlock⟩
    next =>
      cases hstep
      exact ⟨.refl gate, fun j _ => hinv j, hlock⟩
  | checkActive i =>
    simp only [step] at hstep
    split at hstep
    next hi =>
      rw [if_pos (hinv ⟨i, hi⟩).2] at hstep
      cases hstep
      exact ⟨.refl gate, hinv, hlock⟩
    next =>
      cases hstep
      exact ⟨.refl gate, fun j _ => hinv j, hlock⟩
  | stripe i =>
    simp only [step] at hstep
    split at hstep
    next hi =>
      have hat : gate.IdleAt ⟨i, hi⟩ := hinv ⟨i, hi⟩ (Nat.le_refl _)
      rcases reopenStep_spec (gate.counters ⟨i, hi⟩) with ⟨-, -, ht⟩ | ⟨hnot, -⟩
      · rw [ht] at hstep
        cases hstep
        refine ⟨.setCounter (active_zero.trans hat.2.symm), ?_, hlock⟩
        intro j hle
        have hne : j ≠ ⟨i, hi⟩ := by
          intro hj
          rw [hj] at hle
          exact absurd hle (Nat.not_succ_le_self _)
        rw [IdleAt, setCounter_ne gate _ hne]
        exact hinv j (by omega)
      · exact absurd hat hnot
    next hi =>
      cases hstep
      have hheld : gate.idle = some .manager := hlock.mpr rfl
      exact ⟨.unlock hheld, rfl, managerLock_setIdle_none gate⟩

end ReopenProc

end Xlfn.Kernel
