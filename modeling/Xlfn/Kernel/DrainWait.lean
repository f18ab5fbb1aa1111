import Xlfn.Lib.Machine
import Xlfn.Lib.Table
import Xlfn.Kernel.DrainGate

/-!
# Xlfn — waiting on a drain gate

One gate with everything that can happen to it: users acquire and release
permits, and whoever holds the control claim seals the gate, waits on it, polls
it and reopens it. `drain_gate/control.rs` hands the claim out as a typestate,
so an operation is only offered in the phase its receiver type names.

* `GateUser` — one `try_enter` and the permit it returns. The last release of a
  stripe with a waiter keeps its count until it has the idle lock, decrements,
  notifies and unlocks, each in a step of its own.
* `GateManager` — the holder of the control claim, inside one of its operations.
* `notified` — the condition variable: cleared when the waiter parks, set by
  `notify_all`. A parked waiter may also wake up without it.

`GateKind` is the difference between the two gates of the source: `DrainGate`,
with one counter, seals without the idle lock, reopens without looking first and
has no `try_seal_if_idle`.

## Results

* `UserMove.parked`         — no user move loses the wake-up of a parked waiter.
* `Inv.step`                — the invariant of the gate, kept by every step.
* `claim_wakes`             — the two guarantees, for every interleaving.
-/

namespace Xlfn.Kernel

open Lib StripedDrainGate List Option

inductive GateKind where
  | drain
  | striped
deriving DecidableEq

/-- One call of `try_enter`, from its read-modify-write to the end of its permit. -/
inductive GateUser (N : Nat) where
  | entering (stripe : Fin N)
  | holding (stripe : Fin N)
  /-- `try_release_without_notification` kept the last count. -/
  | retained (stripe : Fin N)
  /-- Inside `release_and_notify`: the idle lock is held, the count is too. -/
  | releasing (stripe : Fin N)
  /-- The count is gone, `BecameIdle`, and `notify_all` is next. -/
  | notifying
  /-- The idle lock is about to be dropped. -/
  | tail
  | finished
deriving DecidableEq

/-- This user has a count on stripe `i`. -/
def GateUser.holds {N : Nat} (i : Fin N) : GateUser N → Bool
  | .holding stripe => stripe == i
  | .retained stripe => stripe == i
  | .releasing stripe => stripe == i
  | _ => false

/-- This user's release is inside its idle-lock section. -/
def GateUser.locksIdle {N : Nat} : GateUser N → Bool
  | .releasing _ => true
  | .notifying => true
  | .tail => true
  | _ => false

/-- The phase types of `GateControl` and `StripedGateControl`. -/
inductive ControlPhase where
  | unknown
  | sealed
  | drained
  | opened
deriving DecidableEq

/-- The methods of a control claim. -/
inductive ControlOp where
  | doSeal
  | waitIdle
  | waitIfSealed
  | tryDrained
  | trySealIfIdle
  | wait
  | tryWait
  | reopen
deriving DecidableEq

/-- The holder of the control claim: between two operations, or inside one.
`result` is the phase a wait returns in, `origin` the phase a refused poll
returns to. -/
inductive GateManager (w : Nat) where
  | ready (phase : ControlPhase)
  | sealing (proc : SealProc)
  | sealingBare (i : Nat)
  | checking (i : Nat)
  | waiting (result : ControlPhase) (proc : WaitProc)
  | polling (origin : ControlPhase) (proc : DrainProc)
  | idleSealing (proc : IdleSealProc w)
  | reopening (proc : ReopenProc)
deriving DecidableEq

def GateManager.locksIdle {w : Nat} : GateManager w → Bool
  | .sealing proc => proc.locks
  | .waiting _ proc => proc.locks
  | .polling _ proc => proc.locks
  | .reopening proc => proc.locks
  | _ => false

/-- The `fail_stop` branches of the gate. -/
inductive GateAbort where
  | acquire
  | release
  | undo
  | reopen
deriving DecidableEq

/-- A gate with the parties inside its operations. `manager` is the control lock:
the claim is free exactly when there is none. -/
structure GateSystem (w N : Nat) where
  gate     : StripedDrainGate w N
  users    : List (GateUser N)
  manager  : Option (GateManager w)
  notified : Bool
  aborted  : Option GateAbort

namespace GateSystem

variable {w N : Nat}

/-- `new_open` and `new_sealed`. -/
def new (sealedAtStart : Bool) : GateSystem w N where
  gate     := if sealedAtStart then .newSealed else .newOpen
  users    := []
  manager  := none
  notified := false
  aborted  := none

section

variable (s : GateSystem w N)

def setUser (r : Nat) (user : GateUser N) : GateSystem w N :=
  { s with users := s.users.set r user }

def setCounter (i : Fin N) (state : StateWord w) : GateSystem w N :=
  { s with gate := s.gate.setCounter i state }

def setIdle (holder : Option IdleHolder) : GateSystem w N :=
  { s with gate := s.gate.setIdle holder }

def notifyAll : GateSystem w N := { s with notified := true }

def abort (why : GateAbort) : GateSystem w N := { s with aborted := some why }

/-- The manager goes on in `m`, having left the gate as `gate`. -/
def goto (gate : StripedDrainGate w N) (m : GateManager w) : GateSystem w N :=
  { s with gate := gate, manager := some m }

-- ---- Users.

/-- One atomic access of user `r`: `try_enter`, then `release`. -/
def userStep (r : Nat) : Option (GateSystem w N) :=
  match s.users[r]? with
  | none => none
  | some (.entering stripe) =>
    match acquireStep (s.gate.counters stripe) with
    | .success state => some ((s.setCounter stripe state).setUser r (.holding stripe))
    | .rejected => some (s.setUser r .finished)
    | .failStop => some (s.abort .acquire)
  | some (.holding stripe) =>
    match releaseWithoutNotificationStep (s.gate.counters stripe) with
    | .success state => some ((s.setCounter stripe state).setUser r .finished)
    | .rejected => some (s.setUser r (.retained stripe))
    | .failStop => some (s.abort .release)
  | some (.retained stripe) =>
    if s.gate.idle = none then
      some ((s.setIdle (some (.releaser r))).setUser r (.releasing stripe))
    else none
  | some (.releasing stripe) =>
    match releaseStep (s.gate.counters stripe) with
    | .success state =>
      some ((s.setCounter stripe state).setUser r
        (match releaseOutcomeStep (s.gate.counters stripe) with
          | .becameIdle => .notifying
          | .stillActive => .tail))
    | .rejected => some (s.abort .release)
    | .failStop => some (s.abort .release)
  | some .notifying => some (s.notifyAll.setUser r .tail)
  | some .tail => some ((s.setIdle none).setUser r .finished)
  | some .finished => none

-- ---- The holder of the control claim.

/-- The operations a claim offers in a phase; `none` where the type has no such
method, or where `reopen` of a `DrainGate` has to wait for the idle lock. -/
def begin (kind : GateKind) (s : GateSystem w N) (phase : ControlPhase) :
    ControlOp → Option (GateSystem w N)
  | .doSeal =>
    some (s.goto s.gate (if kind = .striped then .sealing .lock else .sealingBare 0))
  | .waitIdle =>
    if phase = .unknown then some (s.goto s.gate (.waiting .unknown .lock)) else none
  | .waitIfSealed => if phase = .unknown then some (s.goto s.gate (.checking 0)) else none
  | .tryDrained =>
    if phase = .unknown then some (s.goto s.gate (.polling .unknown (.checkSealed 0))) else none
  | .trySealIfIdle =>
    if kind = .striped ∧ phase = .unknown then some (s.goto s.gate (.idleSealing (.load 0)))
    else none
  | .wait => if phase = .sealed then some (s.goto s.gate (.waiting .drained .lock)) else none
  | .tryWait =>
    if kind = .striped ∧ phase = .sealed then some (s.goto s.gate (.polling .sealed .tryLock))
    else none
  | .reopen =>
    if phase = .drained then
      if kind = .striped then some (s.goto s.gate (.reopening .lock))
      else if s.gate.idle = none then
        some (s.goto (s.gate.setIdle (some .manager)) (.reopening (.stripe 0)))
      else none
    else none

/-- Go on after one step of a procedure. -/
def advance {δ : Type} (next : δ → GateManager w)
    (finish : Bool → GateManager w) (stop : GateAbort) :
    Progress (StripedDrainGate w N) δ → GateSystem w N
  | .running gate proc => s.goto gate (next proc)
  | .done gate ok => s.goto gate (finish ok)
  | .failStop => s.abort stop

/-- The waiter that parks has not been notified yet. -/
def enterWait (result : ControlPhase) : Progress (StripedDrainGate w N) WaitProc → GateSystem w N
  | .running gate .parked => { s with notified := false }.goto gate (.waiting result .parked)
  | out => s.advance (.waiting result) (fun _ => .ready result) .release out

/-- One atomic access of the holder of the control claim. -/
def manage : GateManager w → Option (GateSystem w N)
  | .ready _ => none
  | .sealing proc =>
    (proc.step s.gate).map (s.advance .sealing (fun _ => .ready .sealed) .release)
  | .sealingBare i =>
    if h : i < N then
      some (s.goto (s.gate.setCounter ⟨i, h⟩ (sealWord (s.gate.counters ⟨i, h⟩)))
        (.sealingBare (i + 1)))
    else some (s.goto s.gate (.ready .sealed))
  | .checking i =>
    if h : i < N then
      if isSealed (s.gate.counters ⟨i, h⟩) then some (s.goto s.gate (.checking (i + 1)))
      else some (s.goto s.gate (.ready .unknown))
    else some (s.goto s.gate (.waiting .drained .lock))
  | .waiting result proc => (proc.step s.gate).map (s.enterWait result)
  | .polling origin proc =>
    some (s.advance (.polling origin) (fun ok => .ready (if ok then .drained else origin)) .release
      (proc.step s.gate))
  | .idleSealing proc =>
    some (s.advance .idleSealing (fun ok => .ready (if ok then .sealed else .unknown)) .undo
      (proc.step s.gate))
  | .reopening proc =>
    (proc.step s.gate).map fun out =>
      match out with
      | .done _ false => s.abort .reopen
      | out => s.advance .reopening (fun _ => .ready .opened) .reopen out

end

-- ---- The machine.

inductive Action (N : Nat) where
  /-- A call of `try_enter`. -/
  | enter (stripe : Fin N)
  /-- The next access of one user. -/
  | user (r : Nat)
  /-- `control()` or `try_control()` gets the claim. -/
  | claim
  /-- The claim is dropped. -/
  | dropClaim
  /-- The holder of the claim calls one of its methods. -/
  | begin (op : ControlOp)
  /-- The next access of the holder of the claim. -/
  | manage
deriving DecidableEq

def step (kind : GateKind) (s : GateSystem w N) (action : Action N) : Option (GateSystem w N) :=
  if s.aborted.isSome then none
  else match action with
  | .enter stripe => some { s with users := s.users ++ [.entering stripe] }
  | .user r => s.userStep r
  | .claim =>
    if s.manager.isNone then some (s.goto s.gate (.ready .unknown)) else none
  | .dropClaim =>
    match s.manager with
    | some (.ready _) => some { s with manager := none }
    | _ => none
  | .begin op =>
    match s.manager with
    | some (.ready phase) => s.begin kind phase op
    | _ => none
  | .manage =>
    match s.manager with
    | some m => s.manage m
    | none => none

variable {s s' : GateSystem w N} {kind : GateKind}

-- ---- What a user can do.

/-- The steps of user `r`, with what each does to the words, the idle lock and
the condition variable. -/
inductive UserMove (s : GateSystem w N) (r : Nat) : GateSystem w N → Prop
  /-- The gate is not written: a refused acquisition or a retained last count. -/
  | quiet {x x' : GateUser N} (hx : s.users[r]? = some x)
      (holds : ∀ i, x'.holds i = x.holds i)
      (locks : x.locksIdle = false) (locks' : x'.locksIdle = false) :
      UserMove s r (s.setUser r x')
  | acquire {stripe : Fin N} {state : StateWord w}
      (hx : s.users[r]? = some (.entering stripe))
      (hopen : isSealed (s.gate.counters stripe) = false) (hsealed : isSealed state = false)
      (hwaiting : isWaiting state = isWaiting (s.gate.counters stripe))
      (hactive : active state = active (s.gate.counters stripe) + 1) :
      UserMove s r ((s.setCounter stripe state).setUser r (.holding stripe))
  /-- The release that needs no notification: not the last count before a waiter. -/
  | release {stripe : Fin N} {state : StateWord w}
      (hx : s.users[r]? = some (.holding stripe))
      (hsealed : isSealed state = isSealed (s.gate.counters stripe))
      (hwaiting : isWaiting state = isWaiting (s.gate.counters stripe))
      (hactive : active state + 1 = active (s.gate.counters stripe))
      (hlast : isWaiting (s.gate.counters stripe) = true → 0 < active state) :
      UserMove s r ((s.setCounter stripe state).setUser r .finished)
  | lockIdle {stripe : Fin N} (hx : s.users[r]? = some (.retained stripe))
      (hfree : s.gate.idle = none) :
      UserMove s r ((s.setIdle (some (.releaser r))).setUser r (.releasing stripe))
  /-- The release under the idle lock; at zero a notification follows. -/
  | releaseLocked {stripe : Fin N} {state : StateWord w} {x' : GateUser N}
      (hx : s.users[r]? = some (.releasing stripe))
      (hsealed : isSealed state = isSealed (s.gate.counters stripe))
      (hwaiting : isWaiting state = isWaiting (s.gate.counters stripe))
      (hactive : active state + 1 = active (s.gate.counters stripe))
      (hnext : 0 < active state ∧ x' = .tail ∨ x' = .notifying) :
      UserMove s r ((s.setCounter stripe state).setUser r x')
  | notify (hx : s.users[r]? = some .notifying) :
      UserMove s r (s.notifyAll.setUser r .tail)
  | unlockIdle (hx : s.users[r]? = some .tail) :
      UserMove s r ((s.setIdle none).setUser r .finished)
  /-- The count of a stripe is full. -/
  | overflow : UserMove s r (s.abort .acquire)
  /-- The count of a stripe this user holds a permit of is zero. -/
  | underflow {x : GateUser N} {stripe : Fin N} (hx : s.users[r]? = some x)
      (holds : x.holds stripe = true) (hzero : active (s.gate.counters stripe) = 0) :
      UserMove s r (s.abort .release)

variable {r : Nat} {x : GateUser N} {m : GateManager w} {gate : StripedDrainGate w N}
  {result : ControlPhase} {proc : WaitProc}

/-- **Inversion**: a step of a user is one of its moves. -/
theorem userMove_of_userStep (h : s.userStep r = some s') : UserMove s r s' := by
  unfold userStep at h
  split at h
  next => cases h
  next stripe hx =>
    rcases acquireStep_spec (s.gate.counters stripe) with
      ⟨-, hout⟩ | ⟨-, -, hout⟩ | ⟨hopen, t, hout, hsealed, hwaiting, hactive⟩
    · rw [hout] at h
      cases h
      exact .quiet hx (fun _ => rfl) rfl rfl
    · rw [hout] at h
      cases h
      exact .overflow
    · rw [hout] at h
      cases h
      exact .acquire hx hopen hsealed hwaiting hactive
  next stripe hx =>
    rcases releaseWithoutNotificationStep_spec (s.gate.counters stripe) with
      ⟨hzero, hout⟩ | ⟨-, -, hout⟩ | ⟨t, hout, hsealed, hwaiting, hactive⟩
    · rw [hout] at h
      cases h
      exact .underflow hx (by simp [GateUser.holds]) hzero
    · rw [hout] at h
      cases h
      exact .quiet hx (fun _ => rfl) rfl rfl
    · have hlast : isWaiting (s.gate.counters stripe) = true → 0 < active t :=
        releaseWithoutNotificationStep_last hout
      rw [hout] at h
      cases h
      exact .release hx hsealed hwaiting hactive hlast
  next stripe hx =>
    split at h
    next hfree =>
      cases h
      exact .lockIdle hx hfree
    next => cases h
  next stripe hx =>
    rcases releaseStep_spec (s.gate.counters stripe) with
      ⟨hzero, hout⟩ | ⟨t, hout, hsealed, hwaiting, hactive⟩
    · rw [hout] at h
      cases h
      exact .underflow hx (by simp [GateUser.holds]) hzero
    · rw [hout, releaseOutcomeStep_eq] at h
      cases h
      refine .releaseLocked hx hsealed hwaiting hactive ?_
      by_cases hone : active (s.gate.counters stripe) = 1
      · rw [if_pos hone]
        exact .inr rfl
      · rw [if_neg hone]
        exact .inl ⟨by omega, rfl⟩
  next hx =>
    cases h
    exact .notify hx
  next hx =>
    cases h
    exact .unlockIdle hx
  next => cases h

-- ---- The invariant.

/-- What an observation has established before stripe `i`: the waiter is
registered, an active stripe was seen unless `idle`, and as long as none was
seen the sealed ones are idle. -/
structure Observed (gate : StripedDrainGate w N) (i : Nat) (idle : Bool) : Prop where
  registered : ∀ j : Fin N, j.val < i → isWaiting (gate.counters j) = true
  busy       : idle = false → ∃ j : Fin N, j.val < i ∧ 0 < active (gate.counters j)
  drained    : idle = true → ∀ j : Fin N, j.val < i → gate.SealedAt j →
    active (gate.counters j) = 0

/-- A parked waiter that will still be woken: it is registered on every stripe,
and either a permit is left or a release is about to notify. -/
def WakeDue (s : GateSystem w N) : Prop :=
  (∀ i, isWaiting (s.gate.counters i) = true) ∧
    ((∃ i, 0 < active (s.gate.counters i)) ∨ ∃ r : Nat, s.users[r]? = some GateUser.notifying)

/-- What a waiter knows at each point of `wait_until_idle`. -/
def WaitStage (s : GateSystem w N) : WaitProc → Prop
  | .lock => True
  | .observe i idle => Observed s.gate i idle
  | .parked => s.notified = false → s.WakeDue

/-- The stripes a reopening has passed admit again. -/
def Reopened (gate : StripedDrainGate w N) : ReopenProc → Prop
  | .stripe i => ∀ j : Fin N, j.val < i → isSealed (gate.counters j) = false
  | _ => True

/-- What the holder of the control claim knows inside each operation. -/
def Stage (s : GateSystem w N) : GateManager w → Prop
  | .ready phase =>
    (phase = .sealed → s.gate.AllSealed) ∧ (phase = .drained → s.gate.AllIdle) ∧
      (phase = .opened → s.gate.AllOpen)
  | .sealing proc => proc.Inv s.gate
  | .sealingBare i => ∀ j : Fin N, j.val < i → s.gate.SealedAt j
  | .checking i => ∀ j : Fin N, j.val < i → s.gate.SealedAt j
  | .waiting result proc =>
    (result = .sealed ∨ result = .drained → s.gate.AllSealed) ∧ result ≠ .opened ∧
      s.WaitStage proc
  | .polling origin proc =>
    (origin = .unknown ∨ origin = .sealed ∧ s.gate.AllSealed) ∧ proc.Inv s.gate
  | .idleSealing proc => proc.Inv s.gate
  | .reopening proc => proc.Inv s.gate ∧ Reopened s.gate proc

/-- User `r` is inside its idle-lock section. -/
def releasing (s : GateSystem w N) (r : Nat) : Bool := s.users[r]?.any (·.locksIdle)

/-- What the users of a gate keep, whoever seals it and waits on it. -/
structure UsersInv (s : GateSystem w N) : Prop where
  /-- Each count is the number of permits on its stripe. -/
  counted : ∀ i, active (s.gate.counters i) = s.users.countP (·.holds i)
  /-- A user has the idle lock exactly while its release is in its section. -/
  userLock : ∀ r, s.gate.idle = some (.releaser r) ↔ s.releasing r = true
  /-- The only abort is that of a full count. -/
  aborts : s.aborted = none ∨ s.aborted = some .acquire

/-- **The invariant of a gate** under its control claim. -/
structure Inv (s : GateSystem w N) : Prop extends UsersInv s where
  /-- The holder of the claim has the idle lock exactly where its operation says so. -/
  managerLock : ManagerLock s.gate (s.manager.any (·.locksIdle))
  stage : ∀ m, s.manager = some m → s.Stage m

/-- A new gate. -/
theorem new_inv (sealedAtStart : Bool) : (new sealedAtStart : GateSystem w N).Inv where
  counted i := by
    cases sealedAtStart
    · exact active_zero
    · exact active_sealedBit
  userLock r := by cases sealedAtStart <;> simp [new, releasing, newSealed, newOpen]
  managerLock := by cases sealedAtStart <;> simp [new, ManagerLock, newSealed, newOpen]
  stage m h := by cases h
  aborts := .inl rfl

-- ---- Users keep it.

/-- A write to one counter, as the counts see it. -/
theorem active_setCounter (gate : StripedDrainGate w N) (stripe : Fin N) (state : StateWord w)
    (i : Fin N) :
    active ((gate.setCounter stripe state).counters i) =
      if (stripe == i) = true then active state else active (gate.counters i) := by
  by_cases h : stripe = i
  · subst h
    simp
  · rw [setCounter_ne _ _ (Ne.symm h)]
    simp [h]

/-- A stripe is counted while a user has a permit of it. -/
theorem UsersInv.active_pos (hinv : s.UsersInv) (hx : s.users[r]? = some x) {i : Fin N}
    (hholds : x.holds i = true) : 0 < active (s.gate.counters i) := by
  rw [hinv.counted]
  exact countP_pos_iff.mpr ⟨x, mem_of_getElem? hx, hholds⟩

/-- A move keeps the counts equal to the permits. -/
theorem UserMove.counted (hmove : UserMove s r s') (hinv : s.UsersInv) :
    ∀ i, active (s'.gate.counters i) = s'.users.countP (·.holds i) := by
  intro i
  have hcount := hinv.counted i
  -- a move that writes no counter and keeps the holdings of user `r`
  have hkeep : ∀ {x x' : GateUser N}, s.users[r]? = some x → x'.holds i = x.holds i →
      active (s.gate.counters i) = (s.users.set r x').countP (·.holds i) := by
    intro x x' hx hsame
    have hset := countP_set_add (·.holds i) x' hx
    rw [hsame] at hset
    omega
  -- a release: one count less on its stripe
  have hrelease : ∀ {x x' : GateUser N} {stripe : Fin N} {state : StateWord w},
      s.users[r]? = some x → x.holds i = (stripe == i) → x'.holds i = false →
      active state + 1 = active (s.gate.counters stripe) →
      active ((s.gate.setCounter stripe state).counters i) =
        (s.users.set r x').countP (·.holds i) := by
    intro x x' stripe state hx hold hnew hactive
    have hset := countP_set_add (·.holds i) x' hx
    rw [hold, hnew, if_neg Bool.false_ne_true, Nat.add_zero] at hset
    rw [active_setCounter]
    split
    next heq =>
      rw [if_pos heq] at hset
      rw [beq_iff_eq] at heq
      subst heq
      omega
    next hne =>
      rw [if_neg hne] at hset
      omega
  cases hmove with
  | @quiet x x' hx holds locks locks' => exact hkeep hx (holds i)
  | @acquire stripe state hx hopen hsealed hwaiting hactive =>
    have hset := countP_set_add (·.holds i) (.holding stripe) hx
    have hold : (GateUser.entering stripe : GateUser N).holds i = false := rfl
    have hnew : (GateUser.holding stripe : GateUser N).holds i = (stripe == i) := rfl
    rw [hold, hnew, if_neg Bool.false_ne_true, Nat.add_zero] at hset
    refine (active_setCounter s.gate stripe state i).trans (Eq.trans ?_ hset.symm)
    split
    next heq =>
      rw [beq_iff_eq] at heq
      subst heq
      omega
    next => omega
  | @release stripe state hx hsealed hwaiting hactive hlast =>
    exact hrelease hx rfl rfl hactive
  | @lockIdle stripe hx hfree | notify hx | unlockIdle hx => exact hkeep hx rfl
  | @releaseLocked stripe state x' hx hsealed hwaiting hactive hnext =>
    refine hrelease hx rfl ?_ hactive
    rcases hnext with ⟨-, rfl⟩ | rfl
    · rfl
    · rfl
  | overflow | underflow => exact hcount

/-- Who is in a release section, after a write of one user. -/
theorem releasing_set (x' : GateUser N) (hx : s.users[r]? = some x) (r' : Nat) :
    (s.users.set r x')[r']?.any (·.locksIdle) = if r' = r then x'.locksIdle else s.releasing r' := by
  rw [getElem?_set]
  obtain ⟨hr, -⟩ := List.getElem_of_getElem? hx
  by_cases h : r' = r
  · subst h
    simp [hr]
  · simp [h, Ne.symm h, releasing]

/-- A user's place tells whether it is in one. -/
theorem releasing_of_user (hx : s.users[r]? = some x) : s.releasing r = x.locksIdle := by
  rw [releasing, hx]
  rfl

/-- A user in a release section has the idle lock. -/
theorem UsersInv.idle_of_locks (hinv : s.UsersInv) (hx : s.users[r]? = some x)
    (hlocks : x.locksIdle = true) :
    s.gate.idle = some (.releaser r) := by
  rw [hinv.userLock, releasing_of_user hx]
  exact hlocks

section

variable (hmove : UserMove s r s')
include hmove

/-- A move keeps the owner of the idle lock. -/
theorem UserMove.userLock (hinv : s.UsersInv) :
    ∀ r', s'.gate.idle = some (.releaser r') ↔ s'.releasing r' = true := by
  intro r'
  have hlock := hinv.userLock r'
  -- a move that leaves the idle lock and the section of `r` alone
  have hkeep : ∀ {x x' : GateUser N}, s.users[r]? = some x → x'.locksIdle = x.locksIdle →
      (s.gate.idle = some (.releaser r') ↔ (s.users.set r x')[r']?.any (·.locksIdle) = true) := by
    intro x x' hx hsame
    rw [releasing_set x' hx]
    split
    next heq =>
      subst heq
      rw [hsame, ← releasing_of_user hx]
      exact hlock
    next => exact hlock
  cases hmove with
  | @quiet x x' hx holds locks locks' => exact hkeep hx (locks'.trans locks.symm)
  | acquire hx | release hx | notify hx => exact hkeep hx rfl
  | @lockIdle stripe hx hfree =>
    show some (IdleHolder.releaser r) = some (.releaser r') ↔
      (s.users.set r _)[r']?.any _ = true
    rw [releasing_set _ hx]
    by_cases hr : r' = r
    · simp [hr, GateUser.locksIdle]
    · rw [if_neg hr, ← hlock, hfree]
      simp [Ne.symm hr]
  | @releaseLocked stripe state x' hx hsealed hwaiting hactive hnext =>
    refine hkeep hx ?_
    rcases hnext with ⟨-, rfl⟩ | rfl
    · rfl
    · rfl
  | unlockIdle hx =>
    show none = some (IdleHolder.releaser r') ↔ (s.users.set r _)[r']?.any _ = true
    rw [releasing_set _ hx]
    by_cases hr : r' = r
    · simp [hr, GateUser.locksIdle]
    · rw [if_neg hr, ← hlock, hinv.idle_of_locks hx rfl]
      simp [Ne.symm hr]
  | overflow | underflow => exact hlock

/-- A move is a reader's move of the gate. -/
theorem UserMove.keep (hinv : s.UsersInv) : ReadersKeep s.gate s'.gate := by
  -- one counter is written, with its sealed bit, and it was not idle
  have hwrite : ∀ {stripe : Fin N} {state : StateWord w},
      isSealed state = isSealed (s.gate.counters stripe) → ¬s.gate.IdleAt stripe →
      ReadersKeep s.gate (s.gate.setCounter stripe state) := by
    intro stripe state hsealed hbusy
    refine ⟨?_, ?_, Iff.rfl⟩
    · exact forall_setCounter (P := fun j c => isSealed c = isSealed (s.gate.counters j))
        (fun _ _ => rfl) hsealed
    · intro i hi
      have hne : i ≠ stripe := by
        intro h
        subst h
        exact hbusy hi
      rw [setCounter_ne _ _ hne]
      exact hi.2
  cases hmove with
  | quiet | notify hx | overflow | underflow => exact .refl s.gate
  | @acquire stripe state hx hopen hsealed hwaiting hactive =>
    refine hwrite (hsealed.trans hopen.symm) ?_
    rintro ⟨h, -⟩
    rw [hopen] at h
    cases h
  | @release stripe state hx hsealed hwaiting hactive hlast
  | @releaseLocked stripe state x' hx hsealed hwaiting hactive hnext =>
    refine hwrite hsealed ?_
    rintro ⟨-, h⟩
    omega
  | @lockIdle stripe hx hfree => exact ⟨fun _ => rfl, fun _ h => h.2, by simp [setIdle, setUser, hfree]⟩
  | unlockIdle hx =>
    have hheld := hinv.idle_of_locks hx rfl
    exact ⟨fun _ => rfl, fun _ h => h.2, by simp [setIdle, setUser, hheld]⟩

/-- A move leaves the holder of the claim alone. -/
theorem UserMove.manager : s'.manager = s.manager := by
  cases hmove <;> rfl

/-- A move aborts only for an overflow of permits. -/
theorem UserMove.aborts (hinv : s.UsersInv) : s'.aborted = none ∨ s'.aborted = some .acquire := by
  cases hmove with
  | overflow => exact .inr rfl
  | @underflow x stripe hx holds hzero =>
    have hpos := hinv.active_pos hx holds
    omega
  | _ => exact hinv.aborts

/-- A move sets and clears no `WAITING` bit. -/
theorem UserMove.isWaiting (i : Fin N) :
    isWaiting (s'.gate.counters i) = isWaiting (s.gate.counters i) := by
  have hwrite : ∀ {stripe : Fin N} {state : StateWord w},
      Kernel.isWaiting state = Kernel.isWaiting (s.gate.counters stripe) →
      Kernel.isWaiting ((s.gate.setCounter stripe state).counters i) =
        Kernel.isWaiting (s.gate.counters i) := by
    intro stripe state h
    exact forall_setCounter
      (P := fun j c => Kernel.isWaiting c = Kernel.isWaiting (s.gate.counters j))
      (fun _ _ => rfl) h i
  cases hmove with
  | acquire hx hopen hsealed hwaiting | release hx hsealed hwaiting
  | releaseLocked hx hsealed hwaiting => exact hwrite hwaiting
  | _ => rfl

/-- **A registered stripe loses its last permit only under the idle lock**, and
then a notification follows. -/
theorem UserMove.stays_busy {i : Fin N} (hwaiting : Kernel.isWaiting (s.gate.counters i) = true)
    (hbusy : 0 < active (s.gate.counters i)) : 0 < active (s'.gate.counters i) ∨
      ((∃ stripe, s.users[r]? = some (.releasing stripe)) ∧ s'.users[r]? = some .notifying) := by
  -- the written stripe is another one, or its new count decides
  have hwrite : ∀ {stripe : Fin N} {state : StateWord w},
      (stripe = i → 0 < active state) →
      0 < active ((s.gate.setCounter stripe state).counters i) := by
    intro stripe state h
    rw [active_setCounter]
    split
    next heq => exact h (beq_iff_eq.mp heq)
    next => exact hbusy
  cases hmove with
  | acquire hx hopen hsealed hwait hactive =>
    refine .inl (hwrite fun _ => ?_)
    omega
  | release hx hsealed hwait hactive hlast =>
    refine .inl (hwrite fun h => ?_)
    subst h
    exact hlast hwaiting
  | @releaseLocked stripe state x' hx hsealed hwait hactive hnext =>
    rcases hnext with ⟨hpos, rfl⟩ | rfl
    · exact .inl (hwrite fun _ => hpos)
    · right
      obtain ⟨hr, -⟩ := List.getElem_of_getElem? hx
      exact ⟨⟨stripe, hx⟩, getElem?_set_self hr⟩
  | _ => exact .inl hbusy

/-- A wake-up that is due stays due until the notification. -/
theorem UserMove.wakeDue (hdue : s.WakeDue) :
    s'.WakeDue ∨ s.users[r]? = some .notifying ∧ s' = s.notifyAll.setUser r .tail := by
  obtain ⟨hreg, hwake⟩ := hdue
  have hreg' := fun i => (hmove.isWaiting i).trans (hreg i)
  rcases hwake with ⟨i, hi⟩ | ⟨r', hr'⟩
  · rcases hmove.stays_busy (hreg i) hi with hpos | ⟨-, hnotify⟩
    · exact .inl ⟨hreg', .inl ⟨i, hpos⟩⟩
    · exact .inl ⟨hreg', .inr ⟨r, hnotify⟩⟩
  · -- the release that is about to notify can only notify
    have hother : ∀ {x x' : GateUser N}, s.users[r]? = some x → x ≠ .notifying →
        (s.users.set r x')[r']? = some .notifying := by
      intro x x' hx hne
      have hrr : r ≠ r' := by
        intro h
        subst h
        rw [hr'] at hx
        exact hne (some.inj hx).symm
      rw [getElem?_set_ne hrr]
      exact hr'
    cases hmove with
    | quiet hx holds locks =>
      refine .inl ⟨hreg', .inr ⟨r', hother hx ?_⟩⟩
      intro h
      subst h
      cases locks
    | acquire hx | release hx | lockIdle hx | releaseLocked hx | unlockIdle hx =>
      exact .inl ⟨hreg', .inr ⟨r', hother hx (by simp)⟩⟩
    | notify hx => exact .inr ⟨hx, rfl⟩
    | overflow | underflow => exact .inl ⟨hreg', .inr ⟨r', hr'⟩⟩

/-- **No user move loses the wake-up of a parked waiter.** -/
theorem UserMove.parked (hdue : s.notified = false → s.WakeDue) :
    s'.notified = false → s'.WakeDue := by
  intro hn
  have hn0 : s.notified = false := by
    cases hmove with
    | notify => cases hn
    | _ => exact hn
  rcases hmove.wakeDue (hdue hn0) with hdue' | ⟨-, rfl⟩
  · exact hdue'
  · cases hn

/-- An observation survives the moves of users: the observer holds the idle lock. -/
theorem UserMove.observed (hinv : s.UsersInv) {i : Nat} {idle : Bool}
    (hheld : s.gate.idle = some .manager) (h : Observed s.gate i idle) :
    Observed s'.gate i idle := by
  refine ⟨fun j hj => (hmove.isWaiting j).trans (h.registered j hj), ?_, ?_⟩
  · intro hidle
    obtain ⟨j, hj, hpos⟩ := h.busy hidle
    refine ⟨j, hj, ?_⟩
    rcases hmove.stays_busy (h.registered j hj) hpos with hpos' | ⟨⟨stripe, hx⟩, -⟩
    · exact hpos'
    · rw [hinv.idle_of_locks hx rfl] at hheld
      cases hheld
  · intro hidle j hj hs
    have hkeep := hmove.keep hinv
    have hsealed : s.gate.SealedAt j := (hkeep.isSealed j).symm.trans hs
    exact hkeep.idleAt j ⟨hsealed, h.drained hidle j hj hsealed⟩

/-- What the holder of the claim knows survives a move. -/
theorem UserMove.stage (hinv : s.Inv) (hm : s.manager = some m) (h : s.Stage m) : s'.Stage m := by
  have hkeep := hmove.keep hinv.toUsersInv
  cases m with
  | ready phase =>
    exact ⟨fun hp => hkeep.allSealed (h.1 hp), fun hp i => hkeep.stays (h.2.1 hp i),
      fun hp i => (hkeep.isSealed i).trans (h.2.2 hp i)⟩
  | sealing proc => exact SealProc.Inv.of_readers h hkeep
  | sealingBare i | checking i => exact fun j hj => hkeep.sealedAt (h j hj)
  | waiting result proc =>
    refine ⟨fun hr => hkeep.allSealed (h.1 hr), h.2.1, ?_⟩
    cases proc with
    | lock => exact trivial
    | observe i idle =>
      have hheld : s.gate.idle = some .manager := hinv.managerLock.mpr (by rw [hm]; rfl)
      exact hmove.observed hinv.toUsersInv hheld h.2.2
    | parked => exact hmove.parked h.2.2
  | polling origin proc =>
    refine ⟨?_, DrainProc.Inv.of_readers h.2 hkeep⟩
    rcases h.1 with ho | ⟨ho, hs⟩
    · exact .inl ho
    · exact .inr ⟨ho, hkeep.allSealed hs⟩
  | idleSealing proc => exact IdleSealProc.Inv.of_readers h hkeep
  | reopening proc =>
    refine ⟨ReopenProc.Inv.of_readers h.1 hkeep, ?_⟩
    cases proc with
    | stripe i => exact fun j hj => (hkeep.isSealed j).trans (h.2 j hj)
    | _ => exact trivial

end

/-- A move keeps the users' invariant. -/
theorem UsersInv.of_user (hinv : s.UsersInv) (hmove : UserMove s r s') : s'.UsersInv where
  counted := hmove.counted hinv
  userLock := hmove.userLock hinv
  aborts := hmove.aborts hinv

/-- And the whole one. -/
theorem Inv.of_user (hinv : s.Inv) (hmove : UserMove s r s') : s'.Inv where
  toUsersInv := hinv.toUsersInv.of_user hmove
  managerLock := by
    rw [hmove.manager]
    exact hinv.managerLock.of_readers (hmove.keep hinv.toUsersInv)
  stage m hm := by
    rw [hmove.manager] at hm
    exact hmove.stage hinv hm (hinv.stage m hm)

-- ---- The holder of the control claim keeps it.

/-- So do the accesses of a manager. -/
theorem UsersInv.of_keep (hinv : s.UsersInv) (hkeep : MovesKeep s.gate gate) {manager notified} :
    UsersInv { s with gate := gate, manager := manager, notified := notified } where
  counted i := (hkeep.active i).trans (hinv.counted i)
  userLock r := (hkeep.releaser r).trans (hinv.userLock r)
  aborts := hinv.aborts

/-- The counts and the users' hold on the idle lock are untouched, so a step of
the manager has only its own lock and its own knowledge to account for. -/
theorem Inv.of_manager (hinv : s.Inv) (hkeep : MovesKeep s.gate gate)
    (hlock : ManagerLock gate m.locksIdle) (hstage : (s.goto gate m).Stage m) :
    (s.goto gate m).Inv where
  toUsersInv := hinv.toUsersInv.of_keep hkeep
  managerLock := hlock
  stage m' hm' := by
    cases hm'
    exact hstage

/-- The rule for the manager's steps: the notification is still to come. -/
theorem Inv.of_unnotified (hinv : s.Inv) (hkeep : MovesKeep s.gate gate)
    (hlock : ManagerLock gate m.locksIdle)
    (hstage : ({ s with notified := false }.goto gate m).Stage m) :
    ({ s with notified := false }.goto gate m).Inv where
  toUsersInv := hinv.toUsersInv.of_keep hkeep
  managerLock := hlock
  stage m' hm' := by
    cases hm'
    exact hstage

/-- Nothing is known before the first poll. -/
theorem stage_unknown : s.Stage (.ready .unknown) := ⟨nofun, nofun, nofun⟩

/-- The manager has the idle lock exactly in its sections. -/
theorem Inv.lock_of (hinv : s.Inv) (hm : s.manager = some m) : ManagerLock s.gate m.locksIdle := by
  have h := hinv.managerLock
  rw [hm] at h
  exact h

/-- Before the first stripe nothing was observed. -/
theorem observed_zero (gate : StripedDrainGate w N) : Observed gate 0 true where
  registered j hj := absurd hj (Nat.not_lt_zero _)
  busy h := by cases h
  drained _ j hj := absurd hj (Nat.not_lt_zero _)

/-- Registering on one more stripe, whose count the same access returns. -/
theorem Observed.next {i : Nat} {idle : Bool} (hi : i < N) (h : Observed gate i idle) :
    Observed (gate.setCounter ⟨i, hi⟩ (markWaiting (gate.counters ⟨i, hi⟩))) (i + 1)
      (idle && active (gate.counters ⟨i, hi⟩) == 0) := by
  have hactive : ∀ j,
      active ((gate.setCounter ⟨i, hi⟩ (markWaiting (gate.counters ⟨i, hi⟩))).counters j) =
        active (gate.counters j) :=
    forall_setCounter (P := fun j c => active c = active (gate.counters j))
      (fun _ _ => rfl) (active_markWaiting _)
  have hsealed : ∀ j,
      isSealed ((gate.setCounter ⟨i, hi⟩ (markWaiting (gate.counters ⟨i, hi⟩))).counters j) =
        isSealed (gate.counters j) :=
    forall_setCounter (P := fun j c => isSealed c = isSealed (gate.counters j))
      (fun _ _ => rfl) (isSealed_markWaiting _)
  refine ⟨?_, ?_, ?_⟩
  · refine forall_setCounter (P := fun j c => j.val < i + 1 → isWaiting c = true) ?_ ?_
    · intro j hne hj
      have hval : j.val ≠ i := fun h => hne (Fin.ext h)
      exact h.registered j (by omega)
    · intro _
      exact isWaiting_markWaiting _
  · intro hbusy
    rw [Bool.and_eq_false_iff] at hbusy
    rcases hbusy with hidle | hhere
    · obtain ⟨j, hj, hpos⟩ := h.busy hidle
      exact ⟨j, by omega, by rw [hactive]; exact hpos⟩
    · have hne : active (gate.counters ⟨i, hi⟩) ≠ 0 := by simpa using hhere
      exact ⟨⟨i, hi⟩, Nat.lt_succ_self i, by rw [hactive]; omega⟩
  · intro hidle j hj hs
    rw [Bool.and_eq_true, beq_iff_eq] at hidle
    rw [hactive]
    rcases Nat.lt_succ_iff_lt_or_eq.mp hj with hlt | heq
    · exact h.drained hidle.1 j hlt ((hsealed j).symm.trans hs)
    · have hji : j = ⟨i, hi⟩ := Fin.ext heq
      rw [hji]
      exact hidle.2

/-- **Waiting, on any gate.** It only registers; it parks only with its wake-up
due, and returns only from the idle lock, with every sealed stripe idle. -/
theorem WaitStage.step (hstage : s.WaitStage proc) (hlock : ManagerLock s.gate proc.locks)
    {out : Progress (StripedDrainGate w N) WaitProc} (hstep : proc.step s.gate = some out) :
    out.Yields
      (fun gate' next => SealsKeep s.gate gate' ∧ ManagerLock gate' next.locks ∧
        WaitStage { s with gate := gate', notified := false } next)
      (fun gate' _ => SealsKeep s.gate gate' ∧ ManagerLock gate' false ∧
        s.gate.idle = some .manager ∧ ∀ i, gate'.SealedAt i → active (gate'.counters i) = 0) := by
  cases proc with
  | lock =>
    simp only [WaitProc.step] at hstep
    split at hstep
    next hfree =>
      cases hstep
      exact ⟨.lock hfree, managerLock_setIdle_manager _, observed_zero _⟩
    next => cases hstep
  | observe i idle =>
    have hobs : Observed s.gate i idle := hstage
    simp only [WaitProc.step] at hstep
    split at hstep
    next hi =>
      cases hstep
      exact ⟨keeps_markWaiting _ _, hlock, hobs.next hi⟩
    next hi =>
      have hheld : s.gate.idle = some .manager := hlock.mpr rfl
      have hall : ∀ j : Fin N, j.val < i := fun j => by
        have := j.isLt
        omega
      split at hstep
      next hidle =>
        cases hstep
        exact ⟨.unlock hheld, managerLock_setIdle_none _, hheld,
          fun j hs => hobs.drained hidle j (hall j) hs⟩
      next hidle =>
        cases hstep
        refine ⟨.unlock hheld, managerLock_setIdle_none _, fun _ => ?_⟩
        refine ⟨fun j => hobs.registered j (hall j), .inl ?_⟩
        obtain ⟨j, -, hpos⟩ := hobs.busy (by simpa using hidle)
        exact ⟨j, hpos⟩
  | parked =>
    cases hstep
    exact ⟨.refl _, hlock, trivial⟩

/-- Only a parked waiter cares for the notification. -/
theorem WaitStage.of_not_parked (hnot : proc ≠ .parked)
    (h : WaitStage { s with gate := gate, notified := false } proc) :
    (s.goto gate m).WaitStage proc := by
  cases proc with
  | lock => exact trivial
  | observe i idle => exact h
  | parked => exact absurd rfl hnot

/-- A step of a wait. -/
theorem Inv.of_wait (hinv : s.Inv) (hm : s.manager = some (.waiting result proc))
    {out : Progress (StripedDrainGate w N) WaitProc} (hstep : proc.step s.gate = some out) :
    (s.enterWait result out).Inv := by
  have hyields := (hinv.stage _ hm).2.2.step (hinv.lock_of hm) hstep
  have hsealed := (hinv.stage _ hm).1
  cases out with
  | running gate' next =>
    obtain ⟨hkeep, hlock, hstage⟩ := hyields
    by_cases hparked : next = .parked
    · subst hparked
      exact hinv.of_unnotified hkeep.toMovesKeep hlock
        ⟨fun hr => hkeep.allSealed (hsealed hr), (hinv.stage _ hm).2.1, hstage⟩
    · have hnext : s.enterWait result (.running gate' next) =
          s.goto gate' (.waiting result next) := by
        cases next with
        | parked => exact absurd rfl hparked
        | _ => rfl
      rw [hnext]
      exact hinv.of_manager hkeep.toMovesKeep hlock
        ⟨fun hr => hkeep.allSealed (hsealed hr), (hinv.stage _ hm).2.1,
          hstage.of_not_parked hparked⟩
  | done gate' ok =>
    obtain ⟨hkeep, hlock, -, hdrained⟩ := hyields
    refine hinv.of_manager hkeep.toMovesKeep hlock ⟨fun hr => ?_, fun hr i => ?_, fun hr => ?_⟩
    · exact hkeep.allSealed (hsealed (.inl hr))
    · have hs : gate'.AllSealed := hkeep.allSealed (hsealed (.inr hr))
      exact ⟨hs i, hdrained i (hs i)⟩
    · exact absurd hr (hinv.stage _ hm).2.1
  | failStop => exact hyields.elim

/-- A reopening goes on, stripe by stripe. -/
theorem reopened_step {proc : ReopenProc} {out : Progress (StripedDrainGate w N) ReopenProc}
    (hstep : proc.step gate = some out) (hinv : proc.Inv gate) (hopened : Reopened gate proc) :
    out.Yields (fun gate' next => Reopened gate' next)
      (fun gate' ok => ok = true → gate'.AllOpen) := by
  cases proc with
  | lock =>
    simp only [ReopenProc.step] at hstep
    split at hstep
    next =>
      cases hstep
      exact trivial
    next => cases hstep
  | checkSealed i | checkActive i =>
    simp only [ReopenProc.step] at hstep
    split at hstep
    next =>
      split at hstep
      next =>
        cases hstep
        exact trivial
      next =>
        cases hstep
        rintro ⟨⟩
    next =>
      cases hstep
      exact fun j hj => absurd hj (Nat.not_lt_zero _)
  | stripe i =>
    simp only [ReopenProc.step] at hstep
    split at hstep
    next hi =>
      have hat : gate.IdleAt ⟨i, hi⟩ := hinv ⟨i, hi⟩ (Nat.le_refl _)
      rcases reopenStep_spec (gate.counters ⟨i, hi⟩) with ⟨-, -, ht⟩ | ⟨hnot, -⟩
      · rw [ht] at hstep
        cases hstep
        refine forall_setCounter (P := fun j c => j.val < i + 1 → isSealed c = false) ?_ ?_
        · intro j hne hj
          have hval : j.val ≠ i := fun h => hne (Fin.ext h)
          exact hopened j (by omega)
        · intro _
          exact isSealed_zero
      · exact absurd hat hnot
    next hi =>
      cases hstep
      exact fun _ j => hopened j (by have := j.isLt; omega)

/-- **A step of the manager.** -/
theorem Inv.manage (hinv : s.Inv) (hm : s.manager = some m) (h : s.manage m = some s') :
    s'.Inv := by
  have hlock := hinv.lock_of hm
  have hstage := hinv.stage m hm
  cases m with
  | ready phase => cases h
  | sealing proc =>
    simp only [GateSystem.manage] at h
    obtain ⟨out, hout, rfl⟩ := map_eq_some_iff.mp h
    have hyields := proc.step_yields hout hstage hlock
    cases out with
    | running gate' next => exact hinv.of_manager hyields.1.toMovesKeep hyields.2.2 hyields.2.1
    | done gate' ok =>
      exact hinv.of_manager hyields.1.toMovesKeep hyields.2.2.2
        ⟨fun _ => hyields.2.2.1, (fun h => by cases h), (fun h => by cases h)⟩
    | failStop => exact hyields.elim
  | sealingBare i =>
    simp only [GateSystem.manage] at h
    split at h
    next hi =>
      cases h
      refine hinv.of_manager (.setCounter (active_seal _)) hlock ?_
      refine forall_setCounter (P := fun j c => j.val < i + 1 → isSealed c = true) ?_ ?_
      · intro j hne hj
        have hval : j.val ≠ i := fun h => hne (Fin.ext h)
        exact hstage j (by omega)
      · intro _
        exact isSealed_seal _
    next hi =>
      cases h
      refine hinv.of_manager (.refl _) hlock ⟨fun _ j => ?_, (fun h => by cases h), (fun h => by cases h)⟩
      exact hstage j (by have := j.isLt; omega)
  | checking i =>
    simp only [GateSystem.manage] at h
    split at h
    next hi =>
      split at h
      next hs =>
        cases h
        refine hinv.of_manager (.refl _) hlock fun j hj => ?_
        rcases Nat.lt_succ_iff_lt_or_eq.mp hj with hlt | heq
        · exact hstage j hlt
        · have hji : j = ⟨i, hi⟩ := Fin.ext heq
          rw [hji]
          exact hs
      next =>
        cases h
        exact hinv.of_manager (.refl _) hlock stage_unknown
    next hi =>
      cases h
      refine hinv.of_manager (.refl _) hlock ⟨fun _ j => ?_, (fun h => by cases h), trivial⟩
      exact hstage j (by have := j.isLt; omega)
  | waiting result proc =>
    simp only [GateSystem.manage] at h
    obtain ⟨out, hout, rfl⟩ := map_eq_some_iff.mp h
    exact hinv.of_wait hm hout
  | polling origin proc =>
    obtain ⟨horigin, hproc⟩ := hstage
    have hyields := proc.step_yields hproc hlock
    simp only [GateSystem.manage] at h
    generalize proc.step s.gate = out at h hyields
    cases h
    cases out with
    | running gate' next =>
      refine hinv.of_manager hyields.1.toMovesKeep hyields.2.2 ⟨?_, hyields.2.1⟩
      rcases horigin with ho | ⟨ho, hs⟩
      · exact .inl ho
      · exact .inr ⟨ho, hyields.1.allSealed hs⟩
    | done gate' ok =>
      obtain ⟨hkeep, hidle, hunlock, -⟩ := hyields
      refine hinv.of_manager hkeep.toMovesKeep hunlock ?_
      cases ok with
      | true => exact ⟨(fun h => by cases h), fun _ => hidle rfl, (fun h => by cases h)⟩
      | false =>
        rcases horigin with ho | ⟨ho, hs⟩
        · subst ho
          exact stage_unknown
        · subst ho
          exact ⟨fun _ => hkeep.allSealed hs, (fun h => by cases h), (fun h => by cases h)⟩
    | failStop => exact hyields.elim
  | idleSealing proc =>
    have hyields := proc.step_yields hstage
    simp only [GateSystem.manage] at h
    generalize proc.step s.gate = out at h hyields
    cases h
    cases out with
    | running gate' next =>
      obtain ⟨hkeep, hnext, hidle⟩ := hyields
      have hlock' : ManagerLock gate' false := by
        rw [ManagerLock, hidle]
        exact hlock
      exact hinv.of_manager hkeep hlock' hnext
    | done gate' ok =>
      obtain ⟨rfl, hall⟩ := hyields
      refine hinv.of_manager (.refl _) hlock ?_
      cases ok with
      | true => exact ⟨fun _ => (hall rfl).allSealed, (fun h => by cases h), (fun h => by cases h)⟩
      | false => exact stage_unknown
    | failStop => exact hyields.elim
  | reopening proc =>
    simp only [GateSystem.manage] at h
    obtain ⟨out, hout, rfl⟩ := map_eq_some_iff.mp h
    have hyields := proc.step_yields hout hstage.1 hlock
    have hopened := reopened_step hout hstage.1 hstage.2
    cases out with
    | running gate' next => exact hinv.of_manager hyields.1 hyields.2.2 ⟨hyields.2.1, hopened⟩
    | done gate' ok =>
      obtain ⟨hkeep, rfl, hunlock⟩ := hyields
      exact hinv.of_manager hkeep hunlock ⟨(fun h => by cases h), (fun h => by cases h),
        fun _ => hopened rfl⟩
    | failStop => exact hyields.elim

/-- The manager begins an operation. -/
theorem Inv.begin (hinv : s.Inv) {phase : ControlPhase} (hm : s.manager = some (.ready phase))
    {op : ControlOp} (h : s.begin kind phase op = some s') : s'.Inv := by
  have hlock : ManagerLock s.gate false := hinv.lock_of hm
  obtain ⟨hsealed, hdrained, -⟩ := hinv.stage _ hm
  cases op with
  | doSeal =>
    cases h
    split
    · exact hinv.of_manager (.refl _) hlock trivial
    · exact hinv.of_manager (.refl _) hlock fun j hj => absurd hj (Nat.not_lt_zero _)
  | waitIdle =>
    simp only [GateSystem.begin] at h
    split at h
    next =>
      cases h
      refine hinv.of_manager (.refl _) hlock ⟨?_, nofun, trivial⟩
      rintro (hr | hr) <;> cases hr
    next => cases h
  | waitIfSealed | trySealIfIdle =>
    simp only [GateSystem.begin] at h
    split at h
    next =>
      cases h
      exact hinv.of_manager (.refl _) hlock fun j hj => absurd hj (Nat.not_lt_zero _)
    next => cases h
  | tryDrained =>
    simp only [GateSystem.begin] at h
    split at h
    next =>
      cases h
      exact hinv.of_manager (.refl _) hlock
        ⟨.inl rfl, fun j hj => absurd hj (Nat.not_lt_zero _)⟩
    next => cases h
  | wait =>
    simp only [GateSystem.begin] at h
    split at h
    next hp =>
      cases h
      exact hinv.of_manager (.refl _) hlock ⟨fun _ => hsealed hp, nofun, trivial⟩
    next => cases h
  | tryWait =>
    simp only [GateSystem.begin] at h
    split at h
    next hp =>
      cases h
      exact hinv.of_manager (.refl _) hlock ⟨.inr ⟨rfl, hsealed hp.2⟩, hsealed hp.2⟩
    next => cases h
  | reopen =>
    simp only [GateSystem.begin] at h
    split at h
    next hp =>
      split at h
      next =>
        cases h
        exact hinv.of_manager (.refl _) hlock ⟨hdrained hp, trivial⟩
      next =>
        split at h
        next hfree =>
          cases h
          exact hinv.of_manager (.lock hfree) (managerLock_setIdle_manager _)
            ⟨fun j _ => hdrained hp j, fun j hj => absurd hj (Nat.not_lt_zero _)⟩
        next => cases h
    next => cases h

/-- A new user is in no release section. -/
theorem releasing_append (stripe : Fin N) (r : Nat) :
    ({ s with users := s.users ++ [.entering stripe] } : GateSystem w N).releasing r =
      s.releasing r := by
  show (s.users ++ [GateUser.entering stripe])[r]?.any _ = s.users[r]?.any _
  rcases Nat.lt_trichotomy r s.users.length with hlt | heq | hgt
  · rw [getElem?_append_left hlt]
  · subst heq
    simp [GateUser.locksIdle]
  · rw [getElem?_eq_none (by simp; omega), getElem?_eq_none (by omega)]

/-- A user comes. -/
theorem UsersInv.entered (hinv : s.UsersInv) (stripe : Fin N) :
    UsersInv { s with users := s.users ++ [.entering stripe] } where
  counted i := by
    show active (s.gate.counters i) = (s.users ++ [_]).countP _
    rw [countP_append, hinv.counted]
    rfl
  userLock r := by
    rw [releasing_append]
    exact hinv.userLock r
  aborts := hinv.aborts

/-- A wake-up that is due stays due. -/
theorem WakeDue.entered (h : s.WakeDue) (stripe : Fin N) :
    WakeDue { s with users := s.users ++ [.entering stripe] } := by
  refine ⟨h.1, h.2.imp_right ?_⟩
  rintro ⟨r, hr⟩
  exact ⟨r, (getElem?_append_left (List.getElem_of_getElem? hr).1).trans hr⟩

/-- What the manager knows survives it. -/
theorem Stage.of_entered (h : s.Stage m) (stripe : Fin N) :
    ({ s with users := s.users ++ [.entering stripe] } : GateSystem w N).Stage m := by
  cases m with
  | waiting result proc =>
    refine ⟨h.1, h.2.1, ?_⟩
    cases proc with
    | lock => exact trivial
    | observe i idle => exact h.2.2
    | parked => exact fun hn => (h.2.2 hn).entered stripe
  | _ => exact h

/-- **The invariant is kept by every step.** -/
theorem Inv.step (hinv : s.Inv) {action : Action N} (h : s.step kind action = some s') :
    s'.Inv := by
  unfold GateSystem.step at h
  split at h
  next => cases h
  next =>
    cases action with
    | enter stripe =>
      cases h
      exact ⟨hinv.toUsersInv.entered stripe, hinv.managerLock,
        fun m hm => (hinv.stage m hm).of_entered stripe⟩
    | user r => exact hinv.of_user (userMove_of_userStep h)
    | claim =>
      simp only [] at h
      split at h
      next hnone =>
        cases h
        have hlock := hinv.managerLock
        rw [isNone_iff_eq_none.mp hnone] at hlock
        exact hinv.of_manager (.refl _) hlock stage_unknown
      next => cases h
    | dropClaim =>
      simp only [] at h
      split at h
      next phase hm =>
        cases h
        exact ⟨hinv.toUsersInv.of_keep (.refl _), hinv.lock_of hm, nofun⟩
      next => cases h
    | begin op =>
      simp only [] at h
      split at h
      next phase hm => exact hinv.begin hm h
      next => cases h
    | manage =>
      simp only [] at h
      split at h
      next m hm => exact hinv.manage hm h
      next => cases h

-- ---- The guarantees.

/-- Every state reached is in the invariant. -/
theorem Reachable.inv {sealedAtStart : Bool}
    (h : Reachable (step kind) (new sealedAtStart : GateSystem w N) s) : s.Inv :=
  Lib.Reachable.invariant (fun _ _ _ hi hs => hi.step hs) (new_inv sealedAtStart) h

/-- No stripe has a permit, and no user holds one or is still in the section in which its
release touches the gate. -/
structure Quiet (s : GateSystem w N) : Prop where
  active : ∀ i, active (s.gate.counters i) = 0
  users  : ∀ x ∈ s.users, x.locksIdle = false ∧ ∀ i, x.holds i = false

/-- While the manager has the idle lock, no release is in its section. -/
theorem UsersInv.no_section (hinv : s.UsersInv) (hheld : s.gate.idle = some .manager)
    (hx : x ∈ s.users) : x.locksIdle = false := by
  obtain ⟨r, hr⟩ := mem_iff_getElem?.mp hx
  cases hlocks : x.locksIdle with
  | false => rfl
  | true =>
    rw [hinv.idle_of_locks hr hlocks] at hheld
    cases hheld

/-- Without permits and sections the gate is quiet. -/
theorem UsersInv.quiet (hinv : s.UsersInv) (hzero : ∀ i, active (s.gate.counters i) = 0)
    (hsections : ∀ x ∈ s.users, x.locksIdle = false) : s.Quiet where
  active := hzero
  users x hx := by
    refine ⟨hsections x hx, fun i => ?_⟩
    cases hholds : x.holds i with
    | false => rfl
    | true =>
      obtain ⟨r, hr⟩ := mem_iff_getElem?.mp hx
      have hpos := hinv.active_pos hr hholds
      rw [hzero i] at hpos
      exact absurd hpos (Nat.lt_irrefl 0)

/-- A wait that returns came from the idle lock, and left every sealed stripe idle. -/
theorem Inv.returned (hinv : s.Inv) {phase : ControlPhase}
    (hm : s.manager = some (.waiting result proc)) (h : s.manage (.waiting result proc) = some s')
    (hready : s'.manager = some (.ready phase)) : s.gate.idle = some .manager ∧ s'.users = s.users ∧
      ∀ i, s'.gate.SealedAt i → active (s'.gate.counters i) = 0 := by
  simp only [GateSystem.manage] at h
  obtain ⟨out, hout, rfl⟩ := map_eq_some_iff.mp h
  have hyields := (hinv.stage _ hm).2.2.step (hinv.lock_of hm) hout
  cases out with
  | running gate' next =>
    cases next with
    | lock | observe i idle | parked => cases hready
  | done gate' ok => exact ⟨hyields.2.2.1, rfl, hyields.2.2.2⟩
  | failStop => exact hyields.elim

/-- **No lost wake-up, and a sound drain**, under the control claim. A parked waiter that has not
been notified is still to be woken, and a wait that returns on a sealed gate leaves it quiet. -/
theorem claim_wakes {sealedAtStart : Bool}
    (h : Reachable (step kind) (new sealedAtStart : GateSystem w N) s) :
    (∀ result, s.manager = some (.waiting result .parked) → s.notified = false → s.WakeDue) ∧
    (∀ result proc phase s', s.manager = some (.waiting result proc) →
      step kind s .manage = some s' → s'.manager = some (.ready phase) → s'.gate.AllSealed →
      s'.Quiet) := by
  have hinv := Reachable.inv h
  refine ⟨?_, ?_⟩
  · intro result hm hn
    exact (hinv.stage _ hm).2.2 hn
  · intro result proc phase s' hm hstep hready hsealed
    have hmanage : s.manage (.waiting result proc) = some s' := by
      unfold step at hstep
      split at hstep
      next => cases hstep
      next => simpa only [hm] using hstep
    obtain ⟨hheld, husers, hdrained⟩ := hinv.returned hm hmanage hready
    refine (hinv.step hstep).quiet (fun i => hdrained i (hsealed i)) fun x hx => ?_
    rw [husers] at hx
    exact hinv.no_section hheld hx

end GateSystem

end Xlfn.Kernel
