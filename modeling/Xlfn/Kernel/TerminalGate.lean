import Xlfn.Kernel.DrainWait

/-!
# Xlfn — terminal drain gates

`TerminalDrainGate` is a drain gate for permanent closure: it has no control claim and
is never reopened. `seal` and `wait` take `&self`, so any number of callers may be
inside them at once, each at an access of its own, while users come and go.

* `GateCaller` — one call of `seal`, or of `wait`, which seals first. Every waiter has a
  notification of its own: `notify_all` reaches all that are parked, and each of them
  takes the idle lock again and observes every stripe afresh.
* `TerminalDrainGate` — the gate with its users, and the callers.

A gate may have any number of stripes; `kind` says whether they are sealed under the
idle lock.

## Results

* `Stage.of_seals` / `Stage.of_user` — what a caller knows survives the accesses of the
  other callers and the moves of users.
* `Inv.step`                         — the invariant, kept by every step.
* `no_lost_wakeup`                   — the guarantees of the gates, claimed or terminal.
-/

namespace Xlfn.Kernel

open Lib StripedDrainGate List Option

/-- One call of `seal`, or of `wait`, which seals first: `waits` tells which. -/
inductive GateCaller where
  | sealing (waits : Bool) (proc : SealProc)
  | sealingBare (waits : Bool) (i : Nat)
  | waiting (notified : Bool) (proc : WaitProc)
  | returned (waited : Bool)
deriving DecidableEq

namespace GateCaller

variable {w N : Nat} {s s' : GateSystem w N} {c : GateCaller}

/-- This caller has the idle lock. -/
def locksIdle : GateCaller → Bool
  | sealing _ proc => proc.locks
  | waiting _ proc => proc.locks
  | _ => false

/-- `seal` has sealed every stripe; `wait` goes on. -/
def afterSeal (waits : Bool) : GateCaller := if waits then waiting false .lock else returned false

/-- What `notify_all` does to this caller. -/
def wake : GateCaller → GateCaller
  | waiting _ proc => waiting true proc
  | caller => caller

@[simp] theorem locksIdle_afterSeal (waits : Bool) : (afterSeal waits).locksIdle = false := by
  cases waits <;> rfl

@[simp] theorem locksIdle_wake (c : GateCaller) : c.wake.locksIdle = c.locksIdle := by
  cases c <;> rfl

/-- What a caller knows at each point of its call. -/
def Stage (s : GateSystem w N) : GateCaller → Prop
  | sealing _ proc => proc.Inv s.gate
  | sealingBare _ i => ∀ j : Fin N, j.val < i → s.gate.SealedAt j
  | waiting notified proc =>
    s.gate.AllSealed ∧ GateSystem.WaitStage { s with notified := notified } proc
  | returned waited => s.gate.AllSealed ∧ (waited = true → s.Quiet)

/-- A call that has sealed every stripe knows the gate is closed. -/
theorem stage_afterSeal (h : s.gate.AllSealed) (waits : Bool) : (afterSeal waits).Stage s := by
  cases waits
  · exact ⟨h, nofun⟩
  · exact ⟨h, trivial⟩

end GateCaller

namespace GateSystem

variable {w N : Nat} {s s' : GateSystem w N} {r : Nat} {gate : StripedDrainGate w N}

/-- **A closed gate stays quiet**: a user that comes is refused. -/
theorem Quiet.of_user (h : s.Quiet) (hs : s.gate.AllSealed) (hmove : UserMove s r s') :
    s'.Quiet := by
  have hidle : ∀ {x : GateUser N}, s.users[r]? = some x → x.locksIdle ≠ true := by
    intro x hx hlocks
    rw [(h.users x (mem_of_getElem? hx)).1] at hlocks
    cases hlocks
  have hholds : ∀ {x : GateUser N} {i}, s.users[r]? = some x → x.holds i ≠ true := by
    intro x i hx hi
    rw [(h.users x (mem_of_getElem? hx)).2 i] at hi
    cases hi
  cases hmove with
  | @quiet x x' hx holds locks locks' =>
    refine ⟨h.active, fun y hy => ?_⟩
    rcases mem_or_eq_of_mem_set hy with hy | rfl
    · exact h.users y hy
    · exact ⟨locks', fun i => (holds i).trans ((h.users x (mem_of_getElem? hx)).2 i)⟩
  | @acquire stripe _ _ hopen =>
    have hsealed : isSealed (s.gate.counters stripe) = true := hs stripe
    rw [hopen] at hsealed
    cases hsealed
  | release hx | lockIdle hx | releaseLocked hx => exact absurd (beq_self_eq_true _) (hholds hx)
  | notify hx | unlockIdle hx => exact absurd rfl (hidle hx)
  | overflow | underflow => exact ⟨h.active, h.users⟩

/-- The accesses of callers do not disturb a quiet gate. -/
theorem Quiet.of_keep (h : s.Quiet) (hkeep : MovesKeep s.gate gate) :
    Quiet { s with gate := gate } :=
  ⟨fun i => (hkeep.active i).trans (h.active i), h.users⟩

/-- Nor does a user that has only come. -/
theorem Quiet.entered (h : s.Quiet) (stripe : Fin N) :
    Quiet { s with users := s.users ++ [.entering stripe] } where
  active := h.active
  users x hx := by
    rcases mem_append.mp hx with hx | hx
    · exact h.users x hx
    · rw [mem_singleton.mp hx]
      exact ⟨rfl, fun _ => rfl⟩

/-- An observation of a sealed gate survives the accesses of other callers. -/
theorem Observed.of_seals {i : Nat} {idle : Bool} (h : Observed s.gate i idle)
    (hs : s.gate.AllSealed) (hkeep : SealsKeep s.gate gate) : Observed gate i idle where
  registered j hj := hkeep.registered j (h.registered j hj)
  busy hidle := by
    obtain ⟨j, hj, hpos⟩ := h.busy hidle
    exact ⟨j, hj, hpos.trans_eq (hkeep.active j).symm⟩
  drained hidle j hj _ := (hkeep.active j).trans (h.drained hidle j hj (hs j))

/-- Nor do they take a wake-up that is due. -/
theorem WakeDue.of_seals (h : s.WakeDue) (hkeep : SealsKeep s.gate gate) {notified : Bool} :
    WakeDue { s with gate := gate, notified := notified } := by
  refine ⟨fun i => hkeep.registered i (h.1 i), h.2.imp_left ?_⟩
  rintro ⟨i, hi⟩
  exact ⟨i, hi.trans_eq (hkeep.active i).symm⟩

end GateSystem

open GateSystem

namespace GateCaller

variable {w N : Nat} {s s' : GateSystem w N} {c : GateCaller} {r : Nat}

/-- What a caller knows survives the accesses of the others. -/
theorem Stage.of_seals (h : c.Stage s) {gate : StripedDrainGate w N}
    (hkeep : SealsKeep s.gate gate) : c.Stage { s with gate := gate } := by
  cases c with
  | sealing _ proc =>
    cases proc with
    | lock => exact trivial
    | stripe i => exact fun j hj => hkeep.stays j (h j hj)
  | sealingBare _ i => exact fun j hj => hkeep.stays j (h j hj)
  | waiting notified proc =>
    refine ⟨hkeep.allSealed h.1, ?_⟩
    cases proc with
    | lock => exact trivial
    | observe i idle => exact Observed.of_seals h.2 h.1 hkeep
    | parked => exact fun hn => WakeDue.of_seals (h.2 hn) hkeep
  | returned waited =>
    exact ⟨hkeep.allSealed h.1, fun hw => (h.2 hw).of_keep hkeep.toMovesKeep⟩

/-- What a caller knows survives the moves of users: a notification wakes it, and until
then its wake-up stays due. -/
theorem Stage.of_user (h : c.Stage s) (hinv : s.UsersInv) (hmove : UserMove s r s')
    (hheld : c.locksIdle = true → s.gate.idle = some .manager) :
    (if s.users[r]? = some .notifying then c.wake else c).Stage s' := by
  have hkeep := hmove.keep hinv
  cases c with
  | sealing waits proc =>
    have hsame : (if s.users[r]? = some .notifying then wake (sealing waits proc)
      else sealing waits proc) = sealing waits proc := ite_self _
    rw [hsame]
    exact SealProc.Inv.of_readers h hkeep
  | sealingBare waits i =>
    have hsame : (if s.users[r]? = some .notifying then wake (sealingBare waits i)
      else sealingBare waits i) = sealingBare waits i := ite_self _
    rw [hsame]
    exact fun j hj => hkeep.sealedAt (h j hj)
  | waiting notified proc =>
    have hs := hkeep.allSealed h.1
    cases proc with
    | lock => split <;> exact ⟨hs, trivial⟩
    | observe i idle =>
      have hobserved := hmove.observed hinv (hheld rfl) h.2
      split <;> exact ⟨hs, hobserved⟩
    | parked =>
      split
      next => exact ⟨hs, nofun⟩
      next hn => exact ⟨hs, fun hnot => (hmove.wakeDue (h.2 hnot)).resolve_right fun hw => hn hw.1⟩
  | returned waited =>
    have hsame : (if s.users[r]? = some .notifying then wake (returned waited)
      else returned waited) = returned waited := ite_self _
    rw [hsame]
    exact ⟨hkeep.allSealed h.1, fun hw => (h.2 hw).of_user h.1 hmove⟩

/-- What a caller knows survives a user that comes. -/
theorem Stage.entered (h : c.Stage s) (stripe : Fin N) :
    c.Stage { s with users := s.users ++ [.entering stripe] } := by
  cases c with
  | waiting notified proc =>
    refine ⟨h.1, ?_⟩
    cases proc with
    | lock => exact trivial
    | observe i idle => exact h.2
    | parked => exact fun hn => WakeDue.entered (h.2 hn) stripe
  | returned waited => exact ⟨h.1, fun hw => (h.2 hw).entered stripe⟩
  | _ => exact h

end GateCaller

/-- A gate without a control claim, and the callers of its `seal` and `wait`. The claim of
`system` is never taken: whoever seals or waits holds the idle lock in its place. -/
structure TerminalDrainGate (w N : Nat) where
  system  : GateSystem w N
  callers : List GateCaller

namespace TerminalDrainGate

variable {w N : Nat}

def new : TerminalDrainGate w N where
  system  := .new false
  callers := []

/-- Caller `k` goes on as `caller`, having left the gate as `gate`. -/
def goto (s : TerminalDrainGate w N) (k : Nat) (gate : StripedDrainGate w N)
    (caller : GateCaller) : TerminalDrainGate w N where
  system  := { s.system with gate := gate }
  callers := s.callers.set k caller

/-- Go on after one step of a procedure. -/
def advance {δ : Type} (s : TerminalDrainGate w N) (k : Nat) (next : δ → GateCaller)
    (finish : GateCaller) : Progress (StripedDrainGate w N) δ → TerminalDrainGate w N
  | .running gate proc => s.goto k gate (next proc)
  | .done gate _ => s.goto k gate finish
  | .failStop => { s with system := s.system.abort .release }

/-- One atomic access of caller `k`. A waiter that parks has not been notified yet. -/
def call (s : TerminalDrainGate w N) (k : Nat) : GateCaller → Option (TerminalDrainGate w N)
  | .sealing waits proc =>
    (proc.step s.system.gate).map (s.advance k (.sealing waits) (.afterSeal waits))
  | .sealingBare waits i =>
    if h : i < N then
      some (s.goto k (s.system.gate.setCounter ⟨i, h⟩ (sealWord (s.system.gate.counters ⟨i, h⟩)))
        (.sealingBare waits (i + 1)))
    else some (s.goto k s.system.gate (.afterSeal waits))
  | .waiting notified proc =>
    (proc.step s.system.gate).map
      (s.advance k (fun next => .waiting (notified && next != .parked) next) (.returned true))
  | .returned _ => none

inductive Action (N : Nat) where
  /-- A call of `try_enter`. -/
  | enter (stripe : Fin N)
  /-- The next access of one user. -/
  | user (r : Nat)
  /-- A call of `seal`, or of `wait`. -/
  | call (waits : Bool)
  /-- The next access of one caller. -/
  | caller (k : Nat)
deriving DecidableEq

def step (kind : GateKind) (s : TerminalDrainGate w N) (action : Action N) :
    Option (TerminalDrainGate w N) :=
  if s.system.aborted.isSome then none
  else match action with
  | .enter stripe =>
    some { s with system := { s.system with users := s.system.users ++ [.entering stripe] } }
  | .user r =>
    (s.system.userStep r).map fun system =>
      { system  := system
        callers := s.callers.map fun c =>
          if s.system.users[r]? = some .notifying then c.wake else c }
  | .call waits =>
    some { s with callers := s.callers ++
      [if kind = .striped then .sealing waits .lock else .sealingBare waits 0] }
  | .caller k => s.callers[k]?.bind (s.call k)

variable {s s' : TerminalDrainGate w N} {kind : GateKind} {k : Nat} {c c' : GateCaller}
  {gate : StripedDrainGate w N}

/-- **The invariant of a terminal gate.** -/
structure Inv (s : TerminalDrainGate w N) : Prop where
  users : s.system.UsersInv
  /-- At most one caller has the idle lock, and nobody else has it for a caller. -/
  locked : s.callers.countP (·.locksIdle) = if s.system.gate.idle = some .manager then 1 else 0
  stage : ∀ c ∈ s.callers, c.Stage s.system

/-- A new gate has no users and no callers. -/
theorem new_inv : (new : TerminalDrainGate w N).Inv where
  users := (GateSystem.new_inv false).toUsersInv
  locked := rfl
  stage _ hc := by cases hc

/-- The caller in a locked section has the idle lock. -/
theorem Inv.held (hinv : s.Inv) (hc : c ∈ s.callers) (hlocks : c.locksIdle = true) :
    s.system.gate.idle = some .manager := by
  have hpos : 0 < s.callers.countP (·.locksIdle) := countP_pos_iff.mpr ⟨c, hc, hlocks⟩
  rw [hinv.locked] at hpos
  split at hpos
  next h => exact h
  next => cases hpos

/-- A caller that has the idle lock, or may take it, knows who holds it. -/
theorem Inv.lock_of (hinv : s.Inv) (hc : c ∈ s.callers)
    (hfree : c.locksIdle = false → s.system.gate.idle = none) :
    ManagerLock s.system.gate c.locksIdle := by
  cases hlocks : c.locksIdle with
  | true => exact ⟨fun _ => rfl, fun _ => hinv.held hc hlocks⟩
  | false => simp [ManagerLock, hfree hlocks]

/-- An access of caller `k`: it only seals and registers, and it accounts for the idle lock
if it takes or drops it. -/
theorem Inv.of_caller (hinv : s.Inv) (hk : s.callers[k]? = some c)
    (hkeep : SealsKeep s.system.gate gate)
    (hlock : gate.idle = s.system.gate.idle ∧ c'.locksIdle = c.locksIdle ∨
      ManagerLock s.system.gate c.locksIdle ∧ ManagerLock gate c'.locksIdle)
    (hstage : c'.Stage { s.system with gate := gate }) : (s.goto k gate c').Inv where
  users := hinv.users.of_keep hkeep.toMovesKeep
  locked := by
    have hset := countP_set_add (·.locksIdle) c' hk
    have hlocked := hinv.locked
    show (s.callers.set k c').countP _ = if gate.idle = some .manager then 1 else 0
    rcases hlock with ⟨hidle, hsame⟩ | ⟨hold, hnew⟩
    · rw [hsame] at hset
      rw [hidle, ← hlocked]
      omega
    · rw [if_congr hold rfl rfl] at hlocked
      rw [if_congr hnew rfl rfl]
      omega
  stage x hx := by
    rcases mem_or_eq_of_mem_set hx with hx | rfl
    · exact (hinv.stage x hx).of_seals hkeep
    · exact hstage

/-- A step of a seal under the idle lock. -/
theorem Inv.sealing (hinv : s.Inv) {waits : Bool} {proc : SealProc}
    (hk : s.callers[k]? = some (.sealing waits proc))
    {out : Progress (StripedDrainGate w N) SealProc} (hout : proc.step s.system.gate = some out) :
    (s.advance k (.sealing waits) (.afterSeal waits) out).Inv := by
  have hmem := mem_of_getElem? hk
  have hlock : ManagerLock s.system.gate proc.locks := hinv.lock_of hmem fun hlocks => by
    cases proc with
    | lock =>
      simp only [SealProc.step] at hout
      split at hout
      next hfree => exact hfree
      next => cases hout
    | stripe i => cases hlocks
  have hyields := proc.step_yields hout (hinv.stage _ hmem) hlock
  cases out with
  | running gate' next => exact hinv.of_caller hk hyields.1 (.inr ⟨hlock, hyields.2.2⟩) hyields.2.1
  | done gate' ok =>
    obtain ⟨hkeep, -, hsealed, hunlock⟩ := hyields
    exact hinv.of_caller hk hkeep
      (.inr ⟨hlock, by rwa [GateCaller.locksIdle_afterSeal]⟩) (GateCaller.stage_afterSeal hsealed _)
  | failStop => exact hyields.elim

/-- A step of a seal without it. -/
theorem Inv.sealingBare (hinv : s.Inv) {waits : Bool} {i : Nat}
    (hk : s.callers[k]? = some (.sealingBare waits i)) (h : s.call k (.sealingBare waits i) = some s') :
    s'.Inv := by
  have hstage := hinv.stage _ (mem_of_getElem? hk)
  simp only [TerminalDrainGate.call] at h
  split at h
  next hi =>
    cases h
    refine hinv.of_caller hk (keeps_seal _ _) (.inl ⟨rfl, rfl⟩) ?_
    refine forall_setCounter (P := fun j c => j.val < i + 1 → isSealed c = true) ?_ ?_
    · intro j hne hj
      have hval : j.val ≠ i := fun h => hne (Fin.ext h)
      exact hstage j (by omega)
    · intro _
      exact isSealed_seal _
  next hi =>
    cases h
    refine hinv.of_caller hk (.refl _) (.inl ⟨rfl, GateCaller.locksIdle_afterSeal _⟩) ?_
    exact GateCaller.stage_afterSeal (fun j => hstage j (by have := j.isLt; omega)) _

/-- A waiter returns only from the idle lock, so no release is in its section then. -/
theorem Inv.waiting (hinv : s.Inv) {notified : Bool} {proc : WaitProc}
    (hk : s.callers[k]? = some (.waiting notified proc))
    {out : Progress (StripedDrainGate w N) WaitProc} (hout : proc.step s.system.gate = some out) :
    (s.advance k (fun next => .waiting (notified && next != .parked) next) (.returned true)
      out).Inv := by
  have hmem := mem_of_getElem? hk
  obtain ⟨hs, hstage⟩ := hinv.stage _ hmem
  by_cases hparked : proc = .parked
  · subst hparked
    cases hout
    exact hinv.of_caller hk (.refl _) (.inl ⟨rfl, rfl⟩) ⟨hs, trivial⟩
  have hlock : ManagerLock s.system.gate proc.locks := hinv.lock_of hmem fun hlocks => by
    cases proc with
    | lock =>
      simp only [WaitProc.step] at hout
      split at hout
      next hfree => exact hfree
      next => cases hout
    | observe i idle => cases hlocks
    | parked => exact absurd rfl hparked
  have hyields := hstage.step hlock hout
  cases out with
  | running gate' next =>
    obtain ⟨hkeep, hunlock, hnext⟩ := hyields
    refine hinv.of_caller hk hkeep (.inr ⟨hlock, hunlock⟩) ⟨hkeep.allSealed hs, ?_⟩
    cases next with
    | lock => exact trivial
    | observe i idle => exact hnext
    | parked => exact fun _ => hnext rfl
  | done gate' ok =>
    obtain ⟨hkeep, hunlock, hheld, hdrained⟩ := hyields
    have hsealed := hkeep.allSealed hs
    refine hinv.of_caller hk hkeep (.inr ⟨hlock, hunlock⟩) ⟨hsealed, fun _ => ?_⟩
    exact (hinv.users.of_keep hkeep.toMovesKeep).quiet (fun i => hdrained i (hsealed i))
      fun x hx => hinv.users.no_section hheld hx
  | failStop => exact hyields.elim

/-- **A step of one caller**, beside all the others. -/
theorem Inv.call (hinv : s.Inv) (hk : s.callers[k]? = some c) (h : s.call k c = some s') :
    s'.Inv := by
  cases c with
  | sealing waits proc =>
    obtain ⟨out, hout, rfl⟩ := map_eq_some_iff.mp h
    exact hinv.sealing hk hout
  | sealingBare waits i => exact hinv.sealingBare hk h
  | waiting notified proc =>
    obtain ⟨out, hout, rfl⟩ := map_eq_some_iff.mp h
    exact hinv.waiting hk hout
  | returned waited => cases h

/-- **The invariant is kept by every step.** -/
theorem Inv.step (hinv : s.Inv) {action : Action N} (h : s.step kind action = some s') :
    s'.Inv := by
  unfold TerminalDrainGate.step at h
  split at h
  next => cases h
  next =>
    cases action with
    | enter stripe =>
      cases h
      exact ⟨hinv.users.entered stripe, hinv.locked, fun c hc => (hinv.stage c hc).entered stripe⟩
    | user r =>
      obtain ⟨system, hsystem, rfl⟩ := map_eq_some_iff.mp h
      have hmove := userMove_of_userStep hsystem
      refine ⟨hinv.users.of_user hmove, ?_, fun c hc => ?_⟩
      · show (s.callers.map _).countP _ = if system.gate.idle = some .manager then 1 else 0
        rw [countP_map, if_congr (hmove.keep hinv.users).manager rfl rfl, ← hinv.locked]
        refine countP_congr fun c _ => ?_
        show (if _ then c.wake else c).locksIdle = true ↔ _
        split
        next => rw [GateCaller.locksIdle_wake]
        next => exact Iff.rfl
      · obtain ⟨x, hx, rfl⟩ := mem_map.mp hc
        exact (hinv.stage x hx).of_user hinv.users hmove (hinv.held hx)
    | call waits =>
      cases h
      refine ⟨hinv.users, ?_, fun c hc => ?_⟩
      · show (s.callers ++ [_]).countP _ = _
        rw [countP_append, hinv.locked]
        cases kind <;> rfl
      · rcases mem_append.mp hc with hc | hc
        · exact hinv.stage c hc
        · rw [mem_singleton.mp hc]
          cases kind
          · exact fun j hj => absurd hj (Nat.not_lt_zero _)
          · exact trivial
    | caller k =>
      obtain ⟨c, hk, hcall⟩ := bind_eq_some_iff.mp h
      exact hinv.call hk hcall

/-- Every state reached is in the invariant. -/
theorem Reachable.inv (h : Reachable (step kind) (new : TerminalDrainGate w N) s) : s.Inv :=
  Lib.Reachable.invariant (fun _ _ _ hi hs => hi.step hs) new_inv h

/-- **No lost wake-up, and a sound drain.** On either gate, with any number of stripes and of
users, in every state any interleaving reaches.

Under the control claim, whose holder seals, waits, polls and reopens:

* a parked waiter that has not been notified is registered on every stripe, and some stripe
  still has a permit or a release is between its decrement and its notification under the idle
  lock;
* when a wait returns on a sealed gate, no stripe has a permit, and no release is still in the
  section in which it touches the gate.

Without the claim, with any number of callers inside `seal` and `wait` at once:

* the same for every parked waiter that has not been notified;
* once a wait has returned the gate is sealed, no stripe has a permit, and no release is in that
  section, from then on. -/
theorem no_lost_wakeup : (∀ (sealedAtStart : Bool) (s : GateSystem w N),
      Reachable (GateSystem.step kind) (.new sealedAtStart) s →
      (∀ result, s.manager = some (.waiting result .parked) → s.notified = false → s.WakeDue) ∧
      (∀ result proc phase s', s.manager = some (.waiting result proc) →
        s.step kind .manage = some s' → s'.manager = some (.ready phase) → s'.gate.AllSealed →
        s'.Quiet)) ∧
    (∀ s : TerminalDrainGate w N, Reachable (step kind) new s →
      (.waiting false .parked ∈ s.callers → s.system.WakeDue) ∧
      (.returned true ∈ s.callers → s.system.gate.AllSealed ∧ s.system.Quiet)) := by
  refine ⟨fun sealedAtStart s h => claim_wakes h, fun s h => ⟨fun hc => ?_, fun hc => ?_⟩⟩
  · exact ((Reachable.inv h).stage _ hc).2 rfl
  · obtain ⟨hs, hquiet⟩ := (Reachable.inv h).stage _ hc
    exact ⟨hs, hquiet rfl⟩

/-- Two stripes under the claim. A user has a permit when the gate is sealed; the wait parks,
and the release of the last permit is about to notify it. -/
def claimedRun : List (GateSystem.Action 2) :=
  List.flatten [[.enter 0, .user 0, .claim, .begin .doSeal], .replicate 4 .manage,
    [.begin .wait], .replicate 4 .manage, .replicate 3 (.user 0)]

/-- The release ends, the waiter wakes up and is about to return. -/
def returningRun : List (GateSystem.Action 2) :=
  claimedRun ++ List.flatten [[.user 0, .user 0], .replicate 4 .manage]

/-- One counter without the claim. Two callers wait for one permit, and both have parked when
its release is about to notify. -/
def parkedRun : List (Action 1) :=
  List.flatten [[.enter ⟨0, Nat.one_pos⟩, .user 0, .call true, .call true],
    .replicate 5 (.caller 0), .replicate 5 (.caller 1), .replicate 3 (.user 0)]

/-- Both wake up and return. -/
def returnedRun : List (Action 1) :=
  parkedRun ++ List.flatten [
    .replicate 2 (.user 0), .replicate 4 (.caller 1), .replicate 4 (.caller 0)]

/-- The guarantees on runs that park, under the claim and without it. -/
theorem no_lost_wakeup_parkedRun :
    (∃ s t t' : GateSystem 30 2, run (GateSystem.step .striped) (.new false) claimedRun = some s ∧
      s.manager = some (.waiting .drained .parked) ∧ s.notified = false ∧ s.WakeDue ∧
      run (GateSystem.step .striped) (.new false) returningRun = some t ∧
      t.step .striped .manage = some t' ∧ t'.manager = some (.ready .drained) ∧ t'.Quiet) ∧
    ∃ s t : TerminalDrainGate 30 1, run (step .drain) new parkedRun = some s ∧
      s.callers = [.waiting false .parked, .waiting false .parked] ∧ s.system.WakeDue ∧
      run (step .drain) new returnedRun = some t ∧
      t.callers = [.returned true, .returned true] ∧ t.system.gate.AllSealed ∧ t.system.Quiet := by
  have hclaimed : ((run (GateSystem.step .striped) (.new false : GateSystem 30 2) claimedRun).map
      fun s => (s.manager, s.notified)) = some (some (.waiting .drained .parked), false) := by
    decide +kernel
  have hreturn : ((run (GateSystem.step .striped) (.new false : GateSystem 30 2) returningRun).bind
      fun t => (t.step .striped .manage).map fun t' =>
        (t.manager, t'.manager, decide t'.gate.AllSealed)) =
      some (some (.waiting .drained (.observe 2 true)), some (.ready .drained), true) := by
    decide +kernel
  have hparked : ((run (step .drain) (new : TerminalDrainGate 30 1) parkedRun).map (·.callers)) =
      some [.waiting false .parked, .waiting false .parked] := by
    decide +kernel
  have hreturned : ((run (step .drain) (new : TerminalDrainGate 30 1) returnedRun).map
      (·.callers)) = some [.returned true, .returned true] := by
    decide +kernel
  obtain ⟨s, hs, hsval⟩ := map_eq_some_iff.mp hclaimed
  obtain ⟨t, ht, htval⟩ := bind_eq_some_iff.mp hreturn
  obtain ⟨t', ht', hval⟩ := map_eq_some_iff.mp htval
  obtain ⟨u, hu, hucallers⟩ := map_eq_some_iff.mp hparked
  obtain ⟨v, hv, hvcallers⟩ := map_eq_some_iff.mp hreturned
  simp only [Prod.mk.injEq, decide_eq_true_eq] at hsval hval
  refine ⟨⟨s, t, t', hs, hsval.1, hsval.2, ?_, ht, ht', hval.2.1, ?_⟩,
    u, v, hu, hucallers, ?_, hv, hvcallers, ?_⟩
  · exact (no_lost_wakeup.1 false s ⟨_, hs⟩).1 .drained hsval.1 hsval.2
  · exact (no_lost_wakeup.1 false t ⟨_, ht⟩).2 .drained _ .drained t' hval.1 ht' hval.2.1 hval.2.2
  · exact (no_lost_wakeup.2 u ⟨_, hu⟩).1 (by simp [hucallers])
  · exact (no_lost_wakeup.2 v ⟨_, hv⟩).2 (by simp [hvcallers])

end TerminalDrainGate

end Xlfn.Kernel
