import Xlfn.Kernel.DrainWait

/-!
# Xlfn — the export ingress

`ingress.rs` counts every call that Excel makes into the module. Four words decide
who may run user code: the phase, the epoch, the striped drain gate that counts
the calls, and the lock that serialises the publication of OPEN. They are separate
atomics, so an entry reads the phase again after it has its permit.

* `EntryCall` — one call of `enter_with` or `enter_udf_with`, from its first load
  of the phase to the end of the guard it returns.
* `Call` — one call of `begin_opening`, `complete_open`, `begin_close_with` or
  `seal_and_drain`. The gate is administered through `GateSystem`, one atomic
  access at a time, by the call that has the control claim.
* `step` — every party takes one atomic access, in any order. Any number of
  entries and calls are in progress at once.

`DIAGNOSTIC_LINEARIZATION` and `TEST_EPOCH_GATE` exist in tests only and are left
out; `on_accepted`, `on_closed` and `before_close` touch none of these words.
-/

namespace Xlfn.Ingress

open Kernel

/-- `PHASE_OPENING`, `PHASE_OPEN`, `PHASE_CLOSING` and `PHASE_CLOSED`. -/
inductive Phase where
  | opening
  | opened
  | closing
  | closed
deriving DecidableEq

/-- `ExportCallGuard`. `permit` is the user of the gate whose count the guard owns;
a rejected guard without a reservation has none. -/
structure ExportCallGuard where
  epoch  : Nat
  permit : Option Nat
deriving DecidableEq

inductive ExportEntry where
  | admitted (guard : ExportCallGuard)
  | rejected (guard : ExportCallGuard)
deriving DecidableEq

def ExportEntry.guard : ExportEntry → ExportCallGuard
  | .admitted guard => guard
  | .rejected guard => guard

/-- Where an entry is. `locked` says that it holds the opening lock, which it
takes only when its first load found OPENING; `permit` is its user of the gate. -/
inductive EntryPc where
  | observe
  | lock
  | check (locked : Bool)
  | acquire (locked : Bool) (permit : Nat)
  | udfEnter (locked : Bool) (permit : Nat)
  /-- The load of the phase that decides, with the permit taken. -/
  | confirm (locked : Bool) (permit : Nat)
  | udfUndo (locked : Bool) (permit : Nat)
  | dropPermit (locked : Bool) (permit : Nat)
  | guardEpoch (locked : Bool) (permit : Nat) (accepted : Bool)
  /-- `rejected_guard`. -/
  | refuse (locked : Bool)
  | returning (locked : Bool) (entry : ExportEntry)
  | live (entry : ExportEntry)
  | dropping (entry : ExportEntry)
  | udfLeave (entry : ExportEntry) (permit : Nat)
  | release (entry : ExportEntry) (permit : Nat)
  | gone
  /-- "export guard crossed ingress epochs". -/
  | crossed
deriving DecidableEq

/-- One call of `enter_with`, or of `enter_udf_with` when `udf`, on the stripe of
its thread. -/
structure EntryCall (N : Nat) where
  udf    : Bool
  stripe : Fin N
  pc     : EntryPc
deriving DecidableEq

/-- `begin_opening`. `count again i sum` is inside `active_calls`, which runs a
second time, in the assertion, when the first sum is not zero. -/
inductive BeginOpening where
  | lock
  | phase
  | count (again : Bool) (i sum : Nat)
  | epoch
  | control
  | manage (last : Option ControlOp) (rest : List ControlOp)
  | publish
  | unlock (ok : Bool)
  | finished (ok : Bool)
deriving DecidableEq

inductive OpenOutcome where
  | published
  /-- The callback returned an error. -/
  | failed
  /-- `OpeningPublicationLost`. -/
  | lost
deriving DecidableEq

/-- `complete_open`. -/
inductive CompleteOpen where
  | lock
  | control
  | manage (last : Option ControlOp) (rest : List ControlOp)
  | phase
  | operation
  | publish
  | unlock (outcome : OpenOutcome)
  | finished (outcome : OpenOutcome)
deriving DecidableEq

/-- `begin_close_with`. -/
inductive BeginClose where
  | observe
  | lock
  | load (locked : Bool)
  | exchange (locked : Bool) (observed : Phase)
  | unlock (locked : Bool)
  | finished
deriving DecidableEq

/-- `seal_and_drain`. `certify drained` has made its exchange in the epoch
`drained` and is about to load the epoch of the certificate. -/
inductive SealAndDrain where
  | phase
  | control
  | manage (last : Option ControlOp) (rest : List ControlOp)
  | controlAgain
  | manageAgain (last : Option ControlOp) (rest : List ControlOp)
  | exchange
  | certify (drained : Nat)
  | finished (drained certificate : Nat)
  | failed
  /-- "ingress sealed before begin_close". -/
  | panicked
deriving DecidableEq

inductive Call where
  | beginOpening (pc : BeginOpening)
  | completeOpen (pc : CompleteOpen)
  | beginClose (pc : BeginClose)
  | sealAndDrain (pc : SealAndDrain)
deriving DecidableEq

/-- The owner of the opening lock. -/
inductive Holder where
  | entry (i : Nat)
  | call (k : Nat)
deriving DecidableEq

/-- `ExportIngress` with the parties inside its operations. `claim` is the call
that has the control claim of the gate; `aborted` is `process::abort` or
`fail_stop`. -/
structure ExportIngress (w N : Nat) where
  phase       : Phase
  epoch       : Nat
  exports     : GateSystem w N
  udfStripes  : Fin N → Nat
  openingLock : Option Holder
  claim       : Option Nat
  entries     : List (EntryCall N)
  calls       : List Call
  aborted     : Bool

namespace ExportIngress

variable {w N : Nat}

def new : ExportIngress w N where
  phase       := .closed
  epoch       := 0
  exports     := .new true
  udfStripes  := fun _ => 0
  openingLock := none
  claim       := none
  entries     := []
  calls       := []
  aborted     := false

section

variable (s : ExportIngress w N)

def setPhase (phase : Phase) : ExportIngress w N :=
  { s with phase := phase }

def setExports (exports : GateSystem w N) : ExportIngress w N :=
  { s with exports := exports }

def setLock (holder : Option Holder) : ExportIngress w N :=
  { s with openingLock := holder }

def setUdf (stripe : Fin N) (active : Nat) : ExportIngress w N :=
  { s with udfStripes := Function.update s.udfStripes stripe active }

def setEntry (i : Nat) (e : EntryCall N) (pc : EntryPc) : ExportIngress w N :=
  { s with entries := s.entries.set i { e with pc := pc } }

def setCall (k : Nat) (c : Call) : ExportIngress w N :=
  { s with calls := s.calls.set k c }

def abort : ExportIngress w N := { s with aborted := true }

-- ---- Entries and their guards.

/-- `UdfStripe::leave`; leaving an empty stripe stops the process. -/
def udfLeaveStep (i : Nat) (e : EntryCall N) (next : EntryPc) : ExportIngress w N :=
  if s.udfStripes e.stripe = 0 then s.abort
  else (s.setUdf e.stripe (s.udfStripes e.stripe - 1)).setEntry i e next

/-- One access of the release of a permit, and where the entry goes on after the last. -/
def releaseStep (i : Nat) (e : EntryCall N) (permit : Nat)
    (next : EntryPc) : Option (ExportIngress w N) :=
  (s.exports.step .striped (.user permit)).map fun exports =>
    (s.setExports exports).setEntry i e
      (if exports.users[permit]? = some .finished then next else e.pc)

/-- One atomic access of entry `i`: `enter_with`, and later the drop of its guard. -/
def entryStep (i : Nat) (e : EntryCall N) : Option (ExportIngress w N) :=
  match e.pc with
  | .observe => some (s.setEntry i e (if s.phase = .opening then .lock else .check false))
  | .lock =>
    if s.openingLock = none then
      some ((s.setLock (some (.entry i))).setEntry i e (.check true))
    else none
  | .check locked =>
    if s.phase = .closed then some (s.setEntry i e (.refuse locked))
    else
      (s.exports.step .striped (.enter e.stripe)).map fun exports =>
        (s.setExports exports).setEntry i e (.acquire locked s.exports.users.length)
  | .acquire locked permit =>
    (s.exports.step .striped (.user permit)).map fun exports =>
      (s.setExports exports).setEntry i e
        (match exports.users[permit]? with
          | some (.holding _) => if e.udf then .udfEnter locked permit else .confirm locked permit
          | some .finished => .refuse locked
          | _ => .acquire locked permit)
  | .udfEnter locked permit =>
    if s.udfStripes e.stripe + 1 < 2 ^ (w + 2) then
      some ((s.setUdf e.stripe (s.udfStripes e.stripe + 1)).setEntry i e (.confirm locked permit))
    else some s.abort
  | .confirm locked permit =>
    if s.phase = .closed then
      some (s.setEntry i e (if e.udf then .udfUndo locked permit else .dropPermit locked permit))
    else some (s.setEntry i e (.guardEpoch locked permit (decide (s.phase = .opened))))
  | .udfUndo locked permit => some (s.udfLeaveStep i e (.dropPermit locked permit))
  | .dropPermit locked permit => s.releaseStep i e permit (.refuse locked)
  | .guardEpoch locked permit accepted =>
    some (s.setEntry i e (.returning locked
      (if accepted then .admitted ⟨s.epoch, some permit⟩ else .rejected ⟨s.epoch, some permit⟩)))
  | .refuse locked => some (s.setEntry i e (.returning locked (.rejected ⟨s.epoch, none⟩)))
  | .returning locked entry =>
    some ((if locked then s.setLock none else s).setEntry i e (.live entry))
  | .live _ => none
  | .dropping entry =>
    some (s.setEntry i e (match entry.guard.permit with
        | none => .gone
        | some permit =>
          if s.epoch = entry.guard.epoch then
            if e.udf then .udfLeave entry permit else .release entry permit
          else .crossed))
  | .udfLeave entry permit => some (s.udfLeaveStep i e (.release entry permit))
  | .release _ permit => s.releaseStep i e permit .gone
  | .gone => none
  | .crossed => none

end

-- ---- The holder of the control claim.

/-- What one access of an administering call leads to: the operation it is in or
has just finished and those that are left, or the claim dropped, or `fail_stop`. -/
inductive Administered (w N : Nat) where
  | running (s : ExportIngress w N) (last : Option ControlOp) (rest : List ControlOp)
  | done (s : ExportIngress w N)
  | failStop

section

variable (s : ExportIngress w N)

/-- `exports.control()`; `none` waits for the claim. -/
def takeClaim (k : Nat) : Option (ExportIngress w N) :=
  (s.exports.step .striped .claim).map fun exports =>
    { s with exports := exports, claim := some k }

/-- The next access of a chain of control operations, which ends with the claim
dropped. An operation the current phase type does not offer is the
`unwrap_or_else(fail_stop)` after a refused `wait_if_sealed`. -/
def administer (last : Option ControlOp) (rest : List ControlOp) : Option (Administered w N) :=
  match s.exports.manager with
  | none => none
  | some (.ready _) =>
    match rest with
    | [] =>
      (s.exports.step .striped .dropClaim).map fun exports =>
        .done { s with exports := exports, claim := none }
    | op :: rest =>
      match s.exports.step .striped (.begin op) with
      | some exports => some (.running (s.setExports exports) (some op) rest)
      | none => some .failStop
  | some _ =>
    (s.exports.step .striped .manage).map fun exports =>
      .running (s.setExports exports) last rest

/-- Go on in call `k` after one access of its chain. -/
def administered (k : Nat) (next : Option ControlOp → List ControlOp → Call) (done : Call) :
    Administered w N → ExportIngress w N
  | .running s last rest => s.setCall k (next last rest)
  | .done s => s.setCall k done
  | .failStop => s.abort

-- ---- The operations of the module.

def beginOpeningStep (k : Nat) : BeginOpening → Option (ExportIngress w N)
  | .lock =>
    if s.openingLock = none then
      some ((s.setLock (some (.call k))).setCall k (.beginOpening .phase))
    else none
  | .phase =>
    some (s.setCall k (.beginOpening
      (if s.phase = .closed then .count false 0 0 else .unlock false)))
  | .count again i sum =>
    if h : i < N then
      if sum + active (s.exports.gate.counters ⟨i, h⟩) < 2 ^ (w + 2) then
        some (s.setCall k (.beginOpening
          (.count again (i + 1) (sum + active (s.exports.gate.counters ⟨i, h⟩)))))
      else some s.abort
    else
      some (s.setCall k (.beginOpening
        (if sum = 0 then .epoch else if again then .unlock false else .count true 0 0)))
  | .epoch =>
    if s.epoch + 1 < 2 ^ 64 then
      some ({ s with epoch := s.epoch + 1 }.setCall k (.beginOpening .control))
    else some s.abort
  | .control =>
    (s.takeClaim k).map (·.setCall k (.beginOpening (.manage none [.waitIfSealed, .reopen])))
  | .manage last rest =>
    (s.administer last rest).map
      (s.administered k (fun last rest => .beginOpening (.manage last rest)) (.beginOpening .publish))
  | .publish => some ((s.setPhase .opening).setCall k (.beginOpening (.unlock true)))
  | .unlock ok => some ((s.setLock none).setCall k (.beginOpening (.finished ok)))
  | .finished _ => none

def completeOpenStep (k : Nat) : CompleteOpen → Option (ExportIngress w N)
  | .lock =>
    if s.openingLock = none then
      some ((s.setLock (some (.call k))).setCall k (.completeOpen .control))
    else none
  | .control => (s.takeClaim k).map (·.setCall k (.completeOpen (.manage none [.waitIdle])))
  | .manage last rest =>
    (s.administer last rest).map
      (s.administered k (fun last rest => .completeOpen (.manage last rest)) (.completeOpen .phase))
  | .phase =>
    some (s.setCall k (.completeOpen (if s.phase = .opening then .operation else .unlock .lost)))
  | .operation => none
  | .publish =>
    if s.phase = .opening then
      some ((s.setPhase .opened).setCall k (.completeOpen (.unlock .published)))
    else some (s.setCall k (.completeOpen (.unlock .lost)))
  | .unlock outcome => some ((s.setLock none).setCall k (.completeOpen (.finished outcome)))
  | .finished _ => none

/-- The top of the loop of `begin_close_with`. -/
def closeObserved (locked : Bool) (observed : Phase) : BeginClose :=
  if observed = .opened ∨ observed = .opening then .exchange locked observed else .unlock locked

def beginCloseStep (k : Nat) : BeginClose → Option (ExportIngress w N)
  | .observe =>
    some (s.setCall k (.beginClose (if s.phase = .opening then .lock else .load false)))
  | .lock =>
    if s.openingLock = none then
      some ((s.setLock (some (.call k))).setCall k (.beginClose (.load true)))
    else none
  | .load locked => some (s.setCall k (.beginClose (closeObserved locked s.phase)))
  | .exchange locked observed =>
    if s.phase = observed then
      some ((s.setPhase .closing).setCall k (.beginClose (.unlock locked)))
    else some (s.setCall k (.beginClose (closeObserved locked s.phase)))
  | .unlock locked =>
    some ((if locked then s.setLock none else s).setCall k (.beginClose .finished))
  | .finished => none

def sealAndDrainStep (k : Nat) : SealAndDrain → Option (ExportIngress w N)
  | .phase =>
    some (s.setCall k (.sealAndDrain
      (if s.phase = .opened ∨ s.phase = .opening then .panicked else .control)))
  | .control => (s.takeClaim k).map (·.setCall k (.sealAndDrain (.manage none [.waitIdle])))
  | .manage last rest =>
    (s.administer last rest).map
      (s.administered k (fun last rest => .sealAndDrain (.manage last rest))
        (.sealAndDrain .controlAgain))
  | .controlAgain =>
    (s.takeClaim k).map (·.setCall k (.sealAndDrain (.manageAgain none [.doSeal, .wait])))
  | .manageAgain last rest =>
    (s.administer last rest).map
      (s.administered k (fun last rest => .sealAndDrain (.manageAgain last rest))
        (.sealAndDrain .exchange))
  | .exchange =>
    if s.phase = .closing ∨ s.phase = .closed then
      some ((s.setPhase .closed).setCall k (.sealAndDrain (.certify s.epoch)))
    else some (s.setCall k (.sealAndDrain .panicked))
  | .certify drained => some (s.setCall k (.sealAndDrain (.finished drained s.epoch)))
  | .finished _ _ => none
  | .failed => none
  | .panicked => none

def callStep (k : Nat) : Call → Option (ExportIngress w N)
  | .beginOpening pc => s.beginOpeningStep k pc
  | .completeOpen pc => s.completeOpenStep k pc
  | .beginClose pc => s.beginCloseStep k pc
  | .sealAndDrain pc => s.sealAndDrainStep k pc

end

-- ---- The machine.

inductive Action (N : Nat) where
  /-- A call of `enter_with` or `enter_udf_with`. -/
  | enter (udf : Bool) (stripe : Fin N)
  /-- The next access of one entry, or of the drop of its guard. -/
  | entry (i : Nat)
  /-- The caller drops the guard of an entry. -/
  | dropGuard (i : Nat)
  | beginOpening
  | completeOpen
  | beginClose
  | sealAndDrain
  /-- The next access of one call. -/
  | call (k : Nat)
  /-- The callback of `complete_open` returns. -/
  | operate (k : Nat) (ok : Bool)
  /-- `compare_exchange_weak` fails without reason. -/
  | spurious (k : Nat)
  /-- `drain_exports` returns an error without having waited. -/
  | drainFails (k : Nat)
deriving DecidableEq

/-- A new call, at its first access. -/
def addCall (s : ExportIngress w N) (c : Call) : ExportIngress w N :=
  { s with calls := s.calls ++ [c] }

def step (s : ExportIngress w N) (action : Action N) : Option (ExportIngress w N) :=
  if s.aborted || s.exports.aborted.isSome then none
  else match action with
  | .enter udf stripe => some { s with entries := s.entries ++ [⟨udf, stripe, .observe⟩] }
  | .entry i => s.entries[i]?.bind (s.entryStep i)
  | .dropGuard i =>
    s.entries[i]?.bind fun e =>
      match e.pc with
      | .live entry => some (s.setEntry i e (.dropping entry))
      | _ => none
  | .beginOpening => some (s.addCall (.beginOpening .lock))
  | .completeOpen => some (s.addCall (.completeOpen .lock))
  | .beginClose => some (s.addCall (.beginClose .observe))
  | .sealAndDrain => some (s.addCall (.sealAndDrain .phase))
  | .call k => s.calls[k]?.bind (s.callStep k)
  | .operate k ok =>
    if s.calls[k]? = some (.completeOpen .operation) then
      some (s.setCall k (.completeOpen (if ok then .publish else .unlock .failed)))
    else none
  | .spurious k =>
    s.calls[k]?.bind fun c =>
      match c with
      | .beginClose (.exchange locked _) =>
        some (s.setCall k (.beginClose (closeObserved locked s.phase)))
      | _ => none
  | .drainFails k =>
    if s.calls[k]? = some (.sealAndDrain .control) ∨
        s.calls[k]? = some (.sealAndDrain .controlAgain) then
      some (s.setCall k (.sealAndDrain .failed))
    else none

end ExportIngress

end Xlfn.Ingress
