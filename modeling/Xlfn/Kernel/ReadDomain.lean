import Xlfn.Lib.Machine
import Xlfn.Kernel.DrainGate

/-!
# Xlfn — the rotating read domain

`rotating_read_domain.rs` admits readers through one of two gates and rotates
between them. A rotation seals the current gate, records it as pending,
publishes the other one and reopens it; when the pending gate has drained, the
caller's callback runs and pending is cleared. All of that happens under the
transition lock, while readers come and go through the gates alone.

The machine below is that program, one atomic access or lock operation a step:

* `Reader` — one call of `enter` and the permit it returns, down to the release
  that takes the idle lock to notify a waiter.
* `Transition` — where the holder of the transition lock is: inside `rotate`,
  `poll_quiesce`, `try_quiesce_if_idle` or `seal_and_wait`. Callers that wait
  for the lock, or fail to get it with `try_lock`, change nothing.
* `step` — one action of any party. `barrierBusy` is a publication barrier that
  cannot be had without waiting, and `panic` is the caller's callback unwinding.

`issued` and `certified` are history, which the code does not keep: how many
permits were handed out, and whether `seal_and_wait` has returned.
-/

namespace Xlfn.Kernel

/-- `GenerationIndex`: `index() ^ 1` is `!`. -/
abbrev GenerationIndex := Bool

/-- The operations that take the transition lock. `rotate` is `quiesce` and
`try_quiesce`, `idle` is `try_quiesce_if_idle`. -/
inductive Operation where
  | rotate
  | poll
  | idle
  | close
deriving DecidableEq

/-- The `fail_stop` branches the machine can reach. -/
inductive Abort where
  | acquire
  | release
  | begin
  | tryBegin
  | reopen
  | undo
deriving DecidableEq

/-- One call of `enter`, from its first load to the end of its permit. -/
inductive Reader (N : Nat) where
  | start (stripe : Fin N)
  | select (stripe : Fin N)
  | acquire (stripe : Fin N) (generation : GenerationIndex)
  | rejected (stripe : Fin N)
  | holding (stripe : Fin N) (generation : GenerationIndex) (serial : Nat)
  | retained (stripe : Fin N) (generation : GenerationIndex) (serial : Nat)
  | notifying (stripe : Fin N) (generation : GenerationIndex) (serial : Nat)
  | tail (generation : GenerationIndex)
  | finished
deriving DecidableEq

/-- The count this reader has on a stripe of a generation is not yet released. -/
def Reader.holds {N : Nat} (generation : GenerationIndex) (i : Fin N) : Reader N → Bool
  | .holding stripe g _ => g == generation && stripe == i
  | .retained stripe g _ => g == generation && stripe == i
  | .notifying stripe g _ => g == generation && stripe == i
  | _ => false

/-- This reader holds the idle lock of the generation. -/
def Reader.locksIdle {N : Nat} (generation : GenerationIndex) : Reader N → Bool
  | .notifying _ g _ => g == generation
  | .tail g => g == generation
  | _ => false

/-- The live permit of this reader: its generation and its number. -/
def Reader.permit {N : Nat} : Reader N → Option (GenerationIndex × Nat)
  | .holding _ g serial => some (g, serial)
  | .retained _ g serial => some (g, serial)
  | .notifying _ g serial => some (g, serial)
  | _ => none

/-- What the holder of the transition lock does next. `again` says that a new
rotation follows the one that was pending. -/
inductive Transition (w : Nat) where
  | locked (op : Operation)
  | classify (op : Operation)
  | barrier (op : Operation) (old : GenerationIndex)
  | claimReplacement (op : Operation) (old : GenerationIndex)
  | replacement (op : Operation) (old : GenerationIndex) (proc : DrainProc)
  | claimOld (op : Operation) (old : GenerationIndex)
  | sealOld (op : Operation) (old : GenerationIndex) (proc : SealProc)
  | idleSeal (old : GenerationIndex) (proc : IdleSealProc w)
  | setPending (op : Operation) (old : GenerationIndex)
  | publish (op : Operation) (old : GenerationIndex)
  | reopen (op : Operation) (old : GenerationIndex) (proc : ReopenProc)
  | releaseBarrier (op : Operation) (old : GenerationIndex)
  | abandon (op : Operation) (old : GenerationIndex)
  | claimPending (op : Operation) (old : GenerationIndex) (again : Bool)
  | drainSeal (old : GenerationIndex) (again : Bool) (proc : SealProc)
  | drainWait (old : GenerationIndex) (again : Bool) (proc : WaitProc)
  | tryWait (op : Operation) (old : GenerationIndex) (proc : DrainProc)
  | callback (op : Operation) (old : GenerationIndex) (again : Bool)
  | clear (op : Operation) (old : GenerationIndex) (again : Bool)
  | closeClaim (generation : GenerationIndex)
  | closeSeal (generation : GenerationIndex) (proc : SealProc)
  | closeWait (generation : GenerationIndex) (proc : WaitProc)
  | unlock
deriving DecidableEq

/-- `RotatingReadDomain<N>` with the parties that are inside its operations. -/
structure RotatingReadDomain (w N : Nat) where
  generations : GenerationIndex → StripedDrainGate w N
  current     : GenerationIndex
  pending     : Option GenerationIndex
  transition  : Option (Transition w)
  closed      : Bool
  readers     : List (Reader N)
  issued      : Nat
  certified   : Bool
  aborted     : Option Abort

namespace RotatingReadDomain

variable {w N : Nat}

/-- `RotatingReadDomain::new`. -/
def new : RotatingReadDomain w N where
  generations := fun g => if g then .newSealed else .newOpen
  current     := false
  pending     := none
  transition  := none
  closed      := false
  readers     := []
  issued      := 0
  certified   := false
  aborted     := none

section

variable (s : RotatingReadDomain w N)

def setGate (g : GenerationIndex) (gate : StripedDrainGate w N) : RotatingReadDomain w N :=
  { s with generations := Function.update s.generations g gate }

def goto (t : Transition w) : RotatingReadDomain w N :=
  { s with transition := some t }

def abort (why : Abort) : RotatingReadDomain w N :=
  { s with aborted := some why }

def setReader (r : Nat) (reader : Reader N) : RotatingReadDomain w N :=
  { s with readers := s.readers.set r reader }

/-- Take or give back the control claim of a generation. -/
def setControl (g : GenerationIndex) (held : Bool) : RotatingReadDomain w N :=
  s.setGate g ((s.generations g).setControl held)

/-- Go on after one step of a procedure on the gate of generation `g`. -/
def advance {δ : Type} (g : GenerationIndex)
    (next : δ → Transition w) (finish : RotatingReadDomain w N → Bool → RotatingReadDomain w N)
    (stop : Abort) : Progress (StripedDrainGate w N) δ → RotatingReadDomain w N
  | .running gate proc => (s.setGate g gate).goto (next proc)
  | .done gate ok => finish (s.setGate g gate) ok
  | .failStop => s.abort stop

-- ---- Readers.

/-- One atomic access of reader `r`: `enter_reader!`, then `StripedDrainGate::release`. -/
def readerStep (r : Nat) : Option (RotatingReadDomain w N) :=
  match s.readers[r]? with
  | none => none
  | some (.start stripe) =>
    if s.closed then some (s.setReader r .finished) else some (s.setReader r (.select stripe))
  | some (.select stripe) => some (s.setReader r (.acquire stripe s.current))
  | some (.acquire stripe g) =>
    match acquireStep ((s.generations g).counters stripe) with
    | .success state =>
      some { (s.setGate g ((s.generations g).setCounter stripe state)).setReader r
          (.holding stripe g s.issued) with
        issued := s.issued + 1 }
    | .rejected => some (s.setReader r (.rejected stripe))
    | .failStop => some (s.abort .acquire)
  | some (.rejected stripe) =>
    if s.closed then some (s.setReader r .finished) else some (s.setReader r (.start stripe))
  | some (.holding stripe g serial) =>
    match releaseWithoutNotificationStep ((s.generations g).counters stripe) with
    | .success state =>
      some ((s.setGate g ((s.generations g).setCounter stripe state)).setReader r .finished)
    | .rejected => some (s.setReader r (.retained stripe g serial))
    | .failStop => some (s.abort .release)
  | some (.retained stripe g serial) =>
    if (s.generations g).idle = none then
      some ((s.setGate g ((s.generations g).setIdle (some (.releaser r)))).setReader r
        (.notifying stripe g serial))
    else none
  | some (.notifying stripe g _) =>
    match releaseStep ((s.generations g).counters stripe) with
    | .success state =>
      some ((s.setGate g ((s.generations g).setCounter stripe state)).setReader r (.tail g))
    | .rejected => some (s.abort .release)
    | .failStop => some (s.abort .release)
  | some (.tail g) =>
    some ((s.setGate g ((s.generations g).setIdle none)).setReader r .finished)
  | some .finished => none

-- ---- The holder of the transition lock.

/-- `control()` waits for the claim of a gate; `try_control()` gives up instead. -/
def claim (op : Operation) (g : GenerationIndex)
    (claimed : Transition w) (busy : RotatingReadDomain w N) : Option (RotatingReadDomain w N) :=
  if (s.generations g).control = false then some ((s.setControl g true).goto claimed)
  else if op = .rotate ∨ op = .close then none
  else some busy

/-- The stages of a transition in their order in the source: `lock` and
`classify`, `begin` or `try_begin`, `wait` or `try_wait`, `run`. -/
def manage : Transition w → Option (RotatingReadDomain w N)
  | .locked op =>
    if op = .close then some ({ s with closed := true }.goto (.closeClaim false))
    else if s.closed then some (s.goto .unlock)
    else some (s.goto (.classify op))
  | .classify op =>
    match s.pending with
    | some old => some (s.goto (.claimPending op old (op == .rotate)))
    | none => some (s.goto (.barrier op s.current))
  | .barrier op old => some (s.goto (.claimReplacement op old))
  | .claimReplacement op old =>
    s.claim op (!old) (.replacement op old (.checkSealed 0)) (s.goto (.abandon op old))
  | .replacement op old proc =>
    some (s.advance (!old) (.replacement op old) (fun s' ok =>
        if ok then s'.goto (.claimOld op old)
        else s'.abort (if op = .rotate then .begin else .tryBegin))
      .begin (proc.step (s.generations (!old))))
  | .claimOld op old =>
    s.claim op old (if op = .idle then .idleSeal old (.load 0) else .sealOld op old .lock)
      ((s.setControl (!old) false).goto (.abandon op old))
  | .sealOld op old proc =>
    (proc.step (s.generations old)).map fun out =>
      s.advance old (.sealOld op old)
        (fun s' _ => (s'.setControl old false).goto (.setPending op old)) .begin out
  | .idleSeal old proc =>
    some (s.advance old (.idleSeal old) (fun s' ok =>
        if ok then (s'.setControl old false).goto (.setPending .idle old)
        else ((s'.setControl old false).setControl (!old) false).goto (.abandon .idle old))
      .undo (proc.step (s.generations old)))
  | .setPending op old => some ({ s with pending := some old }.goto (.publish op old))
  | .publish op old => some ({ s with current := !old }.goto (.reopen op old .lock))
  | .reopen op old proc =>
    (proc.step (s.generations (!old))).map fun out =>
      s.advance (!old) (.reopen op old)
        (fun s' ok =>
          if ok then (s'.setControl (!old) false).goto (.releaseBarrier op old)
          else s'.abort .reopen)
        .reopen out
  | .releaseBarrier op old => some (s.goto (.claimPending op old false))
  | .abandon _ _ => some (s.goto .unlock)
  | .claimPending op old again =>
    s.claim op old
      (if op = .rotate then .drainSeal old again .lock else .tryWait op old (.checkSealed 0))
      (s.goto .unlock)
  | .drainSeal old again proc =>
    (proc.step (s.generations old)).map fun out =>
      s.advance old (.drainSeal old again) (fun s' _ => s'.goto (.drainWait old again .lock))
        .begin out
  | .drainWait old again proc =>
    (proc.step (s.generations old)).map fun out =>
      s.advance old (.drainWait old again)
        (fun s' _ => (s'.setControl old false).goto (.callback .rotate old again)) .begin out
  | .tryWait op old proc =>
    some (s.advance old (.tryWait op old) (fun s' ok =>
        (s'.setControl old false).goto (if ok then .callback op old false else .unlock))
      .tryBegin (proc.step (s.generations old)))
  | .callback op old again => some (s.goto (.clear op old again))
  | .clear _ _ again =>
    some ({ s with pending := none }.goto
      (if again then .barrier .rotate s.current else .unlock))
  | .closeClaim g => s.claim .close g (.closeSeal g .lock) s
  | .closeSeal g proc =>
    (proc.step (s.generations g)).map fun out =>
      s.advance g (.closeSeal g) (fun s' _ => s'.goto (.closeWait g .lock)) .begin out
  | .closeWait g proc =>
    (proc.step (s.generations g)).map fun out =>
      s.advance g (.closeWait g)
        (fun s' _ =>
          let released := s'.setControl g false
          if g then { released with certified := true }.goto .unlock
          else released.goto (.closeClaim true))
        .begin out
  | .unlock => some { s with transition := none }

end

-- ---- The machine.

inductive Action (N : Nat) where
  /-- A call of `enter`. -/
  | enter (stripe : Fin N)
  /-- The next access of one reader. -/
  | reader (r : Nat)
  /-- An operation gets the transition lock. -/
  | lock (op : Operation)
  /-- The next access of the lock's holder. -/
  | manage
  /-- The barrier of `try_begin` cannot be had without waiting. -/
  | barrierBusy
  /-- The callback unwinds: the lock is released and pending stays. -/
  | panic
deriving DecidableEq

def step (s : RotatingReadDomain w N) (action : Action N) : Option (RotatingReadDomain w N) :=
  if s.aborted.isSome then none
  else match action with
  | .enter stripe => some { s with readers := s.readers ++ [.start stripe] }
  | .reader r => s.readerStep r
  | .lock op => if s.transition.isNone then some (s.goto (.locked op)) else none
  | .manage =>
    match s.transition with
    | some t => s.manage t
    | none => none
  | .barrierBusy =>
    match s.transition with
    | some (.barrier op _) => if op = .rotate then none else some (s.goto .unlock)
    | _ => none
  | .panic =>
    match s.transition with
    | some (.callback ..) => some (s.goto .unlock)
    | _ => none

end RotatingReadDomain

end Xlfn.Kernel
