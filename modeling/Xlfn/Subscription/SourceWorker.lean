import Mathlib.Data.List.Basic
import Xlfn.Lib.Machine
import Xlfn.Subscription.Multiplex

/-!
# Xlfn — the worker of a multiplexed source

`subscription/multiplex.rs` starts the one producer job of a source with its first subscription.
The job is taken out of the worker slot under its lock, goes through five owners while the lock is
held, and either comes back to the slot or ends in a thread; a shutdown takes what it finds in the
slot and destroys the job, or joins the thread.

One step below is what happens between two points where another call, or the thread, can see a
difference.

* A call holds the lock of the slot where `holder` names it; the registration, the budget and the
  start of the thread answer through the step's `Outcome`.
* The cell of a captured job is shared by its owners; who drops the last one drops what is in it.
* A thread may run before the call that starts it knows; where the start fails there is none, and
  it either fails or succeeds.
* `ran`, `destroyed` and `lost` are history: the jobs that were called, that a shutdown destroyed,
  and that an owner destroyed on its way.

`faulted` is set where an `expect` would fail.
-/

namespace Xlfn.Subscription

open Lib

namespace SourceWorker

-- ---- The slot, the cells and the threads.

/-- What `finish` returns. -/
inductive ShutdownResult where
  | ok
  | panic
deriving DecidableEq

def ShutdownResult.of (panicked : Bool) : ShutdownResult := if panicked then .panic else .ok

/-- `Worker`. A thread is named by its place in `threads`. -/
inductive Worker (P : Type) where
  | unstarted (producer : P)
  | running (handle : Nat)
  | joining
  | joined (result : ShutdownResult)
deriving DecidableEq

/-- The `Arc<Mutex<Option<P>>>` of a captured job, with the number of its owners. -/
structure Cell (P : Type) where
  content : Option P
  owners  : Nat
deriving DecidableEq

/-- The thread of a worker. -/
inductive Thread (P : Type) where
  | created (cell : Nat)
  | running (cell : Nat) (producer : P)
  | completing (cell : Nat)
  | exited (panicked : Bool)
deriving DecidableEq

-- ---- The owners of a start.

/-- `UnstartedWorker`; `worker` is whether it still has the slot. -/
structure UnstartedWorker (P : Type) where
  worker   : Bool
  producer : Option P
deriving DecidableEq

/-- `WorkerStart`. -/
structure WorkerStart where
  worker   : Bool
  producer : Option Nat
deriving DecidableEq

/-- `SpawningWorker`. -/
structure SpawningWorker where
  worker   : Bool
  producer : Option Nat
deriving DecidableEq

/-- `RunningWorker`; its permit is counted in `permits`. -/
structure RunningWorker where
  worker  : Bool
  running : Option Nat
deriving DecidableEq

/-- What a `start` returns; `native` is the failed start of the thread. -/
inductive StartResult where
  | ok
  | error (error : Multiplex.SourceError)
  | native
  | unwound
deriving DecidableEq

/-- A call of `start`. From `unstarted` to `stopping` it holds the lock of the slot. -/
inductive StartPc (P : Type) where
  | entered
  | warm
  | cold
  | unstarted (owner : UnstartedWorker P)
  | reserved (owner : UnstartedWorker P)
  | registered (owner : UnstartedWorker P)
  | captured (owner : WorkerStart)
  | spawning (owner : SpawningWorker) (run : Nat) (handle : Option Nat)
  | started (owner : RunningWorker)
  | installed
  | failed (restore : UnstartedWorker P)
  | stopping
  | returned (result : StartResult)
deriving DecidableEq

/-- `RetiringWorker`. -/
inductive RetiringWorker (P : Type) where
  | unstarted (producer : P)
  | running (handle : Nat)
deriving DecidableEq

/-- A call of `finish`. -/
inductive FinishPc (P : Type) where
  | entered
  | waiting
  | retiring (worker : RetiringWorker P)
  | finishing (result : ShutdownResult)
  | returned (result : ShutdownResult)
deriving DecidableEq

inductive CallPc (P : Type) where
  | start (pc : StartPc P)
  | finish (pc : FinishPc P)
deriving DecidableEq

-- ---- The source.

structure Source (P : Type) where
  slot      : Worker P
  holder    : Option Nat
  started   : Bool
  closed    : Bool
  cells     : List (Cell P)
  threads   : List (Thread P)
  calls     : List (CallPc P)
  permits   : Nat
  ran       : List P
  destroyed : List P
  lost      : List P
  faulted   : Bool

/-- What a fallible part of a step answers. -/
inductive Outcome where
  | ok
  | error (error : Multiplex.SourceError)
  | unwind
deriving DecidableEq

inductive Action where
  | subscribe
  | shutdown
  | requestStop
  | start (call : Nat) (outcome : Outcome)
  | finish (call : Nat) (panicked : Bool)
  | thread (handle : Nat) (panicked : Bool)
deriving DecidableEq

namespace Source

variable {P : Type}

def new (producer : P) : Source P where
  slot      := .unstarted producer
  holder    := none
  started   := false
  closed    := false
  cells     := []
  threads   := []
  calls     := []
  permits   := 0
  ran       := []
  destroyed := []
  lost      := []
  faulted   := false

section

variable (s : Source P)

/-- An `expect` fails. -/
def fault : Source P := { s with faulted := true }

def goto (call : Nat) (pc : CallPc P) : Source P :=
  { s with calls := s.calls.set call pc }

/-- A start that has the lock returns. -/
def leave (call : Nat) (result : StartResult) : Source P :=
  { s.goto call (.start (.returned result)) with holder := none }

/-- `Arc::clone`. -/
def retain (cell : Nat) : Source P :=
  { s with cells := s.cells.modify cell fun cell => { cell with owners := cell.owners + 1 } }

/-- The drop of an `Arc`. -/
def release (cell : Nat) : Source P :=
  match s.cells[cell]? with
  | none => s
  | some ⟨content, owners⟩ =>
    if owners = 1 then
      { s with cells := s.cells.set cell ⟨none, 0⟩, lost := s.lost ++ content.toList }
    else { s with cells := s.cells.set cell ⟨content, owners - 1⟩ }

/-- `lock().take()`. -/
def takeCell (cell : Nat) : Option P × Source P :=
  ((s.cells[cell]?).bind Cell.content,
    { s with cells := s.cells.modify cell fun cell => { cell with content := none } })

/-- `UnstartedWorker::drop`. -/
def dropUnstarted (owner : UnstartedWorker P) : Source P :=
  if owner.worker then
    match owner.producer with
    | some producer => { s with slot := .unstarted producer }
    | none => s.fault
  else { s with lost := s.lost ++ owner.producer.toList }

/-- `WorkerStart::drop`. -/
def dropStart (owner : WorkerStart) : Source P :=
  if owner.worker then
    match owner.producer with
    | none => s.fault
    | some cell =>
      match s.takeCell cell with
      | (some producer, s) => ({ s with slot := .unstarted producer }).release cell
      | (none, s) => s.fault
  else
    match owner.producer with
    | none => s
    | some cell => s.release cell

/-- `capture`. -/
def capture (call : Nat) (owner : UnstartedWorker P) : Source P :=
  match owner.producer with
  | none => s.fault
  | some producer =>
    ({ s with cells := s.cells ++ [Cell.mk (some producer) 1] }).goto call
      (.start (.captured ⟨owner.worker, some s.cells.length⟩))

/-- The first part of `spawn`: the closure shares the cell. -/
def spawn (call : Nat) (owner : WorkerStart) : Source P :=
  match owner.producer with
  | none => s.fault
  | some cell => (s.retain cell).goto call (.start (.spawning ⟨owner.worker, some cell⟩ cell none))

/-- The failed `Builder::spawn`: the closure is gone, and its job comes back. -/
def spawnFailed (call : Nat) (owner : SpawningWorker) (run : Nat) : Source P :=
  let s := { s.release run with permits := s.permits - 1 }
  match owner.producer with
  | none => s.fault
  | some cell =>
    match s.takeCell cell with
    | (some producer, s) =>
      (s.release cell).goto call (.start (.failed ⟨owner.worker, some producer⟩))
    | (none, s) => s.fault

/-- The `Builder::spawn` that succeeded. -/
def spawned (call : Nat) (owner : SpawningWorker) (handle : Nat) : Source P :=
  (match owner.producer with
    | none => s
    | some cell => s.release cell).goto call (.start (.started ⟨owner.worker, some handle⟩))

/-- `RunningWorker::install` and `RunningWorker::drop`. -/
def install (owner : RunningWorker) : Source P :=
  match owner.running, owner.worker with
  | some handle, true => { s with slot := .running handle }
  | _, _ => s.fault

/-- The answer of `Shared::register`. -/
def register (outcome : Outcome) : StartResult :=
  if s.closed then .error .closing
  else
    match outcome with
    | .ok => .ok
    | .error error => .error error
    | .unwind => .unwound

/-- `start`, up to the next point. -/
def stepStart (call : Nat) (outcome : Outcome) : StartPc P → Option (Source P)
  | .entered => some (s.goto call (.start (if s.started then .warm else .cold)))
  | .warm => some (s.goto call (.start (.returned (s.register outcome))))
  | .cold =>
    if s.holder ≠ none then none
    else if s.closed then some (s.goto call (.start (.returned (.error .closing))))
    else
      match s.slot with
      | .unstarted producer =>
        some (({ s with slot := .joining, holder := some call }).goto call
          (.start (.unstarted ⟨true, some producer⟩)))
      | .running _ => some (s.goto call (.start (.returned (s.register outcome))))
      | .joining | .joined _ => some (s.goto call (.start (.returned (.error .closing))))
  | .unstarted owner =>
    match outcome with
    | .ok => some ({ s with permits := s.permits + 1 }.goto call (.start (.reserved owner)))
    | .error _ => some ((s.dropUnstarted owner).leave call (.error .overloaded))
    | .unwind => none
  | .reserved owner =>
    match s.register outcome with
    | .ok => some (s.goto call (.start (.registered owner)))
    | result =>
      some (({ s with permits := s.permits - 1 }.dropUnstarted owner).leave call result)
  | .registered owner => some (s.capture call owner)
  | .captured owner =>
    match outcome with
    | .ok => some (s.spawn call owner)
    | .unwind => some (({ s with permits := s.permits - 1 }.dropStart owner).leave call .unwound)
    | .error _ => none
  | .spawning owner run none =>
    match outcome with
    | .ok =>
      some (({ s with threads := s.threads ++ [Thread.created run] }).goto call
        (.start (.spawning owner run (some s.threads.length))))
    | .error _ => some (s.spawnFailed call owner run)
    | .unwind => none
  | .spawning owner _ (some handle) => some (s.spawned call owner handle)
  | .started owner =>
    match outcome with
    | .ok => some ((s.install owner).goto call (.start .installed))
    | .unwind => some ((s.install owner).leave call .unwound)
    | .error _ => none
  | .installed => some ({ s with started := true }.leave call .ok)
  | .failed restore => some ((s.dropUnstarted restore).goto call (.start .stopping))
  | .stopping => some ({ s with closed := true }.leave call .native)
  | .returned _ => none

/-- `WorkerOwner::finish`, up to the next point. A join waits for the thread. -/
def stepFinish (call : Nat) (panicked : Bool) : FinishPc P → Option (Source P)
  | .entered => some ({ s with closed := true }.goto call (.finish .waiting))
  | .waiting =>
    if s.holder ≠ none then none
    else
      match s.slot with
      | .joining => none
      | .joined result => some (s.goto call (.finish (.returned result)))
      | .unstarted producer =>
        some ({ s with slot := .joining }.goto call (.finish (.retiring (.unstarted producer))))
      | .running handle =>
        some ({ s with slot := .joining }.goto call (.finish (.retiring (.running handle))))
  | .retiring (.unstarted producer) =>
    some ({ s with destroyed := s.destroyed ++ [producer] }.goto call
      (.finish (.finishing (.of panicked))))
  | .retiring (.running handle) =>
    match s.threads[handle]? with
    | some (.exited panicked) =>
      some ({ s with permits := s.permits - 1 }.goto call (.finish (.finishing (.of panicked))))
    | _ => none
  | .finishing result =>
    if s.holder ≠ none then none
    else some ({ s with slot := .joined result }.goto call (.finish (.returned result)))
  | .returned _ => none

/-- The closure of the thread: it takes the job, calls it, and completes the source. -/
def stepThread (handle : Nat) (panicked : Bool) : Thread P → Option (Source P)
  | .created cell =>
    match s.takeCell cell with
    | (some producer, s) =>
      some { s with
        threads := s.threads.set handle (.running cell producer)
        ran     := s.ran ++ [producer] }
    | (none, s) => some s.fault
  | .running cell _ =>
    some { s with threads := s.threads.set handle (.completing cell), closed := true }
  | .completing cell =>
    some ({ s with threads := s.threads.set handle (.exited panicked) }.release cell)
  | .exited _ => none

/-- One step of the source. -/
def step (action : Action) : Option (Source P) :=
  if s.faulted then none
  else
    match action with
    | .subscribe => some { s with calls := s.calls ++ [.start .entered] }
    | .shutdown => some { s with calls := s.calls ++ [.finish .entered] }
    | .requestStop => some { s with closed := true }
    | .start call outcome =>
      match s.calls[call]? with
      | some (.start pc) => s.stepStart call outcome pc
      | _ => none
    | .finish call panicked =>
      match s.calls[call]? with
      | some (.finish pc) => s.stepFinish call panicked pc
      | _ => none
    | .thread handle panicked =>
      (s.threads[handle]?).bind (s.stepThread handle panicked)

end

end Source

end SourceWorker

end Xlfn.Subscription
