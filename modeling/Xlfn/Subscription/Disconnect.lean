import Xlfn.Lib.Machine
import Xlfn.Lib.Table
import Xlfn.Kernel.Quota

/-!
# Xlfn — the deferred disconnect pool

`subscription/disconnect.rs` keeps one worker per generation that finishes
disconnections away from the apartment that asked for them. A connection reserves its
share of the worker's queue before its source starts; the reservation moves into the
job it later commits, and is released when the job is finished or when it is dropped
uncommitted.

This module is the machine of a `DisconnectPool`: one step is one access of a call, of
the worker or of `stop` to what they share. Critical sections of the `ready` and of the
`worker` mutex are one step each.

* `try_reserve` answers through an input: it fails, or gives the queue some capacity
  that is at least what was asked for.
* Starting the worker answers through an input, too.
* `stop` runs after the runtime has drained the admissions under which subscriptions
  are committed, so no commit begins once it has told the worker to stop; nothing else
  is held back. Preparing the join may fail, which gives the worker back.
* A job is named by the place of its reservation. `committed` and `finished` are
  history.

`underflow`, `grew` and `aborted` are set where a subtraction would wrap, where a
commit finds the queue's storage full, and by `fail_stop`.
-/

namespace Xlfn.Subscription

open Lib Kernel

namespace Disconnect

-- ---- The queue and its worker.

inductive DisconnectError where
  | overloaded
  | closing
  | native
deriving DecidableEq

/-- `DisconnectWorker`. -/
inductive DisconnectWorker where
  | dormant
  | running
  | stopped
deriving DecidableEq

/-- `DisconnectQueue`. `jobsCapacity` is the capacity of the job queue's storage. -/
structure DisconnectQueue where
  jobs            : List Nat
  jobsCapacity    : Nat
  stopping        : Bool
  outstanding     : Nat
  storageCapacity : Nat
  closed          : Bool
deriving DecidableEq

def DisconnectQueue.new : DisconnectQueue where
  jobs            := []
  jobsCapacity    := 0
  stopping        := false
  outstanding     := 0
  storageCapacity := 0
  closed          := false

/-- Where the thread of `DisconnectQueue::run` stands. `releasing` has finished its job
and still holds the job's reservation. -/
inductive WorkerPc where
  | absent
  | checking
  | parked
  | finishing (job : Nat)
  | releasing (job : Nat)
  | exited
deriving DecidableEq

/-- `notify_one` and `notify_all`: there is one waiter at most. -/
def WorkerPc.notified : WorkerPc → WorkerPc
  | .parked => .checking
  | pc => pc

/-- Where a call of `reserve` stands, and what became of its reservation. -/
inductive ReservePc where
  | start
  | initializing
  | checkClosed
  | quota
  | recheck (required : Nat)
  | storage (required : Nat)
  | growing (required : Nat)
  | failing (required : Nat) (error : DisconnectError)
  | held (required : Nat)
  | committed (required : Nat)
  | refused (error : DisconnectError)
  | released
deriving DecidableEq

/-- The quota a reservation was granted, while it exists. -/
def ReservePc.required : ReservePc → Option Nat
  | .recheck required | .storage required | .growing required | .failing required _
  | .held required | .committed required => some required
  | _ => none

/-- Where a call of `stop` stands. -/
inductive StopPc where
  | idle
  | claimed
  | closed
  | notifying
  | joining
  | joined
deriving DecidableEq

/-- `DisconnectPool`, its calls and its worker. `notifies` counts the commits between
their push and their `notify_one`. -/
structure DisconnectPool where
  capacity     : Nat
  worker       : DisconnectWorker
  published    : Bool
  queue        : DisconnectQueue
  thread       : WorkerPc
  reservations : List ReservePc
  notifies     : Nat
  stop         : StopPc
  underflow    : Bool
  grew         : Bool
  aborted      : Bool
  committed    : List Nat
  finished     : List Nat

namespace DisconnectPool

def new (capacity : Nat) : DisconnectPool where
  capacity     := capacity
  worker       := .dormant
  published    := false
  queue        := .new
  thread       := .absent
  reservations := []
  notifies     := 0
  stop         := .idle
  underflow    := false
  grew         := false
  aborted      := false
  committed    := []
  finished     := []

/-- What the environment answers to a step of `reserve`: whether the worker started,
and the capacity after `try_reserve`, if that succeeds. -/
structure Input where
  started : Bool
  grown   : Option Nat

inductive Action where
  | reserve
  | proceed (call : Nat) (input : Input)
  | drop (call : Nat)
  | commit (call : Nat)
  | notify
  | wake
  | work
  | stop
  | stopStep (prepared : Bool)

section

variable (p : DisconnectPool)

def goto (call : Nat) (pc : ReservePc) : DisconnectPool :=
  { p with reservations := p.reservations.set call pc }

/-- `DisconnectReservation::drop`. -/
def release : DisconnectPool :=
  match checkedAtomicDec p.queue.outstanding with
  | none => { p with aborted := true }
  | some outstanding => { p with queue := { p.queue with outstanding } }

/-- `DisconnectPool::initialize`, under the `worker` mutex. -/
def initializeWorker (call : Nat) (started : Bool) : DisconnectPool :=
  match p.worker with
  | .dormant =>
    if started then
      { p with
        published := true
        worker    := .running
        thread    := .checking
        reservations := p.reservations.set call .checkClosed }
    else
      p.goto call (.refused .native)
  | .running => p.goto call .checkClosed
  | .stopped => p.goto call (.refused .closing)

/-- The growth of the job queue, under the `ready` mutex. -/
def grow (call required : Nat) (grown : Option Nat) : Option DisconnectPool :=
  if p.queue.jobsCapacity < required then
    if required < p.queue.jobs.length then
      some { p with underflow := true }
    else
      let additional := required - p.queue.jobs.length
      match grown with
      | none => some (p.goto call (.failing required .overloaded))
      | some capacity =>
        if p.queue.jobs.length + additional ≤ capacity then
          some { p with
            queue        := { p.queue with jobsCapacity := capacity, storageCapacity := capacity }
            reservations := p.reservations.set call (.held required) }
        else
          none
  else
    some (p.goto call (.held required))

/-- The next step of a call of `reserve`. -/
def proceed (call : Nat) (input : Input) : Option DisconnectPool := do
  let pc ← p.reservations[call]?
  match pc with
  | .start =>
    if p.capacity = 0 then some (p.goto call (.refused .overloaded))
    else if p.published then some (p.goto call .checkClosed)
    else some (p.goto call .initializing)
  | .initializing => some (p.initializeWorker call input.started)
  | .checkClosed =>
    if p.queue.closed then some (p.goto call (.refused .closing)) else some (p.goto call .quota)
  | .quota =>
    if p.queue.outstanding < p.capacity then
      some { p with
        queue        := { p.queue with outstanding := p.queue.outstanding + 1 }
        reservations := p.reservations.set call (.recheck (p.queue.outstanding + 1)) }
    else
      some (p.goto call (.refused .overloaded))
  | .recheck required =>
    if p.queue.closed then some (p.goto call (.failing required .closing))
    else some (p.goto call (.storage required))
  | .storage required =>
    if p.queue.storageCapacity < required then some (p.goto call (.growing required))
    else some (p.goto call (.held required))
  | .growing required => p.grow call required input.grown
  | .failing _ error => some (p.release.goto call (.refused error))
  | .held _ | .committed _ | .refused _ | .released => none

/-- A reservation that is not committed is dropped. -/
def drop (call : Nat) : Option DisconnectPool :=
  match p.reservations[call]? with
  | some (.held _) => some (p.release.goto call .released)
  | _ => none

/-- `DisconnectReservation::commit` up to the end of its critical section. A queue
without room would have to grow. -/
def commit (call : Nat) : Option DisconnectPool :=
  match p.reservations[call]?, p.queue.stopping with
  | some (.held required), false =>
    some { p with
      queue        := { p.queue with jobs := p.queue.jobs ++ [call] }
      grew         := p.grew || p.queue.jobsCapacity ≤ p.queue.jobs.length
      reservations := p.reservations.set call (.committed required)
      notifies     := p.notifies + 1
      committed    := p.committed ++ [call] }
  | _, _ => none

/-- One step of `DisconnectQueue::run`. -/
def work : Option DisconnectPool :=
  match p.thread with
  | .checking =>
    match p.queue.jobs with
    | job :: jobs =>
      some { p with queue := { p.queue with jobs }, thread := .finishing job }
    | [] =>
      if p.queue.stopping then some { p with thread := .exited }
      else some { p with thread := .parked }
  | .finishing job => some { p with thread := .releasing job, finished := p.finished ++ [job] }
  | .releasing job => some { (p.release.goto job .released) with thread := .checking }
  | .absent | .parked | .exited => none

/-- `DisconnectPool::stop` up to the end of its first critical section. -/
def beginStop : Option DisconnectPool :=
  match p.stop, p.worker with
  | .idle, .running => some { p with worker := .stopped, stop := .claimed }
  | .idle, _ => some { p with worker := .stopped, stop := .joined }
  | _, _ => none

/-- The next step of `stop`; `prepared` tells whether the join could be prepared. -/
def stopStep (prepared : Bool) : Option DisconnectPool :=
  match p.stop with
  | .claimed =>
    if prepared then some { p with queue := { p.queue with closed := true }, stop := .closed }
    else some { p with worker := .running, stop := .idle }
  | .closed => some { p with queue := { p.queue with stopping := true }, stop := .notifying }
  | .notifying => some { p with thread := WorkerPc.notified p.thread, stop := .joining }
  | .joining => if p.thread = .exited then some { p with stop := .joined } else none
  | .idle | .joined => none

/-- One step of the system. -/
def step (action : Action) : Option DisconnectPool :=
  if p.aborted || p.underflow then
    none
  else
    match action with
    | .reserve => some { p with reservations := p.reservations ++ [.start] }
    | .proceed call input => p.proceed call input
    | .drop call => p.drop call
    | .commit call => p.commit call
    | .notify =>
      if 0 < p.notifies then
        some { p with thread := WorkerPc.notified p.thread, notifies := p.notifies - 1 }
      else
        none
    | .wake => if p.thread = .parked then some { p with thread := .checking } else none
    | .work => p.work
    | .stop => p.beginStop
    | .stopStep prepared => p.stopStep prepared

end

end DisconnectPool

end Disconnect

end Xlfn.Subscription
