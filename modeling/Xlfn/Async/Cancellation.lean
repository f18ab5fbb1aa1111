import Mathlib.Logic.Function.Basic
import Xlfn.Lib.Machine
import Xlfn.Lib.Table
import Xlfn.Kernel.Quota

/-!
# Xlfn — cancellation scopes

`cancellation.rs` keeps the cancellation scopes of tasks in slots that are never freed
and are used again, one generation after the other. A source owns one generation of one
slot; tokens, waiters and the registration of its task are copies of that pair and
outlive it.

A slot's generation, its flag and its delivery state are read without a lock and written
under the slot's waiter lock. A step is one load, one store, or a section under the lock
that makes one access to what is read without it; a section that makes several stores
keeps the lock over several steps (`Section`).

* A slot is named by its id, which packs its shard and its place in the shard. The shard
  lock makes a shard's free list a matter of single steps.
* A waker is known by its identity, the data pointer and vtable that `will_wake` compares.
  A clone may have any identity, which is an input.
* Wakers are cloned, dropped and woken outside of the lock, between two steps of the call
  that does so. Whatever they call back into is a call of its own in between.
* `StoredWaker.clonedFrom` and `owner`, the flags `begun`, `ended`, `starts` and
  `lateStart` of a source, `Read.late`, and `woken` are not in the source. A source has
  begun to end when a `cancel` or its drop is past its check of the generation, and has
  ended when that section is over; a read is late when it began after that.
-/

namespace Xlfn.Async

open Lib Kernel

namespace Cancellation

-- ---- Slots.

/-- `STATE_RUNNING` to `STATE_DONE`. -/
inductive DeliveryState where
  | running
  | canceled
  | delivering
  | done
deriving DecidableEq

/-- Who registered a waker: a `Cancelled` future or the registration of a task. -/
inductive Owner where
  | waiter (place : Nat)
  | task (place : Nat)
deriving DecidableEq

structure StoredWaker where
  identity   : Nat
  clonedFrom : Nat
  owner      : Owner
deriving DecidableEq

structure SlotWaiters where
  generation : Nat
  nextId     : Nat
  entries    : Table Nat StoredWaker
  taskWaker  : Option StoredWaker

/-- A section that holds the waiter lock over several stores, with its source: the reuse
of a slot before its second and third store, and `cancel_locked` between the two. -/
inductive Section where
  | resetCancelled (source : Nat)
  | resetDelivery (source : Nat)
  | cancelling (source : Nat)
  | releasing (source : Nat)
deriving DecidableEq

structure CancellationSlot where
  generation : Nat
  cancelled  : Bool
  delivery   : DeliveryState
  waiters    : SlotWaiters
  lock       : Option Section

namespace CancellationSlot

def new : CancellationSlot where
  generation := 1
  cancelled  := false
  delivery   := .running
  waiters    := ⟨1, 1, ∅, none⟩
  lock       := none

section

variable (slot : CancellationSlot)

/-- The section of `allocate` that reuses a slot, up to its first store. -/
def reuse (source : Nat) : CancellationSlot :=
  { slot with
    generation := slot.waiters.generation + 1
    waiters    := { slot.waiters with generation := slot.waiters.generation + 1, nextId := 1 }
    lock       := some (.resetCancelled source) }

/-- The first store of `cancel_locked`. -/
def beginCancel (s : Section) : CancellationSlot :=
  { slot with
    delivery := if slot.delivery = .running then .canceled else slot.delivery
    lock     := some s }

/-- The rest of `cancel_locked`. -/
def finishCancel : CancellationSlot :=
  { slot with
    cancelled := true
    waiters   := { slot.waiters with entries := ∅, taskWaker := none }
    lock      := none }

/-- The wakers `cancel_locked` takes, in the order in which they are woken. -/
def detached : List StoredWaker :=
  slot.waiters.entries.entries.map (fun entry => entry.2) ++ slot.waiters.taskWaker.toList

/-- `is_cancelled` under the waiter lock. A registration does not look at the delivery
state. -/
def isCancelled (generation : Nat) (task : Bool) : Bool :=
  slot.generation ≠ generation || slot.cancelled || (!task && slot.delivery = .canceled)

end

end CancellationSlot

/-- Where a call of `is_cancelled` stands. -/
inductive ReadPc where
  | generation
  | cancelled
  | delivery
  | again
  | done (result : Bool)
deriving DecidableEq

structure Read where
  late : Bool
  pc   : ReadPc
deriving DecidableEq

/-- The next load of `is_cancelled`. -/
def CancellationSlot.load (slot : CancellationSlot) (generation : Nat) (task : Bool) :
    ReadPc → ReadPc
  | .generation => if slot.generation ≠ generation then .done true else .cancelled
  | .cancelled => if slot.cancelled then .done true else if task then .again else .delivery
  | .delivery => if slot.delivery = .canceled then .done true else .again
  | .again => .done (slot.generation ≠ generation)
  | .done result => .done result

-- ---- Who uses them.

inductive SourcePc where
  | allocating
  | live
  | dropped
deriving DecidableEq

/-- `CancellationSource`. `claimed` tells whether the registration of its task was
issued. -/
structure Source where
  slot       : Nat
  generation : Nat
  pc         : SourcePc
  claimed    : Bool
  begun      : Bool
  ended      : Bool
  starts     : Nat
  lateStart  : Bool
deriving DecidableEq

/-- What the last poll returned, with the waker it was given. -/
inductive Outcome where
  | unpolled
  | pending (waker : Nat)
  | ready
deriving DecidableEq

inductive WaiterPc where
  | idle
  | reading (waker : Nat) (read : Read)
  | unregistering (id : Nat) (dropping : Bool)
  | cloning (waker : Nat)
  | locking (waker clone : Nat)
  | returning (outcome : Outcome)
  | gone
deriving DecidableEq

/-- `Cancelled`. -/
structure Waiter where
  source     : Nat
  waiterId   : Option Nat
  registered : Option Nat
  pc         : WaiterPc
  outcome    : Outcome
deriving DecidableEq

inductive TaskPc where
  | idle
  | reading (waker : Nat) (read : Read)
  | locking (waker : Nat)
  | cloning (waker : Nat)
  | relocking (waker clone : Nat)
  | rechecking (waker : Nat) (read : Read)
  | gone
deriving DecidableEq

/-- `TaskCancellationRegistration`. -/
structure Registration where
  source     : Nat
  registered : Option Nat
  pc         : TaskPc
  outcome    : Outcome
deriving DecidableEq

/-- A call of `is_cancelled` on a token. -/
structure TokenRead where
  source : Nat
  read   : Read
deriving DecidableEq

structure CancellationRegistry where
  slots         : Nat → Option CancellationSlot
  lengths       : Nat → Nat
  free          : Nat → List Nat
  sources       : List Source
  reads         : List TokenRead
  waiters       : List Waiter
  registrations : List Registration
  wakes         : List (List StoredWaker)
  woken         : List StoredWaker

/-- `CANCELLATION_SHARDS`. -/
def shards : Nat := 32

/-- `slot_id`: the shard is in the low bits. -/
def slotId (shard index : Nat) : Nat := index * shards + shard

/-- `u32::MAX >> CANCELLATION_SHARD_BITS`. -/
def maxIndex : Nat := 0xFFFFFFFF / shards

namespace CancellationRegistry

def new : CancellationRegistry where
  slots         := fun _ => none
  lengths       := fun _ => 0
  free          := fun _ => []
  sources       := []
  reads         := []
  waiters       := []
  registrations := []
  wakes         := []
  woken         := []

inductive Action where
  | allocate (shard : Nat)
  | cancel (source : Nat)
  | drop (source : Nat)
  /-- The section that holds the lock of a slot makes its next store. -/
  | advance (slot : Nat)
  /-- A call that detached wakers wakes the next of them. -/
  | wake (call : Nat)
  | read (source : Nat)
  | load (call : Nat)
  | tryStartDelivery (source : Nat)
  | finishDelivery (source : Nat)
  | watch (source : Nat)
  | poll (waiter waker : Nat)
  | pollStep (waiter clone : Nat)
  | dropWaiter (waiter : Nat)
  | claim (source : Nat)
  | pollTask (registration waker : Nat)
  | taskStep (registration clone : Nat)
  | dropTask (registration : Nat)

section

variable (r : CancellationRegistry)

def setSlot (id : Nat) (slot : CancellationSlot) : CancellationRegistry :=
  { r with slots := Function.update r.slots id (some slot) }

def setSource (source : Nat) (src : Source) : CancellationRegistry :=
  { r with sources := r.sources.set source src }

def setWaiter (waiter : Nat) (w : Waiter) : CancellationRegistry :=
  { r with waiters := r.waiters.set waiter w }

def setRegistration (registration : Nat) (t : Registration) : CancellationRegistry :=
  { r with registrations := r.registrations.set registration t }

/-- `allocate_in_shard`, up to the first store where a slot is reused. -/
def allocate (shard : Nat) : Option CancellationRegistry :=
  match r.free shard with
  | index :: free => do
    let slot ← r.slots (slotId shard index)
    guard (slot.lock = none ∧ slot.waiters.generation + 1 ≤ u64Max)
    some { (r.setSlot (slotId shard index) (slot.reuse r.sources.length)) with
      free    := Function.update r.free shard free
      sources := r.sources ++
        [⟨slotId shard index, slot.waiters.generation + 1, .allocating, false, false, false, 0,
          false⟩] }
  | [] =>
    if r.lengths shard ≤ maxIndex then
      some { (r.setSlot (slotId shard (r.lengths shard)) .new) with
        lengths := Function.update r.lengths shard (r.lengths shard + 1)
        sources := r.sources ++
          [⟨slotId shard (r.lengths shard), 1, .live, false, false, false, 0, false⟩] }
    else
      none

/-- `cancel` and `release` up to the first store of `cancel_locked`. -/
def beginEnd (source : Nat) (src : Source) (s : Section)
    (pc : SourcePc) : Option CancellationRegistry := do
  let slot ← r.slots src.slot
  guard (slot.lock = none)
  if slot.waiters.generation ≠ src.generation then
    some (r.setSource source { src with pc })
  else
    some ((r.setSlot src.slot (slot.beginCancel s)).setSource source { src with pc, begun := true })

/-- `cancel` and `release` after the first store of `cancel_locked`. -/
def finishEnd (id : Nat) (slot : CancellationSlot) (source : Nat)
    (src : Source) : CancellationRegistry :=
  { ((r.setSlot id slot.finishCancel).setSource source { src with ended := true }) with
    wakes := r.wakes ++ [slot.detached] }

/-- The next store of the section that holds a slot's lock. -/
def advance (id : Nat) : Option CancellationRegistry := do
  let slot ← r.slots id
  match slot.lock with
  | none => none
  | some (.resetCancelled source) =>
    some (r.setSlot id { slot with cancelled := false, lock := some (.resetDelivery source) })
  | some (.resetDelivery source) =>
    let src ← r.sources[source]?
    some ((r.setSlot id { slot with delivery := .running, lock := none }).setSource source
      { src with pc := .live })
  | some (.cancelling source) =>
    let src ← r.sources[source]?
    some (r.finishEnd id slot source src)
  | some (.releasing source) =>
    let src ← r.sources[source]?
    -- A slot whose generations are used up is not used again.
    let r := r.finishEnd id slot source src
    if src.generation ≠ u64Max then
      some { r with
        free := Function.update r.free (id % shards) (id / shards :: r.free (id % shards)) }
    else
      some r

/-- `DetachedWaiters::wake` wakes its next waker. -/
def wake (call : Nat) : Option CancellationRegistry := do
  let wakers ← r.wakes[call]?
  match wakers with
  | [] => none
  | waker :: rest => some { r with wakes := r.wakes.set call rest, woken := r.woken ++ [waker] }

/-- `try_start_delivery`. -/
def tryStartDelivery (source : Nat) : Option CancellationRegistry := do
  let src ← r.sources[source]?
  let slot ← r.slots src.slot
  guard (src.pc ≠ .allocating ∧ slot.lock = none)
  if slot.waiters.generation = src.generation ∧ slot.delivery = .running then
    some ((r.setSlot src.slot { slot with delivery := .delivering }).setSource source
      { src with starts := src.starts + 1, lateStart := src.lateStart || src.begun })
  else
    some r

/-- `finish_delivery`. -/
def finishDelivery (source : Nat) : Option CancellationRegistry := do
  let src ← r.sources[source]?
  let slot ← r.slots src.slot
  guard (src.pc ≠ .allocating ∧ slot.lock = none)
  if slot.waiters.generation = src.generation ∧ slot.delivery = .delivering then
    some (r.setSlot src.slot { slot with delivery := .done })
  else
    some r

/-- The section of `Cancelled::poll`. -/
def lockWaiter (waiter : Nat) (w : Waiter) (src : Source)
    (slot : CancellationSlot) (waker clone : Nat) : Option CancellationRegistry :=
  if slot.waiters.generation ≠ src.generation then
    some (r.setWaiter waiter
      { w with waiterId := none, registered := none, pc := .returning .ready })
  else if slot.isCancelled src.generation false then
    let entries := match w.waiterId with
      | some id => slot.waiters.entries.erase id
      | none => slot.waiters.entries
    some ((r.setSlot src.slot
      { slot with waiters := { slot.waiters with entries } }).setWaiter waiter
        { w with waiterId := none, registered := none, pc := .returning .ready })
  else do
    guard (w.waiterId.isSome ∨ slot.waiters.nextId + 1 ≤ u64Max)
    let id := w.waiterId.getD slot.waiters.nextId
    let nextId := if w.waiterId.isSome then slot.waiters.nextId else slot.waiters.nextId + 1
    if ((slot.waiters.entries.lookup id).any fun stored => stored.identity = waker) = true then
      some ((r.setSlot src.slot
        { slot with waiters := { slot.waiters with nextId } }).setWaiter waiter
          { w with
            waiterId   := some id
            registered := (slot.waiters.entries.lookup id).map StoredWaker.identity
            pc         := .returning (.pending waker) })
    else
      some ((r.setSlot src.slot
        { slot with
          waiters := { slot.waiters with
            nextId
            entries := slot.waiters.entries.insert id ⟨clone, waker, .waiter waiter⟩ } }).setWaiter
          waiter
          { w with
            waiterId   := some id
            registered := some clone
            pc         := .returning (.pending waker) })

/-- `unregister` after it has taken the waiter id. -/
def unregister (src : Source) (slot : CancellationSlot) (id : Nat) : CancellationRegistry :=
  if slot.waiters.generation = src.generation then
    r.setSlot src.slot
      { slot with waiters := { slot.waiters with entries := slot.waiters.entries.erase id } }
  else
    r

/-- The next step of a `Cancelled` future. -/
def pollStep (waiter clone : Nat) : Option CancellationRegistry := do
  let w ← r.waiters[waiter]?
  let src ← r.sources[w.source]?
  let slot ← r.slots src.slot
  match w.pc with
  | .reading waker read =>
    match read.pc with
    | .done true =>
      match w.waiterId with
      | some id =>
        some (r.setWaiter waiter
          { w with waiterId := none, registered := none, pc := .unregistering id false })
      | none =>
        some (r.setWaiter waiter { w with registered := none, pc := .returning .ready })
    | .done false =>
      if w.registered = some waker then
        some (r.setWaiter waiter { w with pc := .returning (.pending waker) })
      else
        some (r.setWaiter waiter { w with pc := .cloning waker })
    | pc =>
      some (r.setWaiter waiter
        { w with pc := .reading waker { read with pc := slot.load src.generation false pc } })
  | .unregistering id dropping => do
    guard (slot.lock = none)
    some ((r.unregister src slot id).setWaiter waiter
      { w with pc := if dropping then .gone else .returning .ready })
  | .cloning waker => some (r.setWaiter waiter { w with pc := .locking waker clone })
  | .locking waker clone => do
    guard (slot.lock = none)
    r.lockWaiter waiter w src slot waker clone
  | .returning outcome => some (r.setWaiter waiter { w with pc := .idle, outcome })
  | .idle | .gone => none

/-- The first section of `poll_before_register`. -/
def lockTask (registration : Nat) (t : Registration) (src : Source)
    (slot : CancellationSlot) (waker : Nat) : CancellationRegistry :=
  if slot.waiters.generation ≠ src.generation ∨ slot.isCancelled src.generation true then
    r.setRegistration registration { t with registered := none, pc := .idle, outcome := .ready }
  else if (slot.waiters.taskWaker.any fun stored => stored.identity = waker) = true then
    r.setRegistration registration
      { t with
        registered := slot.waiters.taskWaker.map StoredWaker.identity
        pc         := .idle
        outcome    := .pending waker }
  else
    r.setRegistration registration { t with pc := .cloning waker }

/-- The second section of `poll_before_register`. -/
def relockTask (registration : Nat) (t : Registration) (src : Source)
    (slot : CancellationSlot) (waker clone : Nat) : CancellationRegistry :=
  if slot.waiters.generation ≠ src.generation ∨ slot.isCancelled src.generation true then
    r.setRegistration registration
      { t with registered := none, pc := .rechecking waker ⟨src.ended, .generation⟩ }
  else
    (r.setSlot src.slot
      { slot with
        waiters := { slot.waiters with
          taskWaker := some ⟨clone, waker, .task registration⟩ } }).setRegistration registration
      { t with registered := some clone, pc := .rechecking waker ⟨src.ended, .generation⟩ }

/-- The next step of the registration of a task. -/
def taskStep (registration clone : Nat) : Option CancellationRegistry := do
  let t ← r.registrations[registration]?
  let src ← r.sources[t.source]?
  let slot ← r.slots src.slot
  match t.pc with
  | .reading waker read =>
    match read.pc with
    | .done true =>
      some (r.setRegistration registration
        { t with registered := none, pc := .idle, outcome := .ready })
    | .done false =>
      if t.registered = some waker then
        some (r.setRegistration registration { t with pc := .idle, outcome := .pending waker })
      else
        some (r.setRegistration registration { t with pc := .locking waker })
    | pc =>
      some (r.setRegistration registration
        { t with pc := .reading waker { read with pc := slot.load src.generation true pc } })
  | .locking waker => do
    guard (slot.lock = none)
    some (r.lockTask registration t src slot waker)
  | .cloning waker => some (r.setRegistration registration { t with pc := .relocking waker clone })
  | .relocking waker clone => do
    guard (slot.lock = none)
    some (r.relockTask registration t src slot waker clone)
  | .rechecking waker read =>
    match read.pc with
    | .done true =>
      some (r.setRegistration registration
        { t with registered := none, pc := .idle, outcome := .ready })
    | .done false =>
      some (r.setRegistration registration { t with pc := .idle, outcome := .pending waker })
    | pc =>
      some (r.setRegistration registration
        { t with pc := .rechecking waker { read with pc := slot.load src.generation true pc } })
  | .idle | .gone => none

/-- The section of the drop of a task's registration. -/
def dropTask (registration : Nat) : Option CancellationRegistry := do
  let t ← r.registrations[registration]?
  let src ← r.sources[t.source]?
  let slot ← r.slots src.slot
  guard (t.pc = .idle ∧ slot.lock = none)
  let r := r.setRegistration registration
    { t with registered := none, pc := .gone, outcome := .unpolled }
  if slot.waiters.generation = src.generation then
    some (r.setSlot src.slot { slot with waiters := { slot.waiters with taskWaker := none } })
  else
    some r

/-- One step of the system. -/
def step : Action → Option CancellationRegistry
  | .allocate shard => if shard < shards then r.allocate shard else none
  | .cancel source => do
    let src ← r.sources[source]?
    guard (src.pc = .live)
    r.beginEnd source src (.cancelling source) .live
  | .drop source => do
    let src ← r.sources[source]?
    guard (src.pc = .live)
    r.beginEnd source src (.releasing source) .dropped
  | .advance id => r.advance id
  | .wake call => r.wake call
  | .read source => do
    let src ← r.sources[source]?
    guard (src.pc ≠ .allocating)
    some { r with reads := r.reads ++ [⟨source, ⟨src.ended, .generation⟩⟩] }
  | .load call => do
    let c ← r.reads[call]?
    let src ← r.sources[c.source]?
    let slot ← r.slots src.slot
    some { r with
      reads := r.reads.set call
        { c with read := { c.read with pc := slot.load src.generation false c.read.pc } } }
  | .tryStartDelivery source => r.tryStartDelivery source
  | .finishDelivery source => r.finishDelivery source
  | .watch source => do
    let src ← r.sources[source]?
    guard (src.pc ≠ .allocating)
    some { r with waiters := r.waiters ++ [⟨source, none, none, .idle, .unpolled⟩] }
  | .poll waiter waker => do
    let w ← r.waiters[waiter]?
    let src ← r.sources[w.source]?
    guard (w.pc = .idle)
    some (r.setWaiter waiter
      { w with pc := .reading waker ⟨src.ended, .generation⟩, outcome := .unpolled })
  | .pollStep waiter clone => r.pollStep waiter clone
  | .dropWaiter waiter => do
    let w ← r.waiters[waiter]?
    guard (w.pc = .idle)
    match w.waiterId with
    | some id =>
      some (r.setWaiter waiter
        { w with
          waiterId := none, registered := none, pc := .unregistering id true,
          outcome := .unpolled })
    | none =>
      some (r.setWaiter waiter { w with registered := none, pc := .gone, outcome := .unpolled })
  | .claim source => do
    let src ← r.sources[source]?
    guard (src.pc = .live ∧ src.claimed = false)
    some { (r.setSource source { src with claimed := true }) with
      registrations := r.registrations ++ [⟨source, none, .idle, .unpolled⟩] }
  | .pollTask registration waker => do
    let t ← r.registrations[registration]?
    let src ← r.sources[t.source]?
    guard (t.pc = .idle)
    some (r.setRegistration registration
      { t with pc := .reading waker ⟨src.ended, .generation⟩, outcome := .unpolled })
  | .taskStep registration clone => r.taskStep registration clone
  | .dropTask registration => r.dropTask registration

end

end CancellationRegistry

end Cancellation

end Xlfn.Async
