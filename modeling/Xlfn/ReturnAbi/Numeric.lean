import Xlfn.Lib.Machine
import Xlfn.Lib.Table

/-!
# Xlfn — numeric return memory

`return_abi/numeric.rs` keeps FP12 results in blocks of the process heap. A block is charged to the
process before it is allocated, to its module and its thread when it is published, and is
given back to the heap by the next outermost entry of its thread. The process counters live
in a mapping that all loaded images share; module counters and thread epochs belong to one
image.

The machine below runs any number of loaded modules and threads, one atomic access a step.

* `Task` — a reservation with the checks before it, the output that owns the allocation, and
  its drop; also a read of the metrics. Outputs move between threads, so a task belongs to
  nobody.
* `Slot` — the thread-local state of one thread in one module, and the call on it: a
  publication, or the reclamation at the head of an outermost entry.
* `ok` in a step is the answer of the heap, or whether a weak exchange is attempted at all.

A module that was unloaded and loaded again is a new module, whose counters start at zero;
a thread that ends just takes no further step. Every call attaches to the shared mapping; an
image that has attached before (`attached`) goes straight to the second check.
-/

namespace Xlfn.ReturnAbi

open Xlfn.Lib

-- ---- Limits and errors.

inductive InputError where
  | malformed (reason : String)
  | tooLarge (limit actual : Nat)
deriving DecidableEq

/-- `overflow` is `Domain` with the code `Overflow`; `protocol` and `allocation` are the two
custom errors. -/
inductive XllError where
  | input (argument : String) (reason : InputError)
  | overflow
  | protocol
  | allocation
deriving DecidableEq

/-- `MAX_NUMERIC_RETURN_BYTES`. -/
def maxNumericReturnBytes : Nat := 16 * 1024 * 1024

/-- `MAX_THREAD_NUMERIC_RETURN_BYTES`. -/
def maxThreadNumericReturnBytes : Nat := 64 * 1024 * 1024

/-- `MAX_MODULE_NUMERIC_RETURN_BYTES`. -/
def maxModuleNumericReturnBytes : Nat := 256 * 1024 * 1024

/-- `MAX_PROCESS_NUMERIC_RETURN_BYTES`. -/
def maxProcessNumericReturnBytes : Nat := 512 * 1024 * 1024

/-- `SCHEMA`. -/
def schemaWord : Nat := 0x584c464500020040

/-- What depends on the target: `usize::MAX`, and the size of the private header before the
FP12 of a block. -/
structure Platform where
  usizeMax : Nat
  fpOffset : Nat
  header   : fpOffset ≤ 64

def enforceLimit (actual limit : Nat) (argument : String) : Except XllError Unit :=
  if actual > limit then .error (.input argument (.tooLarge limit actual)) else .ok ()

/-- `numeric_element_count`. -/
def numericElementCount (p : Platform) (rows columns : Nat) : Except XllError Nat := do
  if rows = 0 ∨ columns = 0 then
    throw (.input "<numeric return>" (.malformed "matrix dimensions must be non-zero"))
  enforceLimit rows 1048576 "<numeric return rows>"
  enforceLimit columns 16384 "<numeric return columns>"
  if rows * columns > p.usizeMax then throw .overflow else return rows * columns

/-- The head of `NumericAllocation::new`: the size of the block. -/
def blockBytes (p : Platform) (rows columns : Nat) : Except XllError Nat := do
  let len ← numericElementCount p rows columns
  if len * 8 > p.usizeMax ∨ len * 8 + 8 > p.usizeMax then throw .overflow
  enforceLimit (len * 8 + 8) maxNumericReturnBytes "<numeric return>"
  return p.fpOffset + (len * 8 + 8)

/-- `retained_bytes_after`. -/
def retainedBytesAfter (p : Platform) (current additional limit : Nat) (argument : String) :
    Except XllError Nat :=
  if current + additional > p.usizeMax then
    .error .overflow
  else
    match enforceLimit (current + additional) limit argument with
    | .error error => .error error
    | .ok () => .ok (current + additional)

-- ---- The shared mapping and the module.

/-- The four totals of the process. -/
inductive Counter where
  | reservedBytes
  | reservedBuffers
  | publishedBytes
  | publishedBuffers
deriving DecidableEq

/-- `ProcessState`. -/
structure ProcessState where
  schema             : Nat
  limitBytes         : Nat
  counter            : Counter → Nat
  peakReservedBytes  : Nat
  peakPublishedBytes : Nat

namespace ProcessState

/-- A fresh mapping. -/
def new : ProcessState := ⟨0, 0, fun _ => 0, 0, 0⟩

def fetchAdd (process : ProcessState) (c : Counter) (amount : Nat) : ProcessState :=
  { process with counter := Function.update process.counter c (process.counter c + amount) }

/-- `fetch_sub`. Where it would wrap, the machine records an underflow. -/
def fetchSub (process : ProcessState) (c : Counter) (amount : Nat) : ProcessState :=
  { process with counter := Function.update process.counter c (process.counter c - amount) }

end ProcessState

/-- One of the loads of `ProcessState::validate`. -/
inductive Field where
  | schema
  | limit
  | total (c : Counter)
  | peakReserved
  | peakPublished

/-- The loads in their order. -/
def Field.next : Field → Option Field
  | .schema => some .limit
  | .limit => some (.total .reservedBytes)
  | .total .reservedBytes => some (.total .reservedBuffers)
  | .total .reservedBuffers => some .peakReserved
  | .peakReserved => some (.total .publishedBytes)
  | .total .publishedBytes => some (.total .publishedBuffers)
  | .total .publishedBuffers => some .peakPublished
  | .peakPublished => none

/-- Whether the load passes. -/
def Field.valid (process : ProcessState) : Field → Bool
  | .schema => process.schema = schemaWord
  | .limit => process.limitBytes = maxProcessNumericReturnBytes
  | .total c => process.counter c ≤ maxProcessNumericReturnBytes
  | .peakReserved => process.peakReservedBytes ≤ maxProcessNumericReturnBytes
  | .peakPublished => process.peakPublishedBytes ≤ maxProcessNumericReturnBytes

/-- `MODULE_BYTES`, `MODULE_BUFFERS` and `MODULE_PEAK_BYTES`. -/
structure ModuleState where
  bytes     : Nat
  buffers   : Nat
  peakBytes : Nat

-- ---- Tasks.

/-- What a call does once the mapping is attached and checked. -/
inductive Purpose where
  | reserve (bytes : Nat)
  | metrics

/-- `shared`, then `validate` again. -/
inductive PreparePc where
  | schema
  | limit
  | check (second : Bool) (field : Field)

/-- `ProcessState::reserve`, then the allocation. -/
inductive ReservePc where
  | load
  | exchange (current : Nat)
  | buffers (next : Nat)
  | peak (next : Nat)
  | allocate

inductive Task where
  | preparing (purpose : Purpose) (pc : PreparePc)
  | reserving (bytes : Nat) (pc : ReservePc)
  /-- A builder or an output owns the allocation and its reservation. -/
  | output (bytes : Nat)
  /-- The drop of the output is about to free the block. -/
  | freeing (bytes : Nat)
  /-- `release_reserved`, before its first or its second subtraction. -/
  | releasing (bytes : Nat) (buffers : Bool)
  /-- The heap refused the block: the reservation stays until the process ends. -/
  | leaked (bytes : Nat)
  | rejected (error : XllError)
  | finished

/-- What a step of a task makes of the process; `underflow` reports a subtraction below zero. -/
structure TaskStep where
  process   : ProcessState
  task      : Task
  underflow : Bool

/-- After the loads of one validation. -/
def Purpose.proceed : Purpose → Bool → Task
  | purpose, false => .preparing purpose (.check true .schema)
  | .reserve bytes, true => .reserving bytes .load
  | .metrics, true => .finished

def PreparePc.step (process : ProcessState) (purpose : Purpose) : PreparePc → TaskStep
  | .schema =>
    if process.schema = 0 then
      ⟨{ process with schema := schemaWord }, .preparing purpose .limit, false⟩
    else if process.schema ≠ schemaWord then ⟨process, .rejected .protocol, false⟩
    else ⟨process, .preparing purpose .limit, false⟩
  | .limit =>
    let checked := Task.preparing purpose (.check false .schema)
    if process.limitBytes = 0 then
      ⟨{ process with limitBytes := maxProcessNumericReturnBytes }, checked, false⟩
    else if process.limitBytes ≠ maxProcessNumericReturnBytes then
      ⟨process, .rejected .protocol, false⟩
    else ⟨process, checked, false⟩
  | .check second field =>
    if field.valid process then
      match field.next with
      | some field => ⟨process, .preparing purpose (.check second field), false⟩
      | none => ⟨process, purpose.proceed second, false⟩
    else
      ⟨process, .rejected .protocol, false⟩

def ReservePc.step (p : Platform) (process : ProcessState) (bytes : Nat) (ok : Bool) :
    ReservePc → TaskStep
  | .load =>
    if bytes = 0 then ⟨process, .rejected .protocol, false⟩
    else ⟨process, .reserving bytes (.exchange (process.counter .reservedBytes)), false⟩
  | .exchange current =>
    let next := current + bytes
    if next ≥ 2 ^ 64 then
      ⟨process, .rejected .protocol, false⟩
    else if next > maxProcessNumericReturnBytes then
      ⟨process, .rejected (.input "<numeric process retention>"
        (.tooLarge maxProcessNumericReturnBytes (min next p.usizeMax))), false⟩
    else if process.counter .reservedBytes = current ∧ ok then
      ⟨process.fetchAdd .reservedBytes bytes, .reserving bytes (.buffers next), false⟩
    else
      ⟨process, .reserving bytes (.exchange (process.counter .reservedBytes)), false⟩
  | .buffers next => ⟨process.fetchAdd .reservedBuffers 1, .reserving bytes (.peak next), false⟩
  | .peak next =>
    ⟨{ process with peakReservedBytes := max process.peakReservedBytes next },
      .reserving bytes .allocate, false⟩
  | .allocate =>
    if ok then ⟨process, .output bytes, false⟩ else ⟨process, .releasing bytes true, false⟩

/-- One step of a task. An output waits for its owner. -/
def Task.step (p : Platform) (process : ProcessState) (ok : Bool) : Task → Option TaskStep
  | .preparing purpose pc => some (pc.step process purpose)
  | .reserving bytes pc => some (pc.step p process bytes ok)
  | .freeing bytes =>
    some (if ok then ⟨process, .releasing bytes true, false⟩ else ⟨process, .leaked bytes, false⟩)
  | .releasing bytes true =>
    some ⟨process.fetchSub .reservedBuffers 1, .releasing bytes false,
      process.counter .reservedBuffers < 1⟩
  | .releasing bytes false =>
    some ⟨process.fetchSub .reservedBytes bytes, .finished, process.counter .reservedBytes < bytes⟩
  | .output _ | .leaked _ | .rejected _ | .finished => none

-- ---- Threads.

/-- A published block. `id` counts the publications of its slot and `entry` is the outermost
entry of the slot it was published in; both are history. -/
structure Block where
  id    : Nat
  bytes : Nat
  entry : Nat
deriving DecidableEq

/-- `ThreadState`, with the list behind `head`. -/
structure ThreadState where
  depth     : Nat
  epoch     : List Block
  bytes     : Nat
  buffers   : Nat
  peakBytes : Nat

/-- `publish` after its check of the thread's total. -/
inductive PublishPc where
  | load
  | exchange (current : Nat)
  | modulePeak (next : Nat)
  | publishedBytes
  | publishedBuffers (next : Nat)
  | publishedPeak (next : Nat)
  | link
  | moduleBuffers

/-- The subtractions after a block went back to the heap: `release_published`, then those of
the module. -/
inductive DischargePc where
  | publishedBuffers
  | publishedBytes
  | reservedBuffers
  | reservedBytes
  | moduleBytes
  | moduleBuffers

/-- The call in progress on a slot. No user code runs inside one. -/
inductive SlotPc where
  | idle
  | publishing (bytes threadBytes : Nat) (pc : PublishPc)
  | reclaiming (rest : List Block)
  | discharging (block : Block) (rest : List Block) (pc : DischargePc)

/-- One thread in one module. `entries`, `published`, `freed` and `abandoned` are history:
the outermost entries so far, the blocks published, and the blocks the heap has taken or
refused. -/
structure Slot where
  module    : Nat
  state     : ThreadState
  pc        : SlotPc
  entries   : Nat
  published : List Block
  freed     : List Block
  abandoned : List Block

/-- What a step of a slot makes of the shared state. `dropped` is the output of a rejected
publication. -/
structure SlotStep where
  process   : ProcessState
  module    : ModuleState
  slot      : Slot
  dropped   : Option Nat
  underflow : Bool

namespace Slot

def new (module : Nat) : Slot where
  module    := module
  state     := ⟨0, [], 0, 0, 0⟩
  pc        := .idle
  entries   := 0
  published := []
  freed     := []
  abandoned := []

/-- `Fp12CallGuard::enter`: an outermost entry takes the epoch before it reclaims it. -/
def enter (slot : Slot) : Slot :=
  if slot.state.depth = 0 then
    { slot with
      state   := { slot.state with depth := 1, epoch := [], bytes := 0, buffers := 0 }
      pc      := .reclaiming slot.state.epoch
      entries := slot.entries + 1 }
  else
    { slot with state := { slot.state with depth := slot.state.depth + 1 } }

/-- The drop of an `Fp12CallGuard`. -/
def leave (slot : Slot) : Slot :=
  { slot with state := { slot.state with depth := slot.state.depth - 1 } }

/-- The section of `publish` that links the block into the epoch. -/
def link (slot : Slot) (bytes threadBytes : Nat) : Slot :=
  let block : Block := ⟨slot.published.length, bytes, slot.entries⟩
  { slot with
    state := { slot.state with
      epoch     := block :: slot.state.epoch
      bytes     := threadBytes
      buffers   := slot.state.buffers + 1
      peakBytes := max slot.state.peakBytes threadBytes }
    pc        := .publishing bytes threadBytes .moduleBuffers
    published := slot.published ++ [block] }

def publishStep (p : Platform) (process : ProcessState) (module : ModuleState) (slot : Slot)
    (bytes threadBytes : Nat) (ok : Bool) : PublishPc → SlotStep
  | .load =>
    ⟨process, module, { slot with pc := .publishing bytes threadBytes (.exchange module.bytes) },
      none, false⟩
  | .exchange current =>
    match retainedBytesAfter p current bytes maxModuleNumericReturnBytes
        "<numeric module retention>" with
    | .error _ => ⟨process, module, { slot with pc := .idle }, some bytes, false⟩
    | .ok next =>
      if module.bytes = current ∧ ok then
        ⟨process, { module with bytes := next },
          { slot with pc := .publishing bytes threadBytes (.modulePeak next) }, none, false⟩
      else
        ⟨process, module,
          { slot with pc := .publishing bytes threadBytes (.exchange module.bytes) }, none, false⟩
  | .modulePeak next =>
    ⟨process, { module with peakBytes := max module.peakBytes next },
      { slot with pc := .publishing bytes threadBytes .publishedBytes }, none, false⟩
  | .publishedBytes =>
    let next := process.counter .publishedBytes + bytes
    ⟨process.fetchAdd .publishedBytes bytes, module,
      { slot with pc := .publishing bytes threadBytes (.publishedBuffers next) }, none, false⟩
  | .publishedBuffers next =>
    ⟨process.fetchAdd .publishedBuffers 1, module,
      { slot with pc := .publishing bytes threadBytes (.publishedPeak next) }, none, false⟩
  | .publishedPeak next =>
    ⟨{ process with peakPublishedBytes := max process.peakPublishedBytes next }, module,
      { slot with pc := .publishing bytes threadBytes .link }, none, false⟩
  | .link => ⟨process, module, slot.link bytes threadBytes, none, false⟩
  | .moduleBuffers =>
    ⟨process, { module with buffers := module.buffers + 1 }, { slot with pc := .idle }, none,
      false⟩

def dischargeStep (process : ProcessState) (module : ModuleState) (slot : Slot) (block : Block)
    (rest : List Block) : DischargePc → SlotStep
  | .publishedBuffers =>
    ⟨process.fetchSub .publishedBuffers 1, module,
      { slot with pc := .discharging block rest .publishedBytes }, none,
      process.counter .publishedBuffers < 1⟩
  | .publishedBytes =>
    ⟨process.fetchSub .publishedBytes block.bytes, module,
      { slot with pc := .discharging block rest .reservedBuffers }, none,
      process.counter .publishedBytes < block.bytes⟩
  | .reservedBuffers =>
    ⟨process.fetchSub .reservedBuffers 1, module,
      { slot with pc := .discharging block rest .reservedBytes }, none,
      process.counter .reservedBuffers < 1⟩
  | .reservedBytes =>
    ⟨process.fetchSub .reservedBytes block.bytes, module,
      { slot with pc := .discharging block rest .moduleBytes }, none,
      process.counter .reservedBytes < block.bytes⟩
  | .moduleBytes =>
    ⟨process, { module with bytes := module.bytes - block.bytes },
      { slot with pc := .discharging block rest .moduleBuffers }, none,
      module.bytes < block.bytes⟩
  | .moduleBuffers =>
    ⟨process, { module with buffers := module.buffers - 1 }, { slot with pc := .reclaiming rest },
      none, module.buffers < 1⟩

/-- One step of the call on a slot. -/
def step (p : Platform) (process : ProcessState) (module : ModuleState) (slot : Slot)
    (ok : Bool) : Option SlotStep :=
  match slot.pc with
  | .idle => none
  | .publishing bytes threadBytes pc =>
    some (slot.publishStep p process module bytes threadBytes ok pc)
  | .reclaiming [] => some ⟨process, module, { slot with pc := .idle }, none, false⟩
  | .reclaiming (block :: rest) =>
    -- `release_block`: a block the heap refuses is abandoned with its charges.
    if ok then
      some ⟨process, module,
        { slot with pc    := .discharging block rest .publishedBuffers
                    freed := block :: slot.freed }, none, false⟩
    else
      some ⟨process, module,
        { slot with pc := .reclaiming rest, abandoned := block :: slot.abandoned }, none, false⟩
  | .discharging block rest pc => some (slot.dischargeStep process module block rest pc)

end Slot

-- ---- The machine.

structure NumericSystem where
  process   : ProcessState
  modules   : Nat → ModuleState
  tasks     : List Task
  slots     : List Slot
  underflow : Bool

namespace NumericSystem

def new : NumericSystem where
  process   := .new
  modules   := fun _ => ⟨0, 0, 0⟩
  tasks     := []
  slots     := []
  underflow := false

inductive Action where
  /-- `NumericArrayBuilder::new`. -/
  | create (rows columns : Nat) (attached : Bool)
  /-- `numeric_return_memory_metrics`. -/
  | readMetrics (attached : Bool)
  | task (k : Nat) (ok : Bool)
  /-- The owner of an output drops it. -/
  | drop (k : Nat)
  /-- A thread touches a module for the first time. -/
  | attach (module : Nat)
  | enter (i : Nat)
  | leave (i : Nat)
  /-- A call on slot `i` publishes the output of task `k`. -/
  | publish (i k : Nat)
  | slot (i : Nat) (ok : Bool)

/-- Where a call enters the checks. -/
def start (process : ProcessState) (purpose : Purpose) (attached : Bool) : Option Task :=
  if attached then
    if process.schema = schemaWord ∧ process.limitBytes = maxProcessNumericReturnBytes then
      some (.preparing purpose (.check true .schema))
    else none
  else some (.preparing purpose .schema)

/-- `publish`, up to its check of the thread's total. -/
def publish (p : Platform) (s : NumericSystem) (i k : Nat) : Option NumericSystem := do
  let slot ← s.slots[i]?
  let task ← s.tasks[k]?
  match slot.pc, task with
  | .idle, .output bytes =>
    if slot.state.depth = 0 then none
    else
      match retainedBytesAfter p slot.state.bytes bytes maxThreadNumericReturnBytes
          "<numeric thread retention>" with
      | .error _ => some { s with tasks := s.tasks.set k (.freeing bytes) }
      | .ok threadBytes =>
        some { s with
          tasks := s.tasks.set k .finished
          slots := s.slots.set i { slot with pc := .publishing bytes threadBytes .load } }
  | _, _ => none

def step (p : Platform) (s : NumericSystem) : Action → Option NumericSystem
  | .create rows columns attached =>
    match blockBytes p rows columns with
    | .error error => some { s with tasks := s.tasks ++ [.rejected error] }
    | .ok bytes => do
      let task ← start s.process (.reserve bytes) attached
      some { s with tasks := s.tasks ++ [task] }
  | .readMetrics attached => do
    let task ← start s.process .metrics attached
    some { s with tasks := s.tasks ++ [task] }
  | .task k ok => do
    let task ← s.tasks[k]?
    let next ← task.step p s.process ok
    some { s with
      process   := next.process
      tasks     := s.tasks.set k next.task
      underflow := s.underflow || next.underflow }
  | .drop k => do
    let task ← s.tasks[k]?
    match task with
    | .output bytes => some { s with tasks := s.tasks.set k (.freeing bytes) }
    | _ => none
  | .attach module => some { s with slots := s.slots ++ [Slot.new module] }
  | .enter i => do
    let slot ← s.slots[i]?
    match slot.pc with
    | .idle => some { s with slots := s.slots.set i slot.enter }
    | _ => none
  | .leave i => do
    let slot ← s.slots[i]?
    match slot.pc with
    | .idle =>
      if slot.state.depth = 0 then none else some { s with slots := s.slots.set i slot.leave }
    | _ => none
  | .publish i k => publish p s i k
  | .slot i ok => do
    let slot ← s.slots[i]?
    let next ← slot.step p s.process (s.modules slot.module) ok
    some { s with
      process   := next.process
      modules   := Function.update s.modules slot.module next.module
      slots     := s.slots.set i next.slot
      tasks     := s.tasks ++ next.dropped.toList.map Task.freeing
      underflow := s.underflow || next.underflow }

end NumericSystem

end Xlfn.ReturnAbi
