import Xlfn.Lib.Unwind
import Xlfn.Subscription.Control
import Xlfn.Subscription.Budget

/-!
# Xlfn — publication of a refresh batch

`data_plane/refresh/publication.rs`: marshalling the updates of a batch into an array of the host
and handing the array over to the caller's output slots. Every call out of the crate may fail or
unwind, as `Host` answers; the locals whose destructors matter are cells of `World`, and the history
of calls is kept, newest first, so that what happened to the array can be read off it.

The completion of the batch works on the publish core as the model of `complete_refresh_inner` has
it. Publications that interleave with the completion are those of `Subscription.Machine`; here the
core is whatever the completion finds.
-/

namespace Xlfn.Subscription.Publication

open Xlfn.Lib Xlfn.Lib.Comp Xlfn.Kernel

variable {A D V N : Type}

-- ---- Calls and their history.

/-- The outcome of a call that returns a `Result`. -/
inductive Outcome
  | ok
  | error (status : Int)
  | unwind
deriving DecidableEq

/-- `HandoffStage`. -/
inductive HandoffStage
  | countWritten
  | pointerWritten
  | committed

/-- Calls that return a `Result`: `ArrayApi` and the writes of `OutputSlots`. -/
inductive Call (A D V : Type)
  | create (count : Nat)
  | access (array : A)
  | fill (data : D) (updates : List (RtdUpdate V))
  | unaccess (array : A)
  | writeCount (count : Int)
  | writeArray (array : Option A)

/-- Calls that return nothing, destructors of foreign values included. -/
inductive Command (A N : Type)
  | destroy (array : A)
  | retained (array : A) (status : Int)
  | reset
  | dropOutput
  | after (stage : HandoffStage)
  | drive (attempt : NotificationAttempt N)
  | recordCleanupResult
  | releaseOperation

/-- An entry of the history. Beside the calls it notes when an array came to be, when the staged
outputs were disarmed, and the completion of the batch: as it was requested, and as it was applied
to the core. -/
inductive Event (A D V N : Type)
  | called (call : Call A D V) (outcome : Outcome)
  | commanded (command : Command A N) (unwound : Bool)
  | created (array : A)
  | committed
  | requested (outcome : RefreshOutcome)
  | completed (outcome : RefreshOutcome) (core : PublishCore V N)

/-- The output storage. -/
structure OutputSlots (A : Type) where
  count : Int
  array : Option A

/-- `RawOutputSlots::clear`. -/
def OutputSlots.cleared : OutputSlots A := ⟨0, none⟩

/-- The world outside: what each call does, as a function of all that happened before. `leftover` is
the output storage after a write that failed or unwound. -/
structure Host (A D V N : Type) where
  answer   : List (Event A D V N) → Call A D V → Outcome
  unwinds  : List (Event A D V N) → Command A N → Bool
  array    : List (Event A D V N) → A
  data     : List (Event A D V N) → D
  leftover : List (Event A D V N) → OutputSlots A

-- ---- The state of a publication.

/-- `BuildingArray`. -/
structure BuildingArray (A : Type) where
  array  : Option A
  locked : Bool

/-- `ReadyArray`. -/
structure ReadyArray (A : Type) where
  array : Option A
  count : Int

/-- `RtdRefreshBatch`, as far as completion reads it. -/
structure Batch (V : Type) where
  refreshId : Nat
  updates   : List (RtdUpdate V)
  finished  : Bool

/-- The cells of the locals with destructors, the output storage and the core. `staged` holds the
`armed` flag of the staged outputs, `none` once they are dropped; `batch` is `none` once dropped. -/
structure World (A D V N : Type) where
  history  : List (Event A D V N)
  building : BuildingArray A
  ready    : ReadyArray A
  staged   : Option Bool
  batch    : Option (Batch V)
  outputs  : OutputSlots A
  core     : PublishCore V N

def World.note (w : World A D V N) (event : Event A D V N) : World A D V N :=
  { w with history := event :: w.history }

abbrev Run (A D V N : Type) := Comp (World A D V N)

variable (host : Host A D V N)

def note (event : Event A D V N) : Run A D V N Unit := modify fun w => w.note event

/-- A call that returns a `Result`. -/
def call (c : Call A D V) : Run A D V N (Except Int Unit) := do
  let w ← get
  let outcome := host.answer w.history c
  note (.called c outcome)
  match outcome with
  | .ok => pure (.ok ())
  | .error status => pure (.error status)
  | .unwind => unwind

/-- A call that returns nothing. -/
def command (c : Command A N) : Run A D V N Unit := do
  let w ← get
  let unwound := host.unwinds w.history c
  note (.commanded c unwound)
  if unwound then unwind else pure ()

-- ---- The array under construction.

inductive MarshalFailure
  | invalidCount
  | backend (status : Int)

def i32Max : Nat := 2147483647

/-- `BuildingArray::unlock`. The allocation is moved out before the call: until the call returns
`Ok` its lock is indeterminate. -/
def BuildingArray.unlock : Run A D V N (Except Int Unit) := do
  let w ← get
  if w.building.locked then
    modify fun w => { w with building := ⟨none, false⟩ }
    match w.building.array with
    | none => unwind
    | some array =>
      match ← call host (.unaccess array) with
      | .ok () =>
        modify fun w => { w with building := { w.building with array := some array } }
        pure (.ok ())
      | .error status =>
        command host (.retained array status)
        pure (.error status)
  else
    pure (.ok ())

/-- Destroy the array that is left in the cell. -/
def BuildingArray.destroy : Run A D V N Unit := do
  let w ← get
  match w.building.array with
  | some array =>
    modify fun w => { w with building := { w.building with array := none } }
    command host (.destroy array)
  | none => pure ()

/-- `<BuildingArray as Drop>::drop`. -/
def BuildingArray.drop : Run A D V N Unit := do
  let _ ← BuildingArray.unlock host
  BuildingArray.destroy host

/-- `ReadyArray::prepare` from `access` on, with the construction in its cell. -/
def ReadyArray.construct (array : A) (updates : List (RtdUpdate V)) :
    Run A D V N (Except MarshalFailure (ReadyArray A)) := do
  -- An unwind from `access` must retain the allocation: the cell is empty during the call.
  modify fun w => { w with building := ⟨none, false⟩ }
  let accessed ← call host (.access array)
  modify fun w => { w with building := ⟨some array, false⟩ }
  match accessed with
  | .error status => pure (.error (.backend status))
  | .ok () =>
    let w ← get
    modify fun w => { w with building := ⟨some array, true⟩ }
    match ← call host (.fill (host.data w.history) updates) with
    | .error status => pure (.error (.backend status))
    | .ok () =>
      match ← BuildingArray.unlock host with
      | .error status => pure (.error (.backend status))
      | .ok () =>
        let w ← get
        modify fun w => { w with building := { w.building with array := none } }
        pure (.ok ⟨w.building.array, updates.length⟩)

/-- `ReadyArray::prepare`. -/
def ReadyArray.prepare (updates : List (RtdUpdate V)) :
    Run A D V N (Except MarshalFailure (ReadyArray A)) :=
  if i32Max < updates.length then
    pure (.error .invalidCount)
  else if updates.isEmpty then
    pure (.ok ⟨none, updates.length⟩)
  else if usizeMax < updates.length * 2 then
    pure (.error .invalidCount)
  else do
    match ← call host (.create updates.length) with
    | .error status => pure (.error (.backend status))
    | .ok () =>
      let w ← get
      let array := host.array w.history
      note (.created array)
      modify fun w => { w with building := ⟨some array, false⟩ }
      withDrop (ReadyArray.construct host array updates) (BuildingArray.drop host)

/-- `<ReadyArray as Drop>::drop`. -/
def ReadyArray.drop : Run A D V N Unit := do
  let w ← get
  match w.ready.array with
  | some array =>
    modify fun w => { w with ready := { w.ready with array := none } }
    command host (.destroy array)
  | none => pure ()

-- ---- The output slots.

/-- A write that failed or unwound leaves the storage as the host says. -/
def spoil : Run A D V N Unit := modify fun w => { w with outputs := host.leftover w.history }

/-- A write that takes effect when it returns `Ok`. -/
def OutputSlots.write (c : Call A D V) (written : OutputSlots A → OutputSlots A) :
    Run A D V N (Except Int Unit) := do
  match ← onUnwind (call host c) (spoil host) with
  | .ok () =>
    modify fun w => { w with outputs := written w.outputs }
    pure (.ok ())
  | .error status =>
    spoil host
    pure (.error status)

def OutputSlots.writeCount (count : Int) : Run A D V N (Except Int Unit) :=
  OutputSlots.write host (.writeCount count) fun outputs => { outputs with count }

def OutputSlots.writeArray (array : Option A) : Run A D V N (Except Int Unit) :=
  OutputSlots.write host (.writeArray array) fun outputs => { outputs with array }

def OutputSlots.reset : Run A D V N Unit := do
  onUnwind (command host .reset) (spoil host)
  modify fun w => { w with outputs := .cleared }

/-- `<StagedOutputs as Drop>::drop`, then the destructor of its output. -/
def StagedOutputs.drop : Run A D V N Unit := do
  let w ← get
  match w.staged with
  | none => pure ()
  | some armed =>
    modify fun w => { w with staged := none }
    withDrop (if armed then OutputSlots.reset host else pure ()) (command host .dropOutput)

-- ---- Completion of the batch.

/-- `complete_refresh_inner`: without a notification ticket left, the batch is restored whatever
outcome was requested. The loop retires the updates backwards. -/
def completeRefreshInner (refreshId : Nat) (updates : List (RtdUpdate V))
    (outcome : RefreshOutcome) :
    Run A D V N (Except XllError (Option (NotificationAttempt N))) := do
  let w ← get
  match w.core.checkRefresh refreshId with
  | .error error => pure (.error error)
  | .ok ticketError =>
    let outcome := if ticketError then .failed else outcome
    match updates.reverse.foldlM (fun core u => core.completeUpdate outcome u) w.core with
    | none => abort
    | some core =>
      note (.completed outcome core)
      let (core, result) := core.finishRefresh refreshId ticketError
      modify fun w => { w with core }
      pure result

/-- `RtdRefreshBatch::finish_protocol`. -/
def Batch.finishProtocol (batch : Batch V) (outcome : RefreshOutcome) :
    Run A D V N (Except XllError Unit) := do
  modify fun w => { w with batch := some { batch with updates := [], finished := true } }
  note (.requested outcome)
  match ← completeRefreshInner batch.refreshId batch.updates outcome with
  | .error error => pure (.error error)
  | .ok none => pure (.ok ())
  | .ok (some attempt) =>
    command host (.drive attempt)
    pure (.ok ())

/-- `<RtdRefreshBatch as Drop>::drop`. -/
def Batch.abortOnDrop (batch : Batch V) : Run A D V N Unit :=
  if batch.finished then pure ()
  else do
    let _ ← catchUnwind (Batch.finishProtocol host batch .failed)

/-- Dropping the batch: its own destructor, then that of its admission. -/
def Batch.drop : Run A D V N Unit := do
  let w ← get
  match w.batch with
  | none => pure ()
  | some batch =>
    Batch.abortOnDrop host batch
    modify fun w => { w with batch := none }
    command host .releaseOperation

/-- `RtdRefreshBatch::abort`. -/
def Batch.abort : Run A D V N (Except XllError Unit) := do
  let w ← get
  match w.batch with
  | none => pure (.ok ())
  | some batch => withDrop (Batch.finishProtocol host batch .failed) (Batch.drop host)

/-- The error of a completion: one it returned, or a panic it contained. -/
inductive CompletionError
  | returned (error : XllError)
  | panic

/-- Report a completion that failed to the cleanup ledger. -/
def recordCleanupResult : Except CompletionError Unit → Run A D V N Unit
  | .ok () => pure ()
  | .error _ => do
    let _ ← catchUnwind (command host .recordCleanupResult)

/-- What became of a completion whose panic was consumed. -/
def completionOf : Option (Except XllError Unit) → Except CompletionError Unit
  | some (.ok ()) => .ok ()
  | some (.error error) => .error (.returned error)
  | none => .error .panic

/-- The end of `finish_pending`: the report, then the batch is dropped. -/
def CommittedRefresh.release (result : Except CompletionError Unit) :
    Run A D V N (Except CompletionError Unit) := do
  recordCleanupResult host result
  match ← catchUnwind (Batch.drop host) with
  | some () => pure result
  | none => pure (.error .panic)

/-- `CommittedRefresh::finish_pending`. The batch it takes stays in its cell until it is dropped;
everything in between contains its panics. -/
def CommittedRefresh.finishPending : Run A D V N (Except CompletionError Unit) := do
  let w ← get
  match w.batch with
  | none => pure (.ok ())
  | some batch =>
    let finished ← catchUnwind (Batch.finishProtocol host batch .delivered)
    CommittedRefresh.release host (completionOf finished)

-- ---- Publication.

/-- `RefreshPublication::prepare`. -/
def RefreshPublication.prepare (batch : Batch V) :
    Run A D V N (Except MarshalFailure (ReadyArray A)) := do
  match ← onUnwind (ReadyArray.prepare host batch.updates) (Batch.drop host) with
  | .ok ready => pure (.ok ready)
  | .error error =>
    let _ ← catchUnwind (Batch.abort host)
    pure (.error error)

/-- `handoff_with` once the array is relinquished: the committed guard owns the batch. -/
def RefreshPublication.commit : Run A D V N (Except CompletionError Unit) := do
  modify fun w => { w with ready := { w.ready with array := none }, staged := some false }
  note .committed
  withDrop
    (do
      StagedOutputs.drop host
      command host (.after .committed)
      CommittedRefresh.finishPending host)
    (do
      let _ ← CommittedRefresh.finishPending host)

/-- The body of `handoff_with`. -/
def RefreshPublication.write : Run A D V N (Except Int (Except CompletionError Unit)) := do
  let w ← get
  match ← OutputSlots.writeCount host w.ready.count with
  | .error status => pure (.error status)
  | .ok () =>
    command host (.after .countWritten)
    match ← OutputSlots.writeArray host w.ready.array with
    | .error status => pure (.error status)
    | .ok () =>
      command host (.after .pointerWritten)
      let completion ← RefreshPublication.commit host
      pure (.ok completion)

/-- `RefreshPublication::handoff_with`: the locals are dropped in the order staged outputs, array,
batch. -/
def RefreshPublication.handoff (ready : ReadyArray A) :
    Run A D V N (Except Int (Except CompletionError Unit)) := do
  modify fun w => { w with ready, staged := some true }
  withDrop (withDrop (withDrop (RefreshPublication.write host) (StagedOutputs.drop host))
    (ReadyArray.drop host)) (Batch.drop host)

/-- `marshal_status`. -/
def MarshalFailure.status : MarshalFailure → Int
  | .invalidCount => -2147024809
  | .backend status => status

/-- `RtdRefreshBatch::marshal`, then `RefreshPublication::handoff`, as `refresh_data_inner` calls
them. -/
def publish (batch : Batch V) : Run A D V N (Except Int (Except CompletionError Unit)) := do
  match ← RefreshPublication.prepare host batch with
  | .error error => pure (.error error.status)
  | .ok ready => RefreshPublication.handoff host ready

/-- Where a publication starts: the batch is collected and `RawOutputSlots::initialize` has cleared
the outputs. -/
def World.start (core : PublishCore V N) (refreshId : Nat) (updates : List (RtdUpdate V)) :
    World A D V N where
  history  := []
  building := ⟨none, false⟩
  ready    := ⟨none, 0⟩
  staged   := none
  batch    := some ⟨refreshId, updates, false⟩
  outputs  := .cleared
  core

end Xlfn.Subscription.Publication
