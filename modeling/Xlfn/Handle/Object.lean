import Xlfn.Lib.Machine
import Xlfn.Lib.Table
import Xlfn.Kernel.Quota

/-!
# Xlfn — the object arena

`handle/object.rs` keeps the payloads behind formula handles. An `ObjectEntry` is
kept alive by counted bindings and pins; the release that brings both counts to zero
removes the entry under the shard's mutex and destroys the payload after unlocking.

This module is the machine of an `ObjectArena`: one step is one critical section of a
shard, or one part of a release or of a sweep over all shards that runs outside such
a section. Calls of different threads, and calls a destructor makes from inside a
release, interleave freely.

* `duplicate_binding` and `acquire_pin` are stepped with any identity and any cell
  address, so a stale admission is one of the runs.
* `seal` and `finish_quiescence` take the 32 mutexes one after the other, in order,
  and touch one shard a step.
* `OBSERVED` is an input of the pin release: both instantiations run.
* A release past its critical section is a frame in the address space. There are no
  more frames than addresses, so one more release begins only where fewer than
  `usizeMax` are in progress.

`inserted`, `discarded`, `destroyed`, `admitted` and `seen` are history. A function
that can reach `fail_stop` returns an `Option`, and `none` is the aborted process.
-/

namespace Xlfn.Handle

open Lib Kernel

-- ---- Identities, errors and counts.

structure ObjectId where
  session  : Nat
  sequence : Nat
deriving DecidableEq

inductive DiagnosticId where
  | handlePins
  | handleObjects
deriving DecidableEq

/-- The errors of the arena. -/
inductive XllError where
  | closing
  | staleHandle
  | overflow
  | panic
  | internal (diagnosticId : DiagnosticId)
deriving DecidableEq

/-- The ceiling of `ObjectBindingCount` and `ObjectPinCount`. -/
def u32Max : Nat := 0xFFFFFFFF

/-- `checked_add(1)` on a counter whose largest value is `ceiling`. -/
def checkedAdd (ceiling value : Nat) : Option Nat :=
  if value < ceiling then some (value + 1) else none

theorem checkedAdd_eq_some {ceiling value next : Nat} (h : checkedAdd ceiling value = some next) :
    next = value + 1 ∧ value < ceiling := by
  unfold checkedAdd at h
  split at h
  · cases h
    exact ⟨rfl, ‹_›⟩
  · cases h

def objectShardCount : Nat := 32

/-- The index of `ObjectArena::state`. -/
def ObjectId.shardIndex (id : ObjectId) : Fin objectShardCount :=
  ⟨Nat.land id.sequence (objectShardCount - 1), Nat.lt_of_le_of_lt Nat.and_le_right (by decide)⟩

-- ---- One shard.

/-- `cell` is the address of the allocation the entry owns. -/
structure ObjectEntry where
  cell     : Nat
  bindings : Nat
  pins     : Nat
deriving DecidableEq

/-- `Mutex<ObjectArenaState>`; `lock` is the sweep that holds the mutex. A critical
section of one shard is one step and leaves no mark. -/
structure ObjectArenaState where
  lock           : Option Nat
  objects        : Table ObjectId ObjectEntry
  activePins     : Nat
  activeReleases : Nat
  isSealed       : Bool

namespace ObjectArenaState

def default : ObjectArenaState where
  lock           := none
  objects        := ∅
  activePins     := 0
  activeReleases := 0
  isSealed       := false

section

variable (state : ObjectArenaState)

/-- The critical section of `FreshObject::insert`. -/
def insert (id : ObjectId) (cell : Nat) : Except XllError ObjectArenaState :=
  if state.isSealed then
    .error .closing
  else
    .ok { state with objects := state.objects.insert id ⟨cell, 1, 0⟩ }

/-- `objects.get_mut(&id)`, refused when another allocation stands behind the
identity. -/
def entryOf (id : ObjectId) (cell : Nat) : Except XllError ObjectEntry :=
  match state.objects.lookup id with
  | none => .error .staleHandle
  | some entry => if entry.cell = cell then .ok entry else .error .staleHandle

def duplicateBinding (id : ObjectId) (cell : Nat) : Except XllError ObjectArenaState :=
  if state.isSealed then
    .error .closing
  else do
    let entry ← state.entryOf id cell
    match checkedAdd u32Max entry.bindings with
    | none => .error .overflow
    | some bindings => .ok { state with objects := state.objects.insert id { entry with bindings } }

def acquirePin (usizeMax : Nat) (state : ObjectArenaState) (id : ObjectId) (cell : Nat) :
    Except XllError ObjectArenaState :=
  if state.isSealed then
    .error .closing
  else
    match checkedAdd usizeMax state.activePins with
    | none => .error .overflow
    | some activePins => do
      let entry ← state.entryOf id cell
      match checkedAdd u32Max entry.pins with
      | none => .error .overflow
      | some pins =>
        .ok { state with objects := state.objects.insert id { entry with pins }, activePins }

/-- `begin_release`: the completion guard is registered in the critical section that
removes the capability. -/
def beginRelease (usizeMax : Nat) (state : ObjectArenaState) : Option ObjectArenaState :=
  (checkedAdd usizeMax state.activeReleases).map fun activeReleases =>
    { state with activeReleases }

/-- The critical section of `release_binding`, with the cell it retires. -/
def releaseBinding (usizeMax : Nat) (state : ObjectArenaState) (id : ObjectId) :
    Option (ObjectArenaState × Option Nat) := do
  let entry ← state.objects.lookup id
  let bindings ← checkedAtomicDec entry.bindings
  if bindings ≠ 0 ∨ entry.pins ≠ 0 then
    some ({ state with objects := state.objects.insert id { entry with bindings } }, none)
  else
    let state ← state.beginRelease usizeMax
    some ({ state with objects := state.objects.erase id }, some entry.cell)

/-- The critical section of `release_pin_observed`. The second component is `none`
when the call returns at once; otherwise it holds the completion guard, with the cell
it retires. -/
def releasePinObserved (observed : Bool) (usizeMax : Nat) (state : ObjectArenaState)
    (id : ObjectId) : Option (ObjectArenaState × Option (Option Nat)) := do
  let entry ← state.objects.lookup id
  let pins ← checkedAtomicDec entry.pins
  let reclaim := entry.bindings == 0 && pins == 0
  let activePins ← checkedAtomicDec state.activePins
  let state :=
    { state with objects := state.objects.insert id { entry with pins }, activePins }
  if !reclaim && !observed then
    some (state, none)
  else
    let state ← state.beginRelease usizeMax
    if reclaim then
      some ({ state with objects := state.objects.erase id }, some (some entry.cell))
    else
      some (state, some none)

/-- The drop of the completion guard. -/
def endRelease : Option ObjectArenaState :=
  (checkedAtomicDec state.activeReleases).map fun activeReleases => { state with activeReleases }

end

end ObjectArenaState

-- ---- The arena.

/-- `cleanup` is the first failure of `HandleCleanupState`. -/
structure ObjectArena where
  nextObjectId : Nat
  states       : Fin objectShardCount → ObjectArenaState
  cleanup      : Option XllError

namespace ObjectArena

def new : ObjectArena where
  nextObjectId := 1
  states       := fun _ => ObjectArenaState.default
  cleanup      := none

section

variable (arena : ObjectArena)

def state (id : ObjectId) : ObjectArenaState := arena.states id.shardIndex

def setState (i : Fin objectShardCount) (state : ObjectArenaState) : ObjectArena :=
  { arena with states := Function.update arena.states i state }

/-- The entry of an object, looked up in its shard. -/
def entry (id : ObjectId) : Option ObjectEntry :=
  (arena.state id).objects.lookup id

/-- `ObjectArena::reserve`. -/
def reserve (session : Nat) : Except XllError (ObjectArena × ObjectId) :=
  match checkedIncrement arena.nextObjectId with
  | none => .error .overflow
  | some next => .ok ({ arena with nextObjectId := next }, ⟨session, arena.nextObjectId⟩)

/-- `HandleCleanupState::record`: the first failure stays. -/
def recordFailure (error : XllError) : ObjectArena :=
  { arena with cleanup := arena.cleanup.or (some error) }

/-- `HandleCleanupState::result`. -/
def cleanupResult : Except XllError Unit :=
  match arena.cleanup with
  | none => .ok ()
  | some error => .error error

end

end ObjectArena

-- ---- Capabilities, release calls and sweeps.

/-- An `ObjectBinding` or a `RawObjectLeaseGuard`. -/
structure Capability where
  id   : ObjectId
  cell : Nat
deriving DecidableEq

/-- What a release that holds a completion guard still has to do. -/
inductive ReleasePhase where
  | recording (retired : Option Nat)
  | destroying (cell : Nat)
  | reporting
  | finishing
deriving DecidableEq

structure Release where
  id    : ObjectId
  phase : ReleasePhase
deriving DecidableEq

/-- The release still has the object's payload to destroy. -/
def Release.owes (release : Release) : Bool :=
  match release.phase with
  | .recording (some _) | .destroying _ => true
  | _ => false

inductive SweepKind where
  | seal
  | finishQuiescence
deriving DecidableEq

/-- Where a sweep over all shards stands. `unlocking` carries the result a sweep
returns after its guards, or `none` where it still reads `cleanup`. -/
inductive SweepPc where
  | locking (next : Nat)
  | sealing (next : Nat)
  | pins (next : Nat)
  | objects (next : Nat)
  | unlocking (next : Nat) (result : Option (Except XllError Unit))
  | cleanup
  | done (result : Except XllError Unit)

structure Sweep where
  kind : SweepKind
  pc   : SweepPc
  seen : List ObjectId

structure ArenaSystem where
  arena     : ObjectArena
  fresh     : List ObjectId
  bindings  : List Capability
  pins      : List Capability
  releases  : List Release
  sweeps    : List Sweep
  aborted   : Bool
  inserted  : List ObjectId
  discarded : List ObjectId
  destroyed : List ObjectId
  admitted  : Nat

namespace ArenaSystem

def new : ArenaSystem where
  arena     := ObjectArena.new
  fresh     := []
  bindings  := []
  pins      := []
  releases  := []
  sweeps    := []
  aborted   := false
  inserted  := []
  discarded := []
  destroyed := []
  admitted  := 0

section

variable (s : ArenaSystem)

/-- The live `ObjectBinding`s of an object. -/
def bindingsOf (id : ObjectId) : Nat := s.bindings.countP fun c => c.id == id

/-- The live pin guards of an object. -/
def pinsOf (id : ObjectId) : Nat := s.pins.countP fun c => c.id == id

inductive Action where
  | reserve (session : Nat)
  | insert (receipt cell : Nat)
  | duplicateBinding (id : ObjectId) (cell : Nat)
  | acquirePin (id : ObjectId) (cell : Nat)
  | dropBinding (binding : Nat)
  | dropPin (observed : Bool) (pin : Nat)
  | release (call : Nat) (panicked : Bool)
  | startSweep (kind : SweepKind)
  | sweep (call : Nat)

/-- A critical section of one shard runs while no sweep holds its mutex. -/
def unlocked (id : ObjectId) : Bool := (s.arena.state id).lock.isNone

/-- Leave a critical section of the shard of `id`. -/
def store (id : ObjectId) (state : ObjectArenaState) : ArenaSystem :=
  { s with arena := s.arena.setState id.shardIndex state }

/-- `PendingObjectBinding::new`, first half: a fresh identity. -/
def reserve (session : Nat) : ArenaSystem :=
  match s.arena.reserve session with
  | .error _ => s
  | .ok (arena, id) => { s with arena, fresh := s.fresh ++ [id] }

/-- `FreshObject::insert`. A refused payload is dropped by the caller, after the
guard of the mutex. -/
def insert (receipt cell : Nat) : Option ArenaSystem := do
  let id ← s.fresh[receipt]?
  guard (s.unlocked id)
  let s := { s with fresh := s.fresh.eraseIdx receipt }
  match (s.arena.state id).insert id cell with
  | .error _ => some { s with discarded := s.discarded ++ [id] }
  | .ok state =>
    some { s.store id state with
      bindings := s.bindings ++ [⟨id, cell⟩]
      inserted := s.inserted ++ [id]
      admitted := s.admitted + 1 }

def duplicateBinding (id : ObjectId) (cell : Nat) : Option ArenaSystem := do
  guard (s.unlocked id)
  match (s.arena.state id).duplicateBinding id cell with
  | .error _ => some s
  | .ok state =>
    some { s.store id state with
      bindings := s.bindings ++ [⟨id, cell⟩]
      admitted := s.admitted + 1 }

def acquirePin (usizeMax : Nat) (s : ArenaSystem) (id : ObjectId) (cell : Nat) :
    Option ArenaSystem := do
  guard (s.unlocked id)
  match (s.arena.state id).acquirePin usizeMax id cell with
  | .error _ => some s
  | .ok state =>
    some { s.store id state with
      pins     := s.pins ++ [⟨id, cell⟩]
      admitted := s.admitted + 1 }

/-- `ObjectBinding::drop` up to the end of its critical section. -/
def dropBinding (usizeMax : Nat) (s : ArenaSystem) (binding : Nat) : Option ArenaSystem := do
  let capability ← s.bindings[binding]?
  guard (s.unlocked capability.id ∧ s.releases.length < usizeMax)
  let s := { s with bindings := s.bindings.eraseIdx binding }
  match (s.arena.state capability.id).releaseBinding usizeMax capability.id with
  | none => some { s with aborted := true }
  | some (state, none) => some (s.store capability.id state)
  | some (state, some cell) =>
    some { s.store capability.id state with
      releases := s.releases ++ [⟨capability.id, .destroying cell⟩] }

/-- `RawObjectLeaseGuard::drop` up to the end of its critical section. -/
def dropPin (observed : Bool) (usizeMax : Nat) (s : ArenaSystem) (pin : Nat) :
    Option ArenaSystem := do
  let capability ← s.pins[pin]?
  guard (s.unlocked capability.id ∧ s.releases.length < usizeMax)
  let s := { s with pins := s.pins.eraseIdx pin }
  match (s.arena.state capability.id).releasePinObserved observed usizeMax capability.id with
  | none => some { s with aborted := true }
  | some (state, none) => some (s.store capability.id state)
  | some (state, some retired) =>
    let phase : ReleasePhase :=
      if observed then .recording retired
      else match retired with
        | some cell => .destroying cell
        | none => .finishing
    some { s.store capability.id state with releases := s.releases ++ [⟨capability.id, phase⟩] }

/-- The rest of a release call, outside the mutex until the guard is dropped:
recording the observation, `destroy` with a destructor that may unwind, the report of
the unwind, and the drop of the completion guard. -/
def release (s : ArenaSystem) (call : Nat) (panicked : Bool) : Option ArenaSystem := do
  let release ← s.releases[call]?
  match release.phase with
  | .recording retired =>
    let phase : ReleasePhase := match retired with
      | some cell => .destroying cell
      | none => .finishing
    some { s with releases := s.releases.set call ⟨release.id, phase⟩ }
  | .destroying _ =>
    let phase : ReleasePhase := if panicked then .reporting else .finishing
    some { s with
      releases  := s.releases.set call ⟨release.id, phase⟩
      destroyed := s.destroyed ++ [release.id] }
  | .reporting =>
    some { s with
      arena    := s.arena.recordFailure .panic
      releases := s.releases.set call ⟨release.id, .finishing⟩ }
  | .finishing =>
    guard (s.unlocked release.id)
    let s := { s with releases := s.releases.eraseIdx call }
    match (s.arena.state release.id).endRelease with
    | none => some { s with aborted := true }
    | some state => some (s.store release.id state)

/-- Change the shard a sweep stands at. -/
def modifyShard (i : Fin objectShardCount)
    (f : ObjectArenaState → ObjectArenaState) : ArenaSystem :=
  { s with arena := s.arena.setState i (f (s.arena.states i)) }

end

/-- One step of `seal` or `finish_quiescence`. -/
def sweep (s : ArenaSystem) (call : Nat) : Option ArenaSystem := do
  let sweep ← s.sweeps[call]?
  let goto (s : ArenaSystem) (pc : SweepPc) : ArenaSystem :=
    { s with sweeps := s.sweeps.set call { sweep with pc } }
  match sweep.pc with
  | .locking next =>
    if h : next < objectShardCount then
      guard (s.arena.states ⟨next, h⟩).lock.isNone
      some (goto (s.modifyShard ⟨next, h⟩ fun st => { st with lock := some call })
        (.locking (next + 1)))
    else
      let pc : SweepPc := match sweep.kind with
        | .seal => .sealing 0
        | .finishQuiescence => .pins 0
      some { s with sweeps := s.sweeps.set call { sweep with pc, seen := s.inserted } }
  | .sealing next =>
    if h : next < objectShardCount then
      some (goto (s.modifyShard ⟨next, h⟩ fun st => { st with isSealed := true })
        (.sealing (next + 1)))
    else
      some (goto s (.unlocking 0 (some (.ok ()))))
  | .pins next =>
    if h : next < objectShardCount then
      if (s.arena.states ⟨next, h⟩).activePins ≠ 0 then
        some (goto s (.unlocking 0 (some (.error (.internal .handlePins)))))
      else
        some (goto s (.pins (next + 1)))
    else
      some (goto s (.objects 0))
  | .objects next =>
    if h : next < objectShardCount then
      if (s.arena.states ⟨next, h⟩).objects.keys ≠ [] ∨
          (s.arena.states ⟨next, h⟩).activeReleases ≠ 0 then
        some (goto s (.unlocking 0 (some (.error (.internal .handleObjects)))))
      else
        some (goto s (.objects (next + 1)))
    else
      some (goto s (.unlocking 0 none))
  | .unlocking next result =>
    if h : next < objectShardCount then
      some (goto (s.modifyShard ⟨next, h⟩ fun st => { st with lock := none })
        (.unlocking (next + 1) result))
    else
      match result with
      | some result => some (goto s (.done result))
      | none => some (goto s .cleanup)
  | .cleanup => some (goto s (.done s.arena.cleanupResult))
  | .done _ => none

/-- One step of the system; an aborted process takes none. -/
def step (usizeMax : Nat) (s : ArenaSystem) (action : Action) : Option ArenaSystem :=
  if s.aborted then
    none
  else
    match action with
    | .reserve session => some (s.reserve session)
    | .insert receipt cell => s.insert receipt cell
    | .duplicateBinding id cell => s.duplicateBinding id cell
    | .acquirePin id cell => s.acquirePin usizeMax id cell
    | .dropBinding binding => s.dropBinding usizeMax binding
    | .dropPin observed pin => s.dropPin observed usizeMax pin
    | .release call panicked => s.release call panicked
    | .startSweep kind => some { s with sweeps := s.sweeps ++ [⟨kind, .locking 0, []⟩] }
    | .sweep call => s.sweep call

end ArenaSystem

end Xlfn.Handle
