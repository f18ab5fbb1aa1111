import Xlfn.Kernel.GateErrand

/-!
# Xlfn — the generation service slot

`GenerationServiceSlot` builds a service lazily, once for each time it is armed.
The first reader of a cold slot takes the configuration out of the state, runs
the caller's initializer without the lock, and publishes the result; `seal`
withdraws the service, waits for its readers and runs the caller's shutdown.
While a callback runs, the slot is `Initializing` or `Sealing`, and the thread
that put it there owns the phase: everybody else waits or is refused.

The machine below is `arm`, `disarm`, `read`, `read_slow`, `InitializingTxn`,
`begin_seal`, `SealingTxn` and `QuiescedTxn`, one atomic access a step. The
state lock is held by the thread whose program counter is inside a locked
section (`SlotThread.locks`); a thread that waits on the condition variable
stays where it takes the lock again.

* `SlotThread` — one call, and where it is.
* `fails`, `panics` — the callback of a thread returns an error, or unwinds.

`arms`, `services` and `runs` are history: how often the slot was armed, how
many services were built, and for which arms the initializer was run.
-/

namespace Xlfn.Kernel

open Lib StripedDrainGate GateSystem

inductive ServiceFault (E : Type) where
  | error (e : E)
  | panicked
deriving DecidableEq

inductive ServiceSlotError (E : Type) where
  | closed
  | fault (f : ServiceFault E)
deriving DecidableEq

/-- A configuration is known by the arm that brought it, a runtime by its number. -/
inductive GenerationServiceState (E : Type) where
  | closed
  | cold (config : Nat)
  | initializing
  | ready (runtime : Nat)
  | sealing
  | initFaulted (fault : ServiceFault E)
  | teardownFaulted (fault : ServiceFault E) (runtime : Nat)
deriving DecidableEq

/-- One call of the slot. `user` is the place of its permit among the users of
the gate. -/
inductive SlotThread (E : Type) (N : Nat) where
  /-- `read_if_ready`. -/
  | readStart (stripe : Fin N)
  | readEnter (stripe : Fin N) (user : Nat)
  | readPointer (stripe : Fin N) (user : Nat)
  | readBack (stripe : Fin N) (user : Nat)
  | reading (user : Nat) (service : Nat)
  | releasing (user : Nat)
  /-- `read_slow` wants the state lock. -/
  | readLock (stripe : Fin N)
  /-- `initialize(config)` runs. -/
  | initializing (stripe : Fin N)
  /-- `on_initialized(&runtime)` runs. -/
  | initialized (stripe : Fin N) (service : Nat)
  | commitLock (stripe : Fin N) (service : Nat)
  | commitStore (stripe : Fin N) (service : Nat)
  | commitReopen (stripe : Fin N) (service : Nat) (stage : ErrandStage)
  | commitEnter (stripe : Fin N) (service : Nat) (user : Nat)
  | faulting (fault : ServiceFault E)
  /-- `begin_seal` wants the state lock. -/
  | sealLock
  | sealGate (service : Nat) (stage : ErrandStage)
  | sealWithdraw (service : Nat)
  | sealWait (service : Nat) (stage : ErrandStage)
  /-- `shutdown(&runtime)` runs. -/
  | shutdown (service : Nat)
  | sealFinish (service : Nat) (fault : Option (ServiceFault E))
  | armLock
  | armSealed (i : Nat)
  | armActive (i : Nat)
  | armPublished
  | disarmLock
  | finished (error : Option (ServiceSlotError E))
deriving DecidableEq

/-- The state lock is held here. -/
def SlotThread.locks {E : Type} {N : Nat} : SlotThread E N → Bool
  | .commitStore _ _ => true
  | .commitReopen _ _ _ => true
  | .commitEnter _ _ _ => true
  | .sealGate _ _ => true
  | .sealWithdraw _ => true
  | .armSealed _ => true
  | .armActive _ => true
  | .armPublished => true
  | _ => false

/-- The unique initialization claim is here. -/
def SlotThread.ownsInitializing {E : Type} {N : Nat} : SlotThread E N → Bool
  | .initializing _ => true
  | .initialized _ _ => true
  | .commitLock _ _ => true
  | .faulting _ => true
  | _ => false

/-- The unique sealing claim is here. -/
def SlotThread.ownsSealing {E : Type} {N : Nat} : SlotThread E N → Bool
  | .sealGate _ _ => true
  | .sealWithdraw _ => true
  | .sealWait _ _ => true
  | .shutdown _ => true
  | .sealFinish _ _ => true
  | _ => false

structure GenerationServiceSlot (E : Type) (w N : Nat) where
  readers   : GateSystem w N
  published : Option Nat
  state     : GenerationServiceState E
  threads   : List (SlotThread E N)
  arms      : Nat
  services  : Nat
  runs      : List Nat
  /-- A `fail_stop` branch of a commit was taken. -/
  aborted   : Bool

namespace GenerationServiceSlot

variable {E : Type} {w N : Nat}

/-- `GenerationServiceSlot::new`. -/
def new : GenerationServiceSlot E w N where
  readers   := .new true
  published := none
  state     := .closed
  threads   := []
  arms      := 0
  services  := 0
  runs      := []
  aborted   := false

section

variable (s : GenerationServiceSlot E w N)

def setThread (k : Nat) (x : SlotThread E N) : GenerationServiceSlot E w N :=
  { s with threads := s.threads.set k x }

def setGate (gate : GateSystem w N) : GenerationServiceSlot E w N :=
  { s with readers := gate }

def setState (state : GenerationServiceState E) : GenerationServiceSlot E w N :=
  { s with state := state }

def setPublished (service : Option Nat) : GenerationServiceSlot E w N :=
  { s with published := service }

def abort : GenerationServiceSlot E w N :=
  { s with aborted := true }

/-- The state lock is held. -/
def locked : Bool := s.threads.any (·.locks)

/-- The next access of thread `k` as a user of the gate. -/
def userStep (k user : Nat)
    (next : Option (GateUser N) → SlotThread E N) : Option (GenerationServiceSlot E w N) :=
  (s.readers.step .striped (.user user)).map fun gate =>
    (s.setGate gate).setThread k (next gate.users[user]?)

/-- The next access of a chain on the gate. -/
def drive (k : Nat) (running : ErrandStage → SlotThread E N)
    (finished : GateSystem w N → GenerationServiceSlot E w N) :
    Progress (GateSystem w N) ErrandStage → GenerationServiceSlot E w N
  | .running gate stage => (s.setGate gate).setThread k (running stage)
  | .done gate _ => finished gate
  | .failStop => s.abort

/-- What `read_slow` does with the state lock. -/
def readSlow (k : Nat) (stripe : Fin N) : Option (GenerationServiceSlot E w N) :=
  match s.state with
  | .ready _ => some (s.setThread k (.readStart stripe))
  | .initFaulted fault => some (s.setThread k (.finished (some (.fault fault))))
  | .teardownFaulted fault _ => some (s.setThread k (.finished (some (.fault fault))))
  | .initializing => none
  | .sealing => none
  | .cold config =>
    some ({ s.setState .initializing with runs := s.runs ++ [config] }.setThread k
      (.initializing stripe))
  | .closed => some (s.setThread k (.finished (some .closed)))

/-- What `begin_seal` does with the state lock. -/
def beginSeal (k : Nat) : Option (GenerationServiceSlot E w N) :=
  match s.state with
  | .initializing => none
  | .sealing => none
  | .teardownFaulted fault _ => some (s.setThread k (.finished (some (.fault fault))))
  | .ready runtime => some ((s.setState .sealing).setThread k (.sealGate runtime .claim))
  | .cold _ => some ((s.setState .closed).setThread k (.finished none))
  | .initFaulted _ => some ((s.setState .closed).setThread k (.finished none))
  | .closed => some ((s.setState .closed).setThread k (.finished none))

/-- What `disarm` does with the state lock. -/
def disarm (k : Nat) : GenerationServiceSlot E w N :=
  match s.state with
  | .cold _ => (s.setState .closed).setThread k (.finished none)
  | .initFaulted _ => (s.setState .closed).setThread k (.finished none)
  | .closed => s.setThread k (.finished none)
  | _ => s.setThread k (.finished (some .closed))

/-- One atomic access of thread `k`; callbacks succeed. -/
def threadStep (k : Nat) : SlotThread E N → Option (GenerationServiceSlot E w N)
  | .readStart stripe =>
    some ((s.setGate (s.readers.admitted stripe)).setThread k
      (.readEnter stripe s.readers.users.length))
  | .readEnter stripe user =>
    s.userStep k user fun x =>
      if x = some (.holding stripe) then .readPointer stripe user else .readLock stripe
  | .readPointer stripe user =>
    match s.published with
    | some service => some (s.setThread k (.reading user service))
    | none => some (s.setThread k (.readBack stripe user))
  | .readBack stripe user =>
    s.userStep k user fun x =>
      if x = some .finished then .readLock stripe else .readBack stripe user
  | .reading user _ =>
    s.userStep k user fun x => if x = some .finished then .finished none else .releasing user
  | .releasing user =>
    s.userStep k user fun x => if x = some .finished then .finished none else .releasing user
  | .readLock stripe => if s.locked then none else s.readSlow k stripe
  | .initializing stripe =>
    some ({ s with services := s.services + 1 }.setThread k (.initialized stripe s.services))
  | .initialized stripe service => some (s.setThread k (.commitLock stripe service))
  | .commitLock stripe service =>
    if s.locked then none
    else some ((s.setState (.ready service)).setThread k (.commitStore stripe service))
  | .commitStore stripe service =>
    some ((s.setPublished (some service)).setThread k (.commitReopen stripe service .claim))
  | .commitReopen stripe service stage =>
    (GateErrand.waitAndReopen.step s.readers stage).map
      (s.drive k (.commitReopen stripe service) fun gate =>
        (s.setGate (gate.admitted stripe)).setThread k
          (.commitEnter stripe service gate.users.length))
  | .commitEnter stripe service user =>
    (s.readers.step .striped (.user user)).map fun gate =>
      if gate.users[user]? = some (.holding stripe) then
        (s.setGate gate).setThread k (.reading user service)
      else if gate.aborted.isSome then s.setGate gate
      else s.abort
  | .faulting fault =>
    if s.locked then none
    else some ((s.setState (.initFaulted fault)).setThread k (.finished (some (.fault fault))))
  | .sealLock => if s.locked then none else s.beginSeal k
  | .sealGate service stage =>
    (GateErrand.doSeal.step s.readers stage).map
      (s.drive k (.sealGate service) fun gate => (s.setGate gate).setThread k (.sealWithdraw service))
  | .sealWithdraw service =>
    some ((s.setPublished none).setThread k (.sealWait service .claim))
  | .sealWait service stage =>
    (GateErrand.sealAndWait.step s.readers stage).map
      (s.drive k (.sealWait service) fun gate => (s.setGate gate).setThread k (.shutdown service))
  | .shutdown service => some (s.setThread k (.sealFinish service none))
  | .sealFinish service fault =>
    if s.locked then none
    else match fault with
    | none => some ((s.setState .closed).setThread k (.finished none))
    | some fault =>
      some ((s.setState (.teardownFaulted fault service)).setThread k
        (.finished (some (.fault fault))))
  | .armLock =>
    if s.locked then none
    else match s.state with
    | .closed => some (s.setThread k (.armSealed 0))
    | _ => some (s.setThread k (.finished (some .closed)))
  | .armSealed i =>
    if h : i < N then
      if isSealed (s.readers.gate.counters ⟨i, h⟩) then some (s.setThread k (.armSealed (i + 1)))
      else some (s.setThread k (.finished (some .closed)))
    else some (s.setThread k (.armActive 0))
  | .armActive i =>
    if h : i < N then
      if active (s.readers.gate.counters ⟨i, h⟩) = 0 then some (s.setThread k (.armActive (i + 1)))
      else some (s.setThread k (.finished (some .closed)))
    else some (s.setThread k .armPublished)
  | .armPublished =>
    if s.published = none then
      some ({ s.setState (.cold s.arms) with arms := s.arms + 1 }.setThread k (.finished none))
    else some (s.setThread k (.finished (some .closed)))
  | .disarmLock => if s.locked then none else some (s.disarm k)
  | .finished _ => none

/-- The callback that thread `k` runs ends with a fault: an error, or `Panicked`
when it, or the copy of its error, unwinds. -/
def callbackFault (k : Nat) (fault : ServiceFault E) :
    SlotThread E N → Option (GenerationServiceSlot E w N)
  | .initializing _ => some (s.setThread k (.faulting fault))
  | .initialized _ _ =>
    if fault matches .panicked then some (s.setThread k (.faulting fault)) else none
  | .shutdown service => some (s.setThread k (.sealFinish service (some fault)))
  | _ => none

end

/-- The calls of the slot. -/
inductive Call (N : Nat) where
  | arm
  | read (stripe : Fin N)
  | doSeal
  | disarm
deriving DecidableEq

def Call.start : Call N → SlotThread E N
  | .arm => .armLock
  | .read stripe => .readStart stripe
  | .doSeal => .sealLock
  | .disarm => .disarmLock

inductive Action (E : Type) (N : Nat) where
  /-- A new call. -/
  | call (c : Call N)
  /-- The next access of one thread. -/
  | thread (k : Nat)
  /-- The callback of one thread fails or unwinds. -/
  | fault (k : Nat) (f : ServiceFault E)
deriving DecidableEq

def step (s : GenerationServiceSlot E w N) (action : Action E N) :
    Option (GenerationServiceSlot E w N) :=
  if s.aborted ∨ s.readers.aborted.isSome then none
  else match action with
  | .call c => some { s with threads := s.threads ++ [c.start] }
  | .thread k =>
    match s.threads[k]? with
    | some x => s.threadStep k x
    | none => none
  | .fault k f =>
    match s.threads[k]? with
    | some x => s.callbackFault k f x
    | none => none

end GenerationServiceSlot

end Xlfn.Kernel
