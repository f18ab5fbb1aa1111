import Xlfn.Kernel.GateErrand

/-!
# Xlfn — the replaceable service slot

`ReplaceableServiceSlot` keeps the current service in one of two lanes. A
replacement installs its candidate into the other lane, opens that lane's gate,
switches the active index, and then seals, drains and empties the old lane. A
reader picks the active lane, takes a permit of its gate, checks that the lane is
still the active one and only then loads the lane's pointer.

The machine below is `read_if_ready`, `replace_with` and `close`, one atomic
access a step. Each lane's gate is a whole `GateSystem`: readers come in as its
users, and the transition drives its control claim through `GateErrand`.

* `SlotReader` — one call of `read_if_ready` and the read it returns.
* `TransitionStage` — where the holder of the transition lock is.
* `precommitFails` — the caller's callback returns an error or unwinds; either
  way the transition is dropped and gives back what it took.

`candidates`, `installed`, `retired` and `before` are history: how many
candidates were brought, which of them were published, which services were
handed back, and what the slot looked like when the transition lock was taken.
-/

namespace Xlfn.Kernel

open Lib StripedDrainGate GateSystem

/-- A lane of `ReplaceableServiceSlot::lanes`; `1 - index` is `!`. -/
abbrev LaneIndex := Bool

/-- `PreviousLane`: an allocation with the lane that publishes it. -/
structure OwnedLane where
  index : LaneIndex
  owner : Nat
deriving DecidableEq

/-- One call of `read_if_ready`; `user` is its place among the users of a lane. -/
inductive SlotReader (N : Nat) where
  | load (stripe : Fin N)
  | enter (stripe : Fin N) (lane : LaneIndex) (user : Nat)
  | validate (stripe : Fin N) (lane : LaneIndex) (user : Nat)
  | pointer (stripe : Fin N) (lane : LaneIndex) (user : Nat)
  | reading (lane : LaneIndex) (user : Nat) (service : Nat)
  /-- The permit is being dropped; the loop goes on with `retry`, if any. -/
  | release (lane : LaneIndex) (user : Nat) (retry : Option (Fin N))
  | finished
deriving DecidableEq

/-- What of the slot the transition lock protects or publishes. -/
structure SlotView where
  active    : Option LaneIndex
  published : LaneIndex → Option Nat
  current   : Option OwnedLane
  retained  : LaneIndex → Option Nat

inductive TransitionStage where
  /-- `prepare`: the idle lane is checked, one load a step. -/
  | checkSealed (candidate i : Nat)
  | checkActive (candidate i : Nat)
  | checkLane (candidate : Nat)
  | precommit (candidate : Nat)
  /-- `publish`. -/
  | storePublished (service : Nat)
  | reopen (stage : ErrandStage)
  | storeActive
  /-- `withdraw` of a closing transition. -/
  | withdraw
  | sealPrevious (stage : ErrandStage)
  | waitPrevious (stage : ErrandStage)
  | reclaim
deriving DecidableEq

/-- `Transition`, with the view of the slot it started from. -/
structure SlotTransition where
  stage    : TransitionStage
  previous : Option OwnedLane
  target   : LaneIndex
  before   : SlotView

/-- The `fail_stop` branches of the slot. -/
inductive SlotAbort where
  | read
  | prepare
  | publish
deriving DecidableEq

structure ReplaceableServiceSlot (w N : Nat) where
  lanes      : LaneIndex → GateSystem w N
  published  : LaneIndex → Option Nat
  active     : Option LaneIndex
  current    : Option OwnedLane
  retained   : LaneIndex → Option Nat
  transition : Option SlotTransition
  readers    : List (SlotReader N)
  candidates : Nat
  installed  : List Nat
  retired    : List Nat
  aborted    : Option SlotAbort

namespace ReplaceableServiceSlot

variable {w N : Nat}

/-- `ReplaceableServiceSlot::new`. -/
def new : ReplaceableServiceSlot w N where
  lanes      := fun _ => .new true
  published  := fun _ => none
  active     := none
  current    := none
  retained   := fun _ => none
  transition := none
  readers    := []
  candidates := 0
  installed  := []
  retired    := []
  aborted    := none

section

variable (s : ReplaceableServiceSlot w N)

def view : SlotView where
  active    := s.active
  published := s.published
  current   := s.current
  retained  := s.retained

def setLane (lane : LaneIndex) (gate : GateSystem w N) : ReplaceableServiceSlot w N :=
  { s with lanes := Function.update s.lanes lane gate }

def setReader (k : Nat) (reader : SlotReader N) : ReplaceableServiceSlot w N :=
  { s with readers := s.readers.set k reader }

def setPublished (lane : LaneIndex) (service : Option Nat) : ReplaceableServiceSlot w N :=
  { s with published := Function.update s.published lane service }

def goto (t : SlotTransition) (stage : TransitionStage) : ReplaceableServiceSlot w N :=
  { s with transition := some { t with stage := stage } }

def abort (why : SlotAbort) : ReplaceableServiceSlot w N :=
  { s with aborted := some why }

-- ---- Readers.

/-- The next access of a permit that is being dropped. -/
def releaseStep (k : Nat) (lane : LaneIndex) (user : Nat)
    (retry : Option (Fin N)) : Option (ReplaceableServiceSlot w N) :=
  ((s.lanes lane).step .striped (.user user)).map fun gate =>
    (s.setLane lane gate).setReader k
      (if gate.users[user]? = some .finished then
        match retry with
        | some stripe => .load stripe
        | none => .finished
      else .release lane user retry)

/-- One atomic access of reader `k`: `read_if_ready`, then the drop of its read. -/
def readerStep (k : Nat) : Option (ReplaceableServiceSlot w N) :=
  match s.readers[k]? with
  | none => none
  | some (.load stripe) =>
    match s.active with
    | none => some (s.setReader k .finished)
    | some lane =>
      some ((s.setLane lane ((s.lanes lane).admitted stripe)).setReader k
        (.enter stripe lane (s.lanes lane).users.length))
  | some (.enter stripe lane user) =>
    ((s.lanes lane).step .striped (.user user)).map fun gate =>
      (s.setLane lane gate).setReader k
        (if gate.users[user]? = some (.holding stripe) then .validate stripe lane user
        else .load stripe)
  | some (.validate stripe lane user) =>
    some (s.setReader k (if s.active = some lane then .pointer stripe lane user
      else .release lane user (some stripe)))
  | some (.pointer _ lane user) =>
    match s.published lane with
    | some service => some (s.setReader k (.reading lane user service))
    | none => some (s.abort .read)
  | some (.reading lane user _) => s.releaseStep k lane user none
  | some (.release lane user retry) => s.releaseStep k lane user retry
  | some .finished => none

-- ---- Transitions.

/-- `Transition::new`: the lock is taken and the current owner with it. -/
def lock (stage : TransitionStage) : ReplaceableServiceSlot w N :=
  { s with
    current    := none
    transition := some {
      stage
      previous := s.current
      target   := match s.current with
        | some previous => !previous.index
        | none => false
      before   := s.view } }

/-- Go on after one step of a chain on the gate of `lane`. -/
def drive (t : SlotTransition) (lane : LaneIndex)
    (running : ErrandStage → TransitionStage) (finished : TransitionStage) :
    Progress (GateSystem w N) ErrandStage → ReplaceableServiceSlot w N
  | .running gate stage => (s.setLane lane gate).goto t (running stage)
  | .done gate _ => (s.setLane lane gate).goto t finished
  | .failStop => s.abort .publish

/-- What follows the switch of the active index. -/
def retire (t : SlotTransition) : TransitionStage :=
  if t.previous.isSome then .sealPrevious .claim else .reclaim

/-- One access of the holder of the transition lock. -/
def transitionStep (t : SlotTransition) : Option (ReplaceableServiceSlot w N) :=
  match t.stage with
  | .checkSealed candidate i =>
    if h : i < N then
      if isSealed ((s.lanes t.target).gate.counters ⟨i, h⟩) then
        some (s.goto t (.checkSealed candidate (i + 1)))
      else some (s.abort .prepare)
    else some (s.goto t (.checkActive candidate 0))
  | .checkActive candidate i =>
    if h : i < N then
      if Kernel.active ((s.lanes t.target).gate.counters ⟨i, h⟩) = 0 then
        some (s.goto t (.checkActive candidate (i + 1)))
      else some (s.abort .prepare)
    else some (s.goto t (.checkLane candidate))
  | .checkLane candidate =>
    if s.published t.target = none ∧ s.retained t.target = none then
      some (s.goto t (.precommit candidate))
    else some (s.abort .prepare)
  | .precommit candidate =>
    some ({ s with
      current   := some { index := t.target, owner := candidate }
      installed := s.installed ++ [candidate] }.goto t (.storePublished candidate))
  | .storePublished service =>
    some ((s.setPublished t.target (some service)).goto t (.reopen .claim))
  | .reopen stage =>
    (GateErrand.waitAndReopen.step (s.lanes t.target) stage).map
      (s.drive t t.target .reopen .storeActive)
  | .storeActive => some ({ s with active := some t.target }.goto t (retire t))
  | .withdraw => some ({ s with active := none }.goto t (retire t))
  | .sealPrevious stage =>
    match t.previous with
    | none => none
    | some previous =>
      (GateErrand.doSeal.step (s.lanes previous.index) stage).map
        (s.drive t previous.index .sealPrevious (.waitPrevious .claim))
  | .waitPrevious stage =>
    match t.previous with
    | none => none
    | some previous =>
      (GateErrand.sealAndWait.step (s.lanes previous.index) stage).map
        (s.drive t previous.index .waitPrevious .reclaim)
  | .reclaim =>
    match t.previous with
    | none => some { s with transition := none }
    | some previous =>
      some { s.setPublished previous.index none with
        retired    := s.retired ++ [previous.owner]
        transition := none }

end

-- ---- The machine.

inductive Action (N : Nat) where
  /-- A call of `read_if_ready`. -/
  | read (stripe : Fin N)
  /-- The next access of one reader. -/
  | reader (k : Nat)
  /-- `replace_with` gets the transition lock, with a new candidate. -/
  | replace
  /-- `close` gets the transition lock. -/
  | close
  /-- The next access of the lock's holder; a precommit callback succeeds. -/
  | transition
  /-- The precommit callback fails or unwinds. -/
  | precommitFails
deriving DecidableEq

def step (s : ReplaceableServiceSlot w N) (action : Action N) :
    Option (ReplaceableServiceSlot w N) :=
  if s.aborted.isSome ∨ ∃ lane, (s.lanes lane).aborted.isSome then none
  else match action with
  | .read stripe => some { s with readers := s.readers ++ [.load stripe] }
  | .reader k => s.readerStep k
  | .replace =>
    if s.transition.isNone then
      some { s.lock (.checkSealed s.candidates 0) with candidates := s.candidates + 1 }
    else none
  | .close => if s.transition.isNone then some (s.lock .withdraw) else none
  | .transition =>
    match s.transition with
    | some t => s.transitionStep t
    | none => none
  | .precommitFails =>
    match s.transition with
    | some t =>
      match t.stage with
      | .precommit _ => some { s with current := t.previous, transition := none }
      | _ => none
    | none => none

-- ---- The invariant.

end ReplaceableServiceSlot

/-- The place of a reader among the users of a lane. -/
def SlotReader.ref {N : Nat} : SlotReader N → Option (LaneIndex × Nat)
  | .enter _ lane user => some (lane, user)
  | .validate _ lane user => some (lane, user)
  | .pointer _ lane user => some (lane, user)
  | .reading lane user _ => some (lane, user)
  | .release lane user _ => some (lane, user)
  | _ => none

namespace ReplaceableServiceSlot

variable {s s' : ReplaceableServiceSlot w N}

section

variable (s : ReplaceableServiceSlot w N)

/-- User `user` of `lane` has a permit and has not begun to release it. -/
def Holds (lane : LaneIndex) (user : Nat) : Prop :=
  ∃ stripe, (s.lanes lane).users[user]? = some (.holding stripe)

/-- What a reader knows at each point of `read_if_ready`. -/
def ReaderOk : SlotReader N → Prop
  | .validate _ lane user => s.Holds lane user
  | .pointer _ lane user => s.Holds lane user
  | .reading lane user service => s.Holds lane user ∧ s.published lane = some service
  | _ => True

/-- The services the slot owns, with their lanes. -/
def held : List OwnedLane :=
  s.current.toList ++ (s.transition.bind (·.previous)).toList

/-- The service that is to be published in a lane. -/
def ownerAt (lane : LaneIndex) : Option Nat :=
  (s.held.find? (·.index == lane)).map (·.owner)

/-- No chain is running on either gate. -/
def Unclaimed : Prop := ∀ lane, (s.lanes lane).manager = none

/-- A chain runs on `lane` alone. -/
def Claims (errand : GateErrand) (lane : LaneIndex) (stage : ErrandStage) : Prop :=
  errand.Inv (s.lanes lane) stage ∧ (s.lanes (!lane)).manager = none

/-- The slot as `prepare` finds it: nothing has been moved but the current owner,
which the transition holds, and `candidate` has not been published. -/
def Preparing (t : SlotTransition) (candidate : Nat) : Prop :=
  s.Unclaimed ∧ s.current = none ∧ t.before = { s.view with current := t.previous } ∧
    candidate < s.candidates ∧ candidate ∉ s.installed

/-- The candidate has become the current service, in the other lane. -/
def Replaced (t : SlotTransition) : Prop :=
  ∃ current, s.current = some current ∧ current.index = t.target

/-- What the holder of the transition lock knows at each stage. -/
def Stage (t : SlotTransition) : Prop :=
  match t.stage with
  | .checkSealed candidate _ => s.Preparing t candidate
  | .checkActive candidate _ => s.Preparing t candidate
  | .checkLane candidate => s.Preparing t candidate
  | .precommit candidate => s.Preparing t candidate
  | .storePublished service =>
    s.Unclaimed ∧ s.current = some { index := t.target, owner := service } ∧
      s.published t.target = none
  | .reopen stage => s.Claims .waitAndReopen t.target stage ∧ s.Replaced t
  | .storeActive => s.Unclaimed ∧ s.Replaced t
  | .withdraw => s.Unclaimed ∧ s.current = none
  | .sealPrevious stage =>
    (∃ previous, t.previous = some previous ∧ s.Claims .doSeal previous.index stage) ∧
      (s.current = none ∨ s.Replaced t)
  | .waitPrevious stage =>
    (∃ previous, t.previous = some previous ∧ s.Claims .sealAndWait previous.index stage) ∧
      (s.current = none ∨ s.Replaced t)
  | .reclaim =>
    s.Unclaimed ∧
      (∀ previous, t.previous = some previous → (s.lanes previous.index).gate.AllIdle) ∧
      (s.current = none ∨ s.Replaced t)

/-- The candidate is owned but its pointer is not stored yet. -/
def Unstored (lane : LaneIndex) : Prop :=
  ∃ t service, s.transition = some t ∧ t.stage = .storePublished service ∧ lane = t.target

end

/-- **The invariant of the slot.** -/
structure Inv (s : ReplaceableServiceSlot w N) : Prop where
  gates : ∀ lane, (s.lanes lane).Inv
  /-- Every reader has a place of its own among the users of its lane. -/
  places : Places (fun lane => (s.lanes lane).users.length) (s.readers.map (·.ref))
  readersOk : ∀ (k : Nat) x, s.readers[k]? = some x → s.ReaderOk x
  /-- A lane without a published service is sealed and drained. -/
  unpublished : ∀ lane, s.published lane = none → (s.lanes lane).gate.AllIdle
  /-- A lane publishes the service the slot owns there. -/
  owners : ∀ lane, s.published lane = s.ownerAt lane ∨
    (s.published lane = none ∧ s.Unstored lane)
  notRetained : ∀ lane, s.retained lane = none
  /-- A transition moves between the lane of its previous owner and the other one. -/
  target : ∀ t, s.transition = some t → ∀ previous, t.previous = some previous →
    t.target = !previous.index
  stage : ∀ t, s.transition = some t → s.Stage t
  unclaimed : s.transition = none → s.Unclaimed
  /-- Every installed service is handed back or still owned. -/
  conserved : s.installed.Perm (s.retired ++ s.held.map (·.owner))
  fresh : s.installed.Nodup ∧ ∀ service ∈ s.installed, service < s.candidates
  sound : s.aborted = none

theorem new_inv : (new : ReplaceableServiceSlot w N).Inv where
  gates _ := GateSystem.new_inv true
  places := ⟨fun k g u hk => by simp [new] at hk, fun k k' p hk => by simp [new] at hk⟩
  readersOk k x hx := by simp [new] at hx
  unpublished lane _ i := ⟨isSealed_sealedBit, active_sealedBit⟩
  owners lane := .inl rfl
  notRetained lane := rfl
  target t ht := by cases ht
  stage t ht := by cases ht
  unclaimed _ lane := rfl
  conserved := .refl _
  fresh := ⟨List.nodup_nil, nofun⟩
  sound := rfl

end ReplaceableServiceSlot

end Xlfn.Kernel
