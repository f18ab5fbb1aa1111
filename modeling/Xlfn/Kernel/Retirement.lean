import Xlfn.Kernel.Rotation

/-!
# Xlfn — the rotating retirement domain

`RotatingRetirementDomain` puts one retirement queue beside each generation of a
read domain. An owner whose object was unlinked is appended to the queue of the
current generation; a rotation of a generation, once drained, hands the contents
of its queue out for disposal. What ties the two together is the lock of the
queue: `register_retired` rechecks the current generation under it, and a
rotation holds it from before the seal until the other generation is published.

The machine runs the read domain of `ReadDomain.lean` unchanged
and adds the queues, the registrars and the takers of a closed domain. The
callbacks of its transitions are the domain's own and do not unwind.

An owner is opaque to the domain. It is identified by `id`, its place in the
order of registrations, and carries the number of permits that had been issued
when it was registered (`stamp`); both are history.
-/

namespace Xlfn.Kernel

open Lib

structure Owner where
  id    : Nat
  stamp : Nat
deriving DecidableEq

inductive QueueHolder where
  | registrar (r : Nat)
  | manager
  | taker (k : Nat)
  | observer
deriving DecidableEq

/-- `Mutex<Q>`: the queue of one generation. -/
structure Queue where
  lock  : Option QueueHolder
  items : List Owner
deriving DecidableEq

/-- One call of `register_retired`. -/
inductive Registrar where
  | select
  | lock (generation : GenerationIndex)
  | recheck (generation : GenerationIndex)
  | appending (generation : GenerationIndex)
  | finished
deriving DecidableEq

/-- One call of `ClosedRetirement::take_queues`. -/
inductive Taker where
  | lockFirst
  | lockSecond
  | takeFirst
  | takeSecond (first : List Owner)
  | finished
deriving DecidableEq

/-- The registrar holds the queue lock of the generation. -/
def Registrar.holds (g : GenerationIndex) : Registrar → Bool
  | .recheck g' => g' == g
  | .appending g' => g' == g
  | _ => false

/-- The taker holds the queue lock of the generation. -/
def Taker.holds (g : GenerationIndex) : Taker → Bool
  | .lockSecond => !g
  | .takeFirst => true
  | .takeSecond _ => g
  | _ => false

/-- What the taker has detached and not yet handed out. -/
def Taker.batch : Taker → List Owner
  | .takeSecond first => first
  | _ => []

structure RotatingRetirementDomain (w N : Nat) where
  domain     : RotatingReadDomain w N
  queues     : GenerationIndex → Queue
  registrars : List Registrar
  takers     : List Taker
  /-- Detached by the transition that holds the lock, not yet disposable. -/
  inflight   : List Owner
  /-- Handed out for disposal. -/
  handed     : List Owner
  /-- Every owner ever appended. -/
  registered : List Owner
  destroyed  : Bool

namespace RotatingRetirementDomain

variable {w N : Nat}

def new : RotatingRetirementDomain w N where
  domain     := .new
  queues     := fun _ => ⟨none, []⟩
  registrars := []
  takers     := []
  inflight   := []
  handed     := []
  registered := []
  destroyed  := false

section

variable (s : RotatingRetirementDomain w N)

def setQueue (g : GenerationIndex) (queue : Queue) : RotatingRetirementDomain w N :=
  { s with queues := Function.update s.queues g queue }

def setLock (g : GenerationIndex) (holder : Option QueueHolder) : RotatingRetirementDomain w N :=
  s.setQueue g { s.queues g with lock := holder }

def setRegistrar (r : Nat) (registrar : Registrar) : RotatingRetirementDomain w N :=
  { s with registrars := s.registrars.set r registrar }

def setTaker (k : Nat) (taker : Taker) : RotatingRetirementDomain w N :=
  { s with takers := s.takers.set k taker }

def setHanded (owners : List Owner) : RotatingRetirementDomain w N :=
  { s with handed := owners }

def withDomain (domain : RotatingReadDomain w N) : RotatingRetirementDomain w N :=
  { s with domain }

/-- `DetachedLocked::detach`: the contents leave the queue and its lock is dropped. -/
def detach (g : GenerationIndex) : RotatingRetirementDomain w N :=
  { s.setQueue g ⟨none, []⟩ with inflight := s.inflight ++ (s.queues g).items }

/-- `DetachedLocked::after_unlock`, once the transition lock is released. -/
def afterUnlock : RotatingRetirementDomain w N :=
  { s with inflight := [], handed := s.handed ++ s.inflight }

/-- The next access of a registrar: `register_retired!`. -/
def registrarStep (r : Nat) : Option (RotatingRetirementDomain w N) :=
  match s.registrars[r]? with
  | some .select => some (s.setRegistrar r (.lock s.domain.current))
  | some (.lock g) =>
    if (s.queues g).lock = none then
      some ((s.setLock g (some (.registrar r))).setRegistrar r (.recheck g))
    else none
  | some (.recheck g) =>
    if s.domain.current = g then some (s.setRegistrar r (.appending g))
    else some ((s.setLock g none).setRegistrar r .select)
  | some (.appending g) => some ((s.setLock g none).setRegistrar r .finished)
  | _ => none

/-- `RetirementRegistration::append`, under the queue lock. -/
def append (r : Nat) : Option (RotatingRetirementDomain w N) :=
  match s.registrars[r]? with
  | some (.appending g) =>
    let owner : Owner := ⟨s.registered.length, s.domain.issued⟩
    some { s.setQueue g { s.queues g with items := (s.queues g).items ++ [owner] } with
      registered := s.registered ++ [owner] }
  | _ => none

/-- The next access of the holder of the transition lock. The publication barrier
is the lock of the old generation's queue; the callback locks the queue of the
drained generation and detaches its contents. -/
def manage : Option (RotatingRetirementDomain w N) :=
  match s.domain.transition with
  | some (.barrier _ old) =>
    if (s.queues old).lock = none then
      (s.domain.step .manage).map fun d => (s.withDomain d).setLock old (some .manager)
    else (s.domain.step .barrierBusy).map s.withDomain
  | some (.releaseBarrier _ old) =>
    (s.domain.step .manage).map fun d => (s.withDomain d).setLock old none
  | some (.abandon _ old) =>
    (s.domain.step .manage).map fun d => (s.withDomain d).setLock old none
  | some (.callback _ old _) =>
    if (s.queues old).lock = none then some (s.setLock old (some .manager))
    else if (s.queues old).lock = some .manager then
      (s.domain.step .manage).map fun d => (s.detach old).withDomain d
    else none
  | some .unlock =>
    (s.domain.step .manage).map fun d => s.afterUnlock.withDomain d
  | _ => (s.domain.step .manage).map s.withDomain

/-- The next access of a taker. -/
def takerStep (k : Nat) : Option (RotatingRetirementDomain w N) :=
  match s.takers[k]? with
  | some .lockFirst =>
    if (s.queues false).lock = none then
      some ((s.setLock false (some (.taker k))).setTaker k .lockSecond)
    else none
  | some .lockSecond =>
    if (s.queues true).lock = none then
      some ((s.setLock true (some (.taker k))).setTaker k .takeFirst)
    else none
  | some .takeFirst =>
    some ((s.setQueue false ⟨none, []⟩).setTaker k (.takeSecond (s.queues false).items))
  | some (.takeSecond first) =>
    some (((s.setQueue true ⟨none, []⟩).setTaker k .finished).setHanded
      (s.handed ++ (first ++ (s.queues true).items)))
  | _ => none

end

inductive Action (N : Nat) where
  | enter (stripe : Fin N)
  | reader (r : Nat)
  | lock (op : Operation)
  | manage
  /-- A call of `register_retired`, its accesses, and one append of its callback. -/
  | register
  | registrar (r : Nat)
  | append (r : Nat)
  /-- `observe_queue_len` and its relatives. -/
  | observe (generation : GenerationIndex)
  | observed (generation : GenerationIndex)
  /-- A call of `take_queues` on the value `seal_and_wait` returned. -/
  | takeQueues
  | taker (k : Nat)
  /-- The owner is dropped: no call is running and `seal_and_wait` has returned. -/
  | destroy
deriving DecidableEq

def step (s : RotatingRetirementDomain w N) (action : Action N) :
    Option (RotatingRetirementDomain w N) :=
  if s.domain.aborted.isSome ∨ s.destroyed then none
  else match action with
  | .enter stripe => (s.domain.step (.enter stripe)).map s.withDomain
  | .reader r => (s.domain.step (.reader r)).map s.withDomain
  | .lock op => (s.domain.step (.lock op)).map s.withDomain
  | .manage => s.manage
  | .register => some { s with registrars := s.registrars ++ [.select] }
  | .registrar r => s.registrarStep r
  | .append r => s.append r
  | .observe g => if (s.queues g).lock = none then some (s.setLock g (some .observer)) else none
  | .observed g =>
    if (s.queues g).lock = some .observer then some (s.setLock g none) else none
  | .takeQueues =>
    if s.domain.certified then some { s with takers := s.takers ++ [.lockFirst] } else none
  | .taker k => s.takerStep k
  | .destroy =>
    if s.domain.certified ∧ s.domain.transition = none ∧ (∀ x ∈ s.registrars, x = .finished) ∧
        ∀ x ∈ s.takers, x = .finished then
      some { s with
        queues    := fun _ => ⟨none, []⟩
        handed    := s.handed ++ ((s.queues false).items ++ (s.queues true).items)
        destroyed := true }
    else none

end RotatingRetirementDomain

end Xlfn.Kernel
