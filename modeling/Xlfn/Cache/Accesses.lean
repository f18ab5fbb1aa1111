import Xlfn.Cache.Coordination

/-!
# Xlfn — what one access of a request can do

Every later argument about the calculation cache asks what an access changes. The
question is answered once: `Accessed` has one constructor for each branch of
`Request.access`, with the branch's guard, the shared state it leaves and the
request it leaves, and `accessed_of_access` says that there are no others. A
property of accesses is then a case analysis on `Accessed`.
-/

namespace Xlfn.Cache

open Lib Option

variable {K V E : Type} [DecidableEq K]

/-- The flight led by a request that is in a callback and would unwind from it. -/
def Pc.callback : Pc V E → Option Nat
  | .compute f | .weigh f _ | .insertResident f _ | .recheck f _ | .discard f _ => some f
  | _ => none

/-- One access of request `r` at the given place: the branches of the source, each
with its guard. -/
inductive Accessed (flightHash : VersionedKey K → UInt64) (c : CalculationCache K V E) (r : Nat)
    (q : Request K V E) : Pc V E → CalculationCache K V E → Request K V E → Prop where
  -- `get_at_epoch`
  | found {site : LookupSite} {node : Nat} : c.indexGet q.key = some node →
      Accessed flightHash c r q (.lookup site) c (q.goto (.observed site node))
  | missed {site : LookupSite} : c.indexGet q.key = none →
      Accessed flightHash c r q (.lookup site) c (q.missed site)
  | hit {site : LookupSite} {node : Nat} {n : CacheNode K V} : c.nodes[node]? = some n →
      n.generation = q.key.epoch →
      Accessed flightHash c r q (.observed site node) (Request.leaveSite c site)
        (q.goto (.done (.lease node)))
  | passedOver {site : LookupSite} {node : Nat} :
      Accessed flightHash c r q (.observed site node) c (q.missed site)
  -- Enrolment.
  | cleared : c.active q.thread = 0 →
      Accessed flightHash c r q .reentryCheck c (q.goto .hashing)
  | reentrant : c.active q.thread ≠ 0 →
      Accessed flightHash c r q .reentryCheck c (q.goto (.done .reentrant))
  | hashed :
      Accessed flightHash c r q .hashing c (q.goto (.lockShard (flightHash q.key)))
  | locked {hash : UInt64} : (c.flights.shard hash).lock = none →
      Accessed flightHash c r q (.lockShard hash)
        (c.withFlights (c.flights.setLock hash (some r))) (q.goto (.lookup (.locked hash)))
  | joined {hash : UInt64} {f : Nat} : c.flights.get hash q.key = some f →
      Accessed flightHash c r q (.enroll hash) (c.withFlights (c.flights.setLock hash none))
        (q.goto (.follow f))
  | unclaimed {hash : UInt64} : c.flights.get hash q.key = none →
      Accessed flightHash c r q (.enroll hash) c (q.goto (.register hash))
  | registered {hash : UInt64} :
      Accessed flightHash c r q (.register hash)
        (c.withFlights (c.flights.insertUnique hash q.key r))
        (q.goto (.enterActive c.flights.heap.length))
  -- Followers.
  | parks {f : Nat} {flight : Flight K E} : c.flights.heap[f]? = some flight →
      flight.state = .pending →
      Accessed flightHash c r q (.follow f)
        (c.withFlights (c.flights.setFlight f { flight with waiters := r :: flight.waiters }))
        (q.goto (.parked f))
  | receives {f node : Nat} {flight : Flight K E} : c.flights.heap[f]? = some flight →
      flight.state = .finished (.ok node) →
      Accessed flightHash c r q (.follow f) c (q.goto (.pin f node))
  | fails {f : Nat} {flight : Flight K E} {e : E} : c.flights.heap[f]? = some flight →
      flight.state = .finished (.error e) →
      Accessed flightHash c r q (.follow f) c (q.goto (.done (.failed e)))
  | retries {f : Nat} {flight : Flight K E} : c.flights.heap[f]? = some flight →
      flight.state = .retry →
      Accessed flightHash c r q (.follow f) c (q.goto (.lookup .outer))
  | resumes {f : Nat} {flight : Flight K E} : c.flights.heap[f]? = some flight →
      r ∉ flight.waiters →
      Accessed flightHash c r q (.parked f) c (q.goto (.follow f))
  | shares {f node : Nat} :
      Accessed flightHash c r q (.pin f node) c (q.goto (.done (.lease node)))
  | tooLate {f node : Nat} :
      Accessed flightHash c r q (.pin f node) c (q.goto (.lookup .outer))
  -- The leader.
  | entered {f : Nat} : c.active q.thread = 0 →
      Accessed flightHash c r q (.enterActive f) (c.setActive q.thread 1)
        (q.goto (.takeCompute f))
  | refused {f : Nat} : c.active q.thread ≠ 0 →
      Accessed flightHash c r q (.enterActive f) c (q.goto (.done .reentrant))
  | taken {f : Nat} : q.computeOpt = true →
      Accessed flightHash c r q (.takeCompute f) c
        { q with computeOpt := false, computes := q.computes + 1, pc := .compute f }
  | spent {f : Nat} : q.computeOpt = false →
      Accessed flightHash c r q (.takeCompute f) c (q.goto (.abandonRemove f))
  | computed {f : Nat} {value : V} :
      Accessed flightHash c r q (.compute f) c (q.goto (.weigh f value))
  | errored {f : Nat} {e : E} :
      Accessed flightHash c r q (.compute f) c (q.goto (.complete f (.error e)))
  | weighed {f measured : Nat} {value : V} :
      Accessed flightHash c r q (.weigh f value) c (q.goto (.allocate f value measured))
  | published {f measured : Nat} {value : V} : c.epoch = q.key.epoch →
      Accessed flightHash c r q (.allocate f value measured)
        (c.allocate q.key value measured true r) (q.goto (.insertResident f c.nodes.length))
  | withheld {f measured : Nat} {value : V} :
      Accessed flightHash c r q (.allocate f value measured)
        (c.allocate q.key value measured false r) (q.goto (.complete f (.ok c.nodes.length)))
  | inserted {f node : Nat} {evicted : List (VersionedKey K)} :
      Accessed flightHash c r q (.insertResident f node) (c.insertResident q.key node evicted)
        (q.goto (.recheck f node))
  | stale {f node : Nat} : c.epoch ≠ q.key.epoch →
      Accessed flightHash c r q (.recheck f node) c (q.goto (.discard f node))
  | current {f node : Nat} : c.epoch = q.key.epoch →
      Accessed flightHash c r q (.recheck f node) c (q.goto (.complete f (.ok node)))
  | discarded {f node : Nat} :
      Accessed flightHash c r q (.discard f node) (c.invalidate q.key)
        (q.goto (.complete f (.ok node)))
  -- `LeaderGuard::complete`
  | completes {f : Nat} {result : Except E Nat} {flight : Flight K E} :
      c.flights.heap[f]? = some flight →
      Accessed flightHash c r q (.complete f result)
        (c.withFlights (c.flights.setFlight f { flight with state := .finished result }))
        (q.goto (.notify f result))
  | notifies {f : Nat} {result : Except E Nat} {flight : Flight K E} :
      c.flights.heap[f]? = some flight →
      Accessed flightHash c r q (.notify f result)
        (c.withFlights (c.flights.setFlight f { flight with waiters := [] }))
        (q.goto (.remove f result))
  | removes {f : Nat} {result : Except E Nat} {reg : FlightRegistry K E} :
      c.flights.remove f = some reg →
      Accessed flightHash c r q (.remove f result) (c.withFlights reg) (q.goto (.leave result))
  | leaves {result : Except E Nat} :
      Accessed flightHash c r q (.leave result) (c.setActive q.thread 0)
        (q.goto (.done (.ofResult result)))
  -- `LeaderGuard::drop`
  | abandons {f : Nat} {reg : FlightRegistry K E} : c.flights.remove f = some reg →
      Accessed flightHash c r q (.abandonRemove f) (c.withFlights reg) (q.goto (.abandonRetry f))
  | invites {f : Nat} {flight : Flight K E} : c.flights.heap[f]? = some flight →
      Accessed flightHash c r q (.abandonRetry f)
        (c.withFlights (c.flights.setFlight f { flight with state := flight.state.abandoned }))
        (q.goto (.abandonNotify f))
  | dismisses {f : Nat} {flight : Flight K E} : c.flights.heap[f]? = some flight →
      Accessed flightHash c r q (.abandonNotify f)
        (c.withFlights (c.flights.setFlight f { flight with waiters := [] }))
        (q.goto .abandonLeave)
  | leavesUnwound :
      Accessed flightHash c r q .abandonLeave (c.setActive q.thread 0) (q.goto (.done .unwound))
  -- Initialisations of other caches.
  | enteredElsewhere : c.active q.thread = 0 →
      Accessed flightHash c r q .enterElsewhere (c.setActive q.thread 1) (q.goto .elsewhere)
  | refusedElsewhere : c.active q.thread ≠ 0 →
      Accessed flightHash c r q .enterElsewhere c (q.goto (.done .reentrant))
  | leavesElsewhere :
      Accessed flightHash c r q .elsewhere (c.setActive q.thread 0) (q.goto (.done .absent))
  -- Unwinding callbacks.
  | unwindsLookup {site : LookupSite} :
      Accessed flightHash c r q (.lookup site) (Request.leaveSite c site)
        (q.goto (.done .unwound))
  | unwindsHashing :
      Accessed flightHash c r q .hashing c (q.goto (.done .unwound))
  | unwindsEnroll {hash : UInt64} :
      Accessed flightHash c r q (.enroll hash) (c.withFlights (c.flights.setLock hash none))
        (q.goto (.done .unwound))
  | unwindsLeader {pc : Pc V E} {f : Nat} : pc.callback = some f →
      Accessed flightHash c r q pc c (q.goto (.abandonRemove f))

variable {flightHash : VersionedKey K → UInt64} {c c' : CalculationCache K V E} {r : Nat}
  {q q' : Request K V E} {input : Input K V E}

namespace Request

theorem accessed_of_go (h : q.go flightHash c r = some (c', q')) :
    Accessed flightHash c r q q.pc c' q' := by
  cases hpc : q.pc with
  | lookup site =>
    simp only [go, hpc] at h
    split at h
    · rename_i hget
      cases h
      exact .found hget
    · rename_i hget
      cases h
      exact .missed hget
  | reentryCheck =>
    simp only [go, hpc] at h
    split at h
    · rename_i hactive
      cases h
      exact .cleared hactive
    · rename_i hactive
      cases h
      exact .reentrant hactive
  | lockShard hash =>
    simp only [go, hpc] at h
    split at h
    · rename_i hfree
      cases h
      exact .locked hfree
    · cases h
  | enroll hash =>
    simp only [go, hpc] at h
    split at h
    · rename_i hget
      cases h
      exact .joined hget
    · rename_i hget
      cases h
      exact .unclaimed hget
  | follow f =>
    simp only [go, hpc] at h
    obtain ⟨flight, hf, heq⟩ := map_eq_some_iff.mp h
    unfold followed at heq
    split at heq
    · rename_i hstate
      cases heq
      exact .parks hf hstate
    · rename_i hstate
      cases heq
      exact .receives hf hstate
    · rename_i hstate
      cases heq
      exact .fails hf hstate
    · rename_i hstate
      cases heq
      exact .retries hf hstate
  | parked f =>
    simp only [go, hpc] at h
    split at h
    · rename_i hf
      split at h
      · cases h
      · rename_i hwaiter
        cases h
        exact .resumes hf hwaiter
    · cases h
  | enterActive f =>
    simp only [go, hpc] at h
    split at h
    · rename_i hactive
      cases h
      exact .entered hactive
    · rename_i hactive
      cases h
      exact .refused hactive
  | takeCompute f =>
    simp only [go, hpc] at h
    split at h
    · rename_i hcompute
      cases h
      exact .taken hcompute
    · rename_i hcompute
      cases h
      exact .spent (Bool.not_eq_true _ ▸ hcompute)
  | allocate f value measured =>
    simp only [go, hpc] at h
    cases h
    split
    · rename_i hpublish
      rw [hpublish]
      exact .published (of_decide_eq_true hpublish).2.2
    · rename_i hpublish
      rw [Bool.not_eq_true] at hpublish
      rw [hpublish]
      exact .withheld
  | recheck f node =>
    simp only [go, hpc] at h
    split at h
    · rename_i hepoch
      cases h
      exact .stale hepoch
    · rename_i hepoch
      cases h
      exact .current (not_not.mp hepoch)
  | complete f result | notify f result | abandonRetry f | abandonNotify f =>
    simp only [go, hpc] at h
    obtain ⟨flight, hf, heq⟩ := map_eq_some_iff.mp h
    cases heq
    constructor
    exact hf
  | remove f result | abandonRemove f =>
    simp only [go, hpc] at h
    obtain ⟨reg, hremove, heq⟩ := map_eq_some_iff.mp h
    cases heq
    constructor
    exact hremove
  | enterElsewhere =>
    simp only [go, hpc] at h
    split at h
    · rename_i hactive
      cases h
      exact .enteredElsewhere hactive
    · rename_i hactive
      cases h
      exact .refusedElsewhere hactive
  | hashing | register hash | discard f node | leave result | abandonLeave | elsewhere =>
    simp only [go, hpc] at h
    cases h
    constructor
  | observed | pin | compute | weigh | insertResident | done =>
    simp only [go, hpc] at h
    cases h

theorem accessed_of_pinned {acquired : Bool} (h : q.pinned c acquired = some (c', q')) :
    Accessed flightHash c r q q.pc c' q' := by
  unfold pinned at h
  split at h
  · rename_i hpc
    rw [hpc]
    split at h
    · rename_i hnode
      split at h
      · rename_i heligible
        cases h
        exact .hit hnode heligible.1
      · cases h
        exact .passedOver
    · cases h
  · rename_i hpc
    rw [hpc]
    split at h
    · cases h
      exact .shares
    · cases h
      exact .tooLate
  · cases h

theorem accessed_of_unwind (h : q.unwind c = some (c', q')) :
    Accessed flightHash c r q q.pc c' q' := by
  cases hpc : q.pc with
  | lookup site =>
    simp only [unwind, hpc] at h
    cases h
    exact .unwindsLookup
  | hashing =>
    simp only [unwind, hpc] at h
    cases h
    exact .unwindsHashing
  | enroll hash =>
    simp only [unwind, hpc] at h
    cases h
    exact .unwindsEnroll
  | compute | weigh | insertResident | recheck | discard =>
    simp only [unwind, hpc] at h
    cases h
    exact .unwindsLeader rfl
  | _ =>
    simp only [unwind, hpc] at h
    cases h

/-- **The branches of an access.** -/
theorem accessed_of_access (h : q.access flightHash c r input = some (c', q')) :
    Accessed flightHash c r q q.pc c' q' := by
  cases input with
  | go => exact accessed_of_go h
  | pinned acquired => exact accessed_of_pinned h
  | returned result =>
    simp only [access] at h
    split at h
    · rename_i hpc
      cases h
      rw [hpc]
      exact .computed
    · rename_i hpc
      cases h
      rw [hpc]
      exact .errored
    · cases h
  | measured weight =>
    simp only [access] at h
    split at h
    · rename_i hpc
      cases h
      rw [hpc]
      exact .weighed
    · cases h
  | evicting keys =>
    simp only [access] at h
    split at h
    · rename_i hpc
      cases h
      rw [hpc]
      exact .inserted
    · cases h
  | unwind => exact accessed_of_unwind h

end Request

namespace CacheSystem

/-- **The steps of the system.** A request starts, makes an access while it is the
running one of its thread, or a clear starts or makes an access. -/
theorem step_cases {s s' : CacheSystem K V E} {a : Action K V E}
    (h : s.step flightHash a = some s') :
    (∃ thread operation key,
      s' = { s with requests := s.requests ++ [s.newRequest thread operation key] }) ∨
    (∃ r q input c' q', a = .request r input ∧ s.requests[r]? = some q ∧ s.running r q.thread ∧
      q.access flightHash s.cache r input = some (c', q') ∧
      s' = { s with cache := c', requests := s.requests.set r q' }) ∨
    (∃ clear : Clear, (clear = .lockFirst ∨ clear = .increment false) ∧
      s' = { s with clears := s.clears ++ [clear] }) ∨
    (∃ k clear c' clear', s.clears[k]? = some clear ∧ clear.step s.cache k = some (c', clear') ∧
      s' = { s with cache := c', clears := s.clears.set k clear' }) := by
  cases a with
  | start thread operation key =>
    cases h
    exact .inl ⟨thread, operation, key, rfl⟩
  | request r input =>
    simp only [step] at h
    split at h
    · rename_i q hq
      split at h
      · rename_i hrunning
        obtain ⟨⟨c', q'⟩, haccess, heq⟩ := map_eq_some_iff.mp h
        cases heq
        exact .inr (.inl ⟨r, q, input, c', q', rfl, hq, hrunning, haccess, rfl⟩)
      · cases h
    · cases h
  | clear throughRegistry =>
    cases h
    refine .inr (.inr (.inl ⟨_, ?_, rfl⟩))
    cases throughRegistry
    · exact .inl rfl
    · exact .inr rfl
  | clearStep k =>
    simp only [step] at h
    split at h
    · rename_i clear hclear
      obtain ⟨⟨c', clear'⟩, hstep, heq⟩ := map_eq_some_iff.mp h
      cases heq
      exact .inr (.inr (.inr ⟨k, clear, c', clear', hclear, hstep, rfl⟩))
    · cases h

end CacheSystem

end Xlfn.Cache
