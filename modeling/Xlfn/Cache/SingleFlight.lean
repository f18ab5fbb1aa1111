import Xlfn.Cache.Flights
import Xlfn.Cache.Accesses

/-!
# Xlfn — single flights

At most one request computes the value of a versioned key at a time, and the
others wait for it and never in vain. Two invariants carry this over every
interleaving of requests, callbacks that return, fail or unwind, and clears.

* `FlightsWf` — the custody of flights; `Accessed.move` says that an access of a
  request is a move of the flight protocol.
* `ThreadsWf` — the initialisation depth of a thread counts its leaders, and no
  request nested in a leader becomes one. It is what makes the entry of
  `ActiveCacheGuard`, which stands between the registration of a flight and the
  guard that cleans it up, infallible.
-/

namespace Xlfn.Cache

open Lib Function List

variable {K V E : Type}

-- ---- What a request does to the flights.

/-- What the place of a request means for the flights. -/
def Pc.phase : Pc V E → Phase
  | .lookup (.locked hash) | .observed (.locked hash) _ | .enroll hash => .holding hash
  | .lockShard hash => .hashed hash
  | .register hash => .registering hash
  | .enterActive f | .takeCompute f | .compute f | .weigh f _ | .allocate f _ _
  | .insertResident f _ | .recheck f _ | .discard f _ | .complete f _
  | .abandonRemove f => .leading f
  | .notify f _ => .announced f
  | .remove f _ => .woken f
  | .abandonRetry f => .orphaned f
  | .abandonNotify f => .invited f
  | _ => .idle

/-- Between the entry of `ActiveCacheGuard` and its drop. -/
def Pc.initializing : Pc V E → Bool
  | .takeCompute _ | .compute _ | .weigh .. | .allocate .. | .insertResident ..
  | .recheck .. | .discard .. | .complete .. | .notify .. | .remove .. | .leave _
  | .abandonRemove _ | .abandonRetry _ | .abandonNotify _ | .abandonLeave
  | .elsewhere => true
  | _ => false

/-- Past the check of the initialisation depth, before the guard is entered. -/
def Pc.cleared : Pc V E → Bool
  | .hashing | .lockShard _ | .lookup (.locked _) | .observed (.locked _) _ | .enroll _
  | .register _ | .enterActive _ => true
  | _ => false

theorem Pc.not_done_of_initializing {pc : Pc V E} (h : pc.initializing = true) :
    pc.isDone = false := by
  cases pc <;> first | rfl | cases h

theorem Pc.not_cleared_of_initializing {pc : Pc V E} (h : pc.initializing = true) :
    pc.cleared = false := by
  cases pc <;> first | rfl | cases h

theorem Pc.phase_of_callback {pc : Pc V E} {f : Nat} (h : pc.callback = some f) :
    pc.phase = .leading f ∧ pc.initializing = true := by
  cases pc <;> cases h <;> exact ⟨rfl, rfl⟩

theorem Pc.phase_missed (q : Request K V E) (site : LookupSite) :
    (q.missed site).pc.phase = (Pc.lookup site : Pc V E).phase := by
  cases site <;> rfl

variable [DecidableEq K] {flightHash : VersionedKey K → UInt64} {c c' : CalculationCache K V E}
  {r : Nat} {q q' : Request K V E} {pc : Pc V E}

namespace Accessed

section

variable (h : Accessed flightHash c r q pc c' q')
include h

theorem key_eq : q'.key = q.key := by
  cases h
  case missed site _ => cases site <;> rfl
  case passedOver site _ => cases site <;> rfl
  all_goals rfl

theorem thread_eq : q'.thread = q.thread := by
  cases h
  case missed site _ => cases site <;> rfl
  case passedOver site _ => cases site <;> rfl
  all_goals rfl

/-- An access is a move of the flight protocol, if the guard can be entered. -/
theorem move (hactive : ∀ f, pc = .enterActive f → c.active q.thread = 0) :
    FlightMove flightHash r q.key c.flights pc.phase c'.flights q'.pc.phase := by
  cases h
  case found site _ _ => cases site <;> exact .stay _
  case missed site _ =>
    rw [Pc.phase_missed]
    exact .stay _
  case hit site _ _ _ _ => cases site <;> first | exact .stay _ | exact .unlock
  case passedOver site _ =>
    rw [Pc.phase_missed]
    cases site <;> exact .stay _
  case hashed => exact .hash
  case locked hfree => exact .lock hfree
  case joined => exact .unlock
  case unclaimed hget => exact .absent hget
  case registered => exact .insert
  case parks hf hstate => exact .park hf hstate
  case refused f hrefused => exact absurd (hactive f rfl) hrefused
  case completes hf => exact .announce hf
  case notifies hf => exact .wake hf
  case removes hremove => exact .detach hremove
  case abandons hremove => exact .abandon hremove
  case invites hf => exact .invite hf
  case dismisses hf => exact .dismiss hf
  case unwindsLookup site => cases site <;> first | exact .stay _ | exact .unlock
  case unwindsEnroll => exact .unlock
  case unwindsLeader f hcallback =>
    rw [(Pc.phase_of_callback hcallback).1]
    exact .stay _
  all_goals exact .stay _

/-- What an access does to the initialisation depth of its thread: nothing, or the
request enters the guard at depth zero, or it drops the guard. A request is cleared
only at depth zero. -/
theorem depth : (c'.active = c.active ∧ q'.pc.initializing = pc.initializing ∧
      (q'.pc.cleared = true → pc.cleared = true ∨ c.active q.thread = 0)) ∨
    (c'.active = update c.active q.thread 1 ∧ c.active q.thread = 0 ∧
      pc.initializing = false ∧ q'.pc.initializing = true) ∨
    (c'.active = update c.active q.thread 0 ∧ pc.initializing = true ∧ q'.pc.isDone = true) := by
  cases h
  case found site _ _ =>
    refine .inl ⟨rfl, rfl, fun hcleared => .inl ?_⟩
    cases site <;> first | rfl | cases hcleared
  case missed site _ | passedOver site _ =>
    refine .inl ⟨rfl, ?_, fun hcleared => .inl ?_⟩
    · cases site <;> rfl
    · cases site <;> first | rfl | cases hcleared
  case hit site _ _ _ _ =>
    refine .inl ⟨?_, rfl, fun hcleared => by cases hcleared⟩
    cases site <;> rfl
  case cleared hactive => exact .inl ⟨rfl, rfl, fun _ => .inr hactive⟩
  case hashed => exact .inl ⟨rfl, rfl, fun _ => .inl rfl⟩
  case locked => exact .inl ⟨rfl, rfl, fun _ => .inl rfl⟩
  case unclaimed => exact .inl ⟨rfl, rfl, fun _ => .inl rfl⟩
  case registered => exact .inl ⟨rfl, rfl, fun _ => .inl rfl⟩
  case entered hactive => exact .inr (.inl ⟨rfl, hactive, rfl, rfl⟩)
  case enteredElsewhere hactive => exact .inr (.inl ⟨rfl, hactive, rfl, rfl⟩)
  case leaves => exact .inr (.inr ⟨rfl, rfl, rfl⟩)
  case leavesUnwound => exact .inr (.inr ⟨rfl, rfl, rfl⟩)
  case leavesElsewhere => exact .inr (.inr ⟨rfl, rfl, rfl⟩)
  case unwindsLookup site =>
    refine .inl ⟨?_, rfl, fun hcleared => by cases hcleared⟩
    cases site <;> rfl
  case unwindsLeader f hcallback =>
    exact .inl ⟨rfl, (Pc.phase_of_callback hcallback).2.symm, fun hcleared => by cases hcleared⟩
  all_goals exact .inl ⟨rfl, rfl, fun hcleared => by cases hcleared⟩

theorem computes : q'.computes + q'.computeOpt.toNat = q.computes + q.computeOpt.toNat := by
  cases h
  case missed site _ => cases site <;> rfl
  case passedOver site _ => cases site <;> rfl
  case taken hcompute =>
    rw [hcompute]
    rfl
  all_goals rfl

end

end Accessed

-- ---- The initialisation depth of the threads.

/-- The request is initialising on the thread. -/
def Request.leadsOn (thread : Nat) (q : Request K V E) : Bool :=
  q.thread == thread && q.pc.initializing

/-- The depth of a thread counts its initialising requests, and a request nested in
an initialising one is not cleared to become a leader itself. -/
structure ThreadsWf (active : Nat → Nat) (requests : List (Request K V E)) : Prop where
  depth  : ∀ t, active t = requests.countP (Request.leadsOn t)
  nested : ∀ (i j : Nat) (qi qj : Request K V E), i < j → requests[i]? = some qi →
    requests[j]? = some qj → qi.thread = qj.thread → qi.pc.initializing = true →
    qj.pc.initializing = false ∧ qj.pc.cleared = false

omit [DecidableEq K] in
theorem Request.leadsOn_iff {t : Nat} :
    q.leadsOn t = true ↔ q.thread = t ∧ q.pc.initializing = true := by
  simp [leadsOn]

variable {s : CacheSystem K V E}

namespace ThreadsWf

variable {active : Nat → Nat} {requests : List (Request K V E)}

omit [DecidableEq K] in
theorem not_initializing (h : ThreadsWf active requests) (hactive : active q.thread = 0)
    {i : Nat} {qi : Request K V E} (hi : requests[i]? = some qi) (hthread : qi.thread = q.thread) :
    qi.pc.initializing = false := by
  rw [h.depth, countP_eq_zero] at hactive
  have hnot := hactive qi (mem_of_getElem? hi)
  rw [Request.leadsOn_iff] at hnot
  exact Bool.eq_false_iff.mpr fun hinit => hnot ⟨hthread, hinit⟩

omit [DecidableEq K] in
theorem start (h : ThreadsWf active requests) (hinit : q.pc.initializing = false)
    (hcleared : q.pc.cleared = false) : ThreadsWf active (requests ++ [q]) where
  depth t := by
    rw [countP_append, ← h.depth t, countP_singleton, if_neg, Nat.add_zero]
    rw [Request.leadsOn_iff, hinit]
    exact fun hand => Bool.false_ne_true hand.2
  nested i j qi qj hij hi hj hthread hqi := by
    rcases getElem?_append_singleton_cases hj with hj₀ | ⟨rfl, rfl⟩
    · rcases getElem?_append_singleton_cases hi with hi₀ | ⟨rfl, rfl⟩
      · exact h.nested i j qi qj hij hi₀ hj₀ hthread hqi
      · exact absurd (List.getElem_of_getElem? hj₀).1 (Nat.not_lt_of_gt hij)
    · exact ⟨hinit, hcleared⟩

omit [DecidableEq K] in
/-- Requests that started later on the thread of a running one are done. -/
theorem done_of_running {j : Nat} {qj : Request K V E} (hrunning : s.running r q.thread = true)
    (hrj : r < j) (hj : s.requests[j]? = some qj) (hthread : q.thread = qj.thread) :
    qj.pc.isDone = true := by
  have hmem : qj ∈ s.requests.drop (r + 1) := by
    refine mem_of_getElem? (i := j - (r + 1)) ?_
    rw [getElem?_drop, Nat.add_sub_cancel' hrj, hj]
  have hall := List.all_eq_true.mp hrunning qj hmem
  simpa [hthread] using hall

omit [DecidableEq K] in
/-- A running request that is past the check finds the depth of its thread zero. -/
theorem depth_zero (h : ThreadsWf active s.requests) (hr : s.requests[r]? = some q)
    (hrunning : s.running r q.thread = true) (hcleared : q.pc.cleared = true) :
    active q.thread = 0 := by
  rw [h.depth, countP_eq_zero]
  intro qi hmem hleads
  obtain ⟨hthread, hinit⟩ := Request.leadsOn_iff.mp hleads
  obtain ⟨i, hi⟩ := mem_iff_getElem?.mp hmem
  rcases Nat.lt_trichotomy i r with hlt | rfl | hgt
  · have hnot := (h.nested i r qi q hlt hi hr hthread hinit).2
    rw [hcleared] at hnot
    cases hnot
  · rw [hr] at hi
    cases hi
    rw [Pc.not_cleared_of_initializing hinit] at hcleared
    cases hcleared
  · have hdone := done_of_running hrunning hgt hi hthread.symm
    rw [Pc.not_done_of_initializing hinit] at hdone
    cases hdone

omit [DecidableEq K] in
theorem depth_set (h : ThreadsWf active requests) (hr : requests[r]? = some q)
    (hthread : q'.thread = q.thread) (t : Nat) :
    (requests.set r q').countP (Request.leadsOn t) +
        (if q.thread = t ∧ q.pc.initializing = true then 1 else 0) =
      active t + if q.thread = t ∧ q'.pc.initializing = true then 1 else 0 := by
  have hset := countP_set_add (Request.leadsOn t) q' hr
  rw [h.depth]
  simpa only [Request.leadsOn_iff, hthread] using hset

/-- **An access keeps the depths.** -/
theorem access (h : ThreadsWf s.cache.active s.requests) (hr : s.requests[r]? = some q)
    (hrunning : s.running r q.thread = true)
    (haccess : Accessed flightHash s.cache r q q.pc c' q') :
    ThreadsWf c'.active (s.requests.set r q') := by
  have hthread := haccess.thread_eq
  -- Later requests of the thread are done, so only the position of `r` matters.
  have hlater : ∀ {j : Nat} {qj : Request K V E}, r < j → s.requests[j]? = some qj →
      q.thread = qj.thread → qj.pc.initializing = false ∧ qj.pc.cleared = false := by
    intro j qj hrj hj hqj
    have hdone := done_of_running hrunning hrj hj hqj
    cases hpc : qj.pc <;> rw [hpc] at hdone <;> first | exact ⟨rfl, rfl⟩ | cases hdone
  have hnested : (∀ (i : Nat) (qi : Request K V E), i < r → s.requests[i]? = some qi →
      qi.thread = q.thread → qi.pc.initializing = true →
      q'.pc.initializing = false ∧ q'.pc.cleared = false) →
      ∀ (i j : Nat) (qi qj : Request K V E), i < j → (s.requests.set r q')[i]? = some qi →
      (s.requests.set r q')[j]? = some qj → qi.thread = qj.thread →
      qi.pc.initializing = true → qj.pc.initializing = false ∧ qj.pc.cleared = false := by
    intro hbelow i j qi qj hij hi hj hqij hqi
    rcases getElem?_set_cases hr hi with ⟨rfl, rfl⟩ | ⟨-, hi₀⟩
    · rcases getElem?_set_cases hr hj with ⟨rfl, -⟩ | ⟨-, hj₀⟩
      · exact absurd hij (Nat.lt_irrefl _)
      · exact hlater hij hj₀ (hthread.symm.trans hqij)
    · rcases getElem?_set_cases hr hj with ⟨rfl, rfl⟩ | ⟨-, hj₀⟩
      · exact hbelow i qi hij hi₀ (hqij.trans hthread) hqi
      · exact h.nested i j qi qj hij hi₀ hj₀ hqij hqi
  rcases haccess.depth with ⟨hactive, hinit, hcleared⟩ | ⟨hactive, hzero, hinit, hinit'⟩ |
    ⟨hactive, hinit, hdone⟩
  · refine ⟨fun t => ?_, hnested ?_⟩
    · have hset := h.depth_set hr hthread t
      rw [hinit] at hset
      rw [hactive]
      exact (Nat.add_right_cancel hset).symm
    · intro i qi hir hi hqi hqi_init
      have hnot := h.nested i r qi q hir hi hr hqi hqi_init
      refine ⟨hinit.trans hnot.1, Bool.eq_false_iff.mpr fun hq' => ?_⟩
      rcases hcleared hq' with hq | hzero
      · rw [hnot.2] at hq
        cases hq
      · rw [h.not_initializing hzero hi hqi] at hqi_init
        cases hqi_init
  · refine ⟨fun t => ?_, hnested ?_⟩
    · have hset := h.depth_set hr hthread t
      rw [hinit, hinit'] at hset
      rw [hactive, update_apply]
      split
      · rename_i ht
        subst ht
        simpa [hzero] using hset.symm
      · rename_i ht
        simpa [Ne.symm ht] using hset.symm
    · intro i qi hir hi hqi hqi_init
      rw [h.not_initializing hzero hi hqi] at hqi_init
      cases hqi_init
  · have hinit' : q'.pc.initializing = false := by
      cases hpc : q'.pc <;> rw [hpc] at hdone <;> first | rfl | cases hdone
    have hcleared' : q'.pc.cleared = false := by
      cases hpc : q'.pc <;> rw [hpc] at hdone <;> first | rfl | cases hdone
    refine ⟨fun t => ?_, hnested fun _ _ _ _ _ _ => ⟨hinit', hcleared'⟩⟩
    rw [hactive, update_apply]
    split
    · -- The request was the only leader of its thread.
      rename_i ht
      subst ht
      refine (countP_eq_zero.mpr fun qi hmem hleads => ?_).symm
      obtain ⟨hqi, hqi_init⟩ := Request.leadsOn_iff.mp hleads
      obtain ⟨i, hi⟩ := mem_iff_getElem?.mp hmem
      rcases getElem?_set_cases hr hi with ⟨-, rfl⟩ | ⟨hir, hi₀⟩
      · rw [hinit'] at hqi_init
        cases hqi_init
      · rcases Nat.lt_or_gt_of_ne hir with hlt | hgt
        · rw [(h.nested i r qi q hlt hi₀ hr hqi hqi_init).1] at hinit
          cases hinit
        · rw [(hlater hgt hi₀ hqi.symm).1] at hqi_init
          cases hqi_init
    · rename_i ht
      have hset := h.depth_set hr hthread t
      rw [hinit, hinit'] at hset
      simpa [Ne.symm ht] using hset.symm

end ThreadsWf

-- ---- Every run.

namespace CacheSystem

variable {s' : CacheSystem K V E} {a : Action K V E}

/-- The requests, as the flight registry knows them. -/
def parties (s : CacheSystem K V E) : Parties K :=
  fun r => s.requests[r]?.map fun q => (q.key, q.pc.phase)

structure FlightInv (flightHash : VersionedKey K → UInt64) (s : CacheSystem K V E) : Prop where
  flights  : FlightsWf flightHash s.cache.flights s.parties
  threads  : ThreadsWf s.cache.active s.requests
  computes : ∀ (r : Nat) (q : Request K V E), s.requests[r]? = some q →
    q.computes + q.computeOpt.toNat ≤ 1

omit [DecidableEq K] in
theorem parties_start (s : CacheSystem K V E) (q : Request K V E) :
    parties { s with requests := s.requests ++ [q] } =
      update s.parties s.requests.length (some (q.key, q.pc.phase)) := by
  funext r
  rw [update_apply]
  split
  · rename_i hr
    subst hr
    simp [parties]
  · rename_i hr
    rcases Nat.lt_or_gt_of_ne hr with hlt | hgt
    · simp [parties, getElem?_append_left hlt]
    · have hnone : s.requests[r]? = none := getElem?_eq_none (Nat.le_of_lt hgt)
      have hnone' : (s.requests ++ [q])[r]? = none := by
        refine getElem?_eq_none ?_
        rw [length_append, length_singleton]
        exact hgt
      simp [parties, hnone, hnone']

omit [DecidableEq K] in
theorem parties_set (hr : s.requests[r]? = some q) :
    parties { s with cache := c', requests := s.requests.set r q' } =
      update s.parties r (some (q'.key, q'.pc.phase)) := by
  funext x
  rw [update_apply]
  split
  · rename_i hx
    subst hx
    simp [parties, getElem?_set_self (List.getElem_of_getElem? hr).1]
  · rename_i hx
    simp [parties, getElem?_set_ne (Ne.symm hx)]

omit [DecidableEq K] in
theorem clear_step_frame {k : Nat} {clear clear' : Clear} (h : clear.step c k = some (c', clear')) :
    c'.flights = c.flights ∧ c'.active = c.active := by
  cases clear with
  | lockFirst | lock =>
    simp only [Clear.step] at h
    split at h
    · cases h
      exact ⟨rfl, rfl⟩
    · cases h
  | snapshot locked => cases locked <;> cases h <;> exact ⟨rfl, rfl⟩
  | increment | sweep | quiesce =>
    cases h
    exact ⟨rfl, rfl⟩
  | done => cases h

omit [DecidableEq K] in
theorem FlightInv.new (weightBudget : Nat) :
    FlightInv flightHash (CacheSystem.new weightBudget : CacheSystem K V E) where
  flights := FlightsWf.new
  threads := ⟨fun _ => rfl, fun _ _ _ _ _ hi => by cases hi⟩
  computes _ _ hr := by cases hr

/-- **Every step keeps the invariant.** -/
theorem FlightInv.step (h : FlightInv flightHash s) (hstep : s.step flightHash a = some s') :
    FlightInv flightHash s' := by
  rcases step_cases hstep with ⟨thread, operation, key, rfl⟩ |
    ⟨r, q, input, c', q', -, hr, hrunning, hinput, rfl⟩ | ⟨clear, -, rfl⟩ |
    ⟨k, clear, c', clear', -, hclear, rfl⟩
  · have hphase : (s.newRequest thread operation key).pc.phase = .idle := by
      cases operation <;> rfl
    refine ⟨?_, ?_, ?_⟩
    · rw [parties_start, hphase]
      refine h.flights.start ?_ _
      simp [parties]
    · refine h.threads.start ?_ ?_
      · cases operation <;> rfl
      · cases operation <;> rfl
    · intro x qx hx
      rcases getElem?_append_singleton_cases hx with hx | ⟨-, rfl⟩
      · exact h.computes x qx hx
      · exact Nat.le_trans (Nat.zero_add _).le (Bool.toNat_le _)
  · have haccess := Request.accessed_of_access hinput
    have hparty : s.parties r = some (q.key, q.pc.phase) := by simp [parties, hr]
    refine ⟨?_, h.threads.access hr hrunning haccess, ?_⟩
    · rw [parties_set hr, haccess.key_eq]
      refine h.flights.move hparty (haccess.move fun f hpc => ?_)
      exact h.threads.depth_zero hr hrunning (by rw [hpc]; rfl)
    · intro x qx hx
      rcases getElem?_set_cases hr hx with ⟨-, rfl⟩ | ⟨-, hx⟩
      · rw [haccess.computes]
        exact h.computes r q hr
      · exact h.computes x qx hx
  · exact ⟨h.flights, h.threads, h.computes⟩
  · obtain ⟨hflights, hactive⟩ := clear_step_frame hclear
    refine ⟨?_, ?_, h.computes⟩
    · rw [show ({ s with cache := c', clears := s.clears.set k clear' } :
        CacheSystem K V E).cache.flights = s.cache.flights from hflights]
      exact h.flights
    · rw [show ({ s with cache := c', clears := s.clears.set k clear' } :
        CacheSystem K V E).cache.active = s.cache.active from hactive]
      exact h.threads

theorem FlightInv.of_reachable {weightBudget : Nat}
    (h : Reachable (CacheSystem.step flightHash) (CacheSystem.new weightBudget) s) :
    FlightInv flightHash s :=
  Reachable.invariant (fun _ _ _ hinv hstep => hinv.step hstep) (FlightInv.new weightBudget) h

/-- The request that leads the flight has returned or unwound. -/
def leaderLeft (s : CacheSystem K V E) (flight : Flight K E) : Prop :=
  ∃ q, s.requests[flight.leader]? = some q ∧ q.pc.isDone = true

/-- **Single flight.** In every state reached by any interleaving of requests,
callbacks that return, fail or unwind, and clears:

* a shard lists no flight twice, and two registered flights have different keys;
* the leader of a registered flight has not left;
* a flight whose leader has left, by whatever path, is not registered, is finished
  or open for a retry, and has no waiters: a request parked on it can resume, and a
  request that follows it does not park;
* no request has run its `compute` more than once. -/
theorem single_flight {weightBudget : Nat}
    (h : Reachable (CacheSystem.step flightHash) (CacheSystem.new weightBudget) s) :
    (∀ i, (s.cache.flights.shards i).entries.Nodup) ∧
    (∀ (f g : Nat) (flight flight' : Flight K E), s.cache.flights.heap[f]? = some flight →
      s.cache.flights.heap[g]? = some flight' → s.cache.flights.Registered f →
      s.cache.flights.Registered g → flight.key = flight'.key → f = g) ∧
    (∀ f, s.cache.flights.Registered f → ∃ flight : Flight K E,
      s.cache.flights.heap[f]? = some flight ∧ ¬s.leaderLeft flight) ∧
    (∀ (f : Nat) (flight : Flight K E), s.cache.flights.heap[f]? = some flight →
      s.leaderLeft flight → ¬s.cache.flights.Registered f ∧ flight.state ≠ .pending ∧
      flight.waiters = [] ∧ ∀ (r : Nat) (q : Request K V E),
        (q.pc = .parked f → q.go flightHash s.cache r = some (s.cache, q.goto (.follow f))) ∧
        (q.pc = .follow f → ∃ pc, q.go flightHash s.cache r = some (s.cache, q.goto pc) ∧
          pc ≠ .parked f)) ∧
    (∀ (r : Nat) (q : Request K V E), s.requests[r]? = some q → q.computes ≤ 1) := by
  have hinv := FlightInv.of_reachable h
  -- A leader that has left is in no phase that registers, owes or rings.
  have hleft : ∀ (f : Nat) (flight : Flight K E), s.cache.flights.heap[f]? = some flight →
      s.leaderLeft flight → Custody s.cache.flights f flight .idle := by
    rintro f flight hf ⟨q, hq, hdone⟩
    obtain ⟨p, hp, hcustody⟩ := hinv.flights.leader f flight hf
    have hphase : q.pc.phase = .idle := by
      cases hpc : q.pc <;> rw [hpc] at hdone <;> first | rfl | cases hdone
    rw [parties, hq, Option.map_some, hphase] at hp
    obtain ⟨-, rfl⟩ := Prod.mk.inj (Option.some.inj hp)
    exact hcustody
  refine ⟨hinv.flights.nodup, hinv.flights.unique, ?_, ?_, ?_⟩
  · rintro f ⟨i, hi⟩
    obtain ⟨flight, hf, -⟩ := hinv.flights.placed i f hi
    exact ⟨flight, hf, fun hgone => (hleft f flight hf hgone).registered.mp ⟨i, hi⟩⟩
  · intro f flight hf hgone
    have hcustody := hleft f flight hf hgone
    have hstate : flight.state ≠ .pending := fun hpending => hcustody.pending.mp hpending
    have hwaiters : flight.waiters = [] := by
      by_contra hne
      exact hcustody.waiters hne
    refine ⟨fun hreg => hcustody.registered.mp hreg, hstate, hwaiters, fun r q => ⟨?_, ?_⟩⟩
    · intro hpc
      simp only [Request.go, hpc, hf, hwaiters, not_mem_nil, if_false]
    · intro hpc
      simp only [Request.go, hpc, hf, Option.map_some, Request.followed]
      split
      · exact absurd ‹flight.state = .pending› hstate
      all_goals
        refine ⟨_, rfl, ?_⟩
        rintro ⟨⟩
  · exact fun r q hr => Nat.le_trans (Nat.le_add_right _ _) (hinv.computes r q hr)

/-- Two requests for one key and a clear. The second request follows the flight of
the first, whose `compute` unwinds; it retries, leads a flight of its own and
returns what it computed, while a request nested in its `compute` is refused. -/
def retryRun : List (Action Nat Nat Unit) :=
  List.flatten [[.start 0 .getOrTryInsertWith 5, .start 1 .getOrTryInsertBorrowed 5],
    .replicate 9 (.request 0 .go),
    .replicate 8 (.request 1 .go),
    [.request 0 .unwind, .request 0 .go, .request 0 .go, .request 0 .go, .request 0 .go],
    .replicate 11 (.request 1 .go),
    [.start 1 .getOrTryInsertWith 6, .request 2 .go, .request 2 .go],
    [.clear false, .clearStep 0, .clearStep 0],
    [.request 1 (.returned (.ok 42)), .request 1 (.measured 1)],
    .replicate 5 (.request 1 .go)]

theorem single_flight_retryRun : ∃ s : CacheSystem Nat Nat Unit,
      run (CacheSystem.step fun k => UInt64.ofNat k.key) (CacheSystem.new 10) retryRun = some s ∧
      s.requests.map (·.computes) = [1, 1, 0] ∧
      s.cache.flights.heap.map (·.key) = [⟨0, 5⟩, ⟨0, 5⟩] ∧
      (∀ f, ¬s.cache.flights.Registered f) ∧
      ∀ flight ∈ s.cache.flights.heap, flight.state ≠ .pending := by
  have hrun : ((run (CacheSystem.step fun k => UInt64.ofNat k.key)
      (CacheSystem.new 10 : CacheSystem Nat Nat Unit) retryRun).map fun s =>
        (s.requests.map (·.computes), s.cache.flights.heap.map (·.key),
          s.cache.flights.heap.all fun flight =>
            s.requests[flight.leader]?.any (·.pc.isDone))) =
      some ([1, 1, 0], [⟨0, 5⟩, ⟨0, 5⟩], true) := by
    decide +kernel
  obtain ⟨s, hs, hval⟩ := Option.map_eq_some_iff.mp hrun
  simp only [Prod.mk.injEq] at hval
  obtain ⟨hcomputes, hkeys, hdone⟩ := hval
  obtain ⟨-, -, hregistered, hleft, -⟩ := single_flight ⟨retryRun, hs⟩
  have hgone : ∀ flight ∈ s.cache.flights.heap, s.leaderLeft flight := by
    intro flight hmem
    obtain ⟨q, hq, hq_done⟩ :=
      (Option.any_eq_true _ _).mp (List.all_eq_true.mp hdone flight hmem)
    exact ⟨q, hq, hq_done⟩
  refine ⟨s, hs, hcomputes, hkeys, fun f hf => ?_, fun flight hmem => ?_⟩
  · obtain ⟨flight, hheap, hstays⟩ := hregistered f hf
    exact hstays (hgone flight (mem_of_getElem? hheap))
  · obtain ⟨f, hf⟩ := mem_iff_getElem?.mp hmem
    exact (hleft f flight hf (hgone flight hmem)).2.1

end CacheSystem

end Xlfn.Cache
