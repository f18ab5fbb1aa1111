import Xlfn.Cache.Coordination

/-!
# Xlfn — the custody of flights

What a request does to the flights is a small protocol of its own: it locks a
shard, finds no flight for its key and registers one, and from then on it alone
has custody of that flight until it has published a result (or an invitation to
retry), detached the flight and woken the waiters. This module forgets everything
else about a request. `Phase` is what is left of its program counter, `FlightMove`
what one access may do to the registry, and `FlightsWf` the invariant of any
number of requests that move this way.

* `FlightsWf.unique` — two registered flights have different versioned keys.
* `FlightsWf.leader` — whether a flight is registered, pending, or may have
  waiters is decided by the phase of its leader.
-/

namespace Xlfn.Cache

open Lib Function List Option

/-- What a request has to do with the flights. -/
inductive Phase where
  | idle
  | hashed (hash : UInt64)
  | holding (hash : UInt64)
  /-- Holds the lock and has found no flight for its key. -/
  | registering (hash : UInt64)
  /-- The flight is registered and pending. -/
  | leading (flight : Nat)
  /-- Registered and finished; the waiters are still to be woken. -/
  | announced (flight : Nat)
  | woken (flight : Nat)
  /-- Detached by an unwinding leader, still pending. -/
  | orphaned (flight : Nat)
  | invited (flight : Nat)
deriving DecidableEq

variable {p : Phase} {f : Nat}

namespace Phase

/-- The flight the request has custody of. -/
def flight : Phase → Option Nat
  | .leading f | .announced f | .woken f | .orphaned f | .invited f => some f
  | _ => none

def registers (f : Nat) : Phase → Prop
  | .leading g | .announced g | .woken g => g = f
  | _ => False

/-- The request still owes the flight its result. -/
def owes (f : Nat) : Phase → Prop
  | .leading g | .orphaned g => g = f
  | _ => False

/-- The request will still wake the waiters of the flight. -/
def rings (f : Nat) : Phase → Prop
  | .leading g | .announced g | .orphaned g | .invited g => g = f
  | _ => False

/-- The hash of the shard whose lock the request holds. -/
def locks : Phase → Option UInt64
  | .holding hash | .registering hash => some hash
  | _ => none

/-- The hash the request computed for its key. -/
def hash : Phase → Option UInt64
  | .hashed hash | .holding hash | .registering hash => some hash
  | _ => none

theorem flight_of_registers (h : p.registers f) : p.flight = some f := by
  cases p <;> first | exact h.elim | exact congrArg some h

theorem flight_of_owes (h : p.owes f) : p.flight = some f := by
  cases p <;> first | exact h.elim | exact congrArg some h

theorem flight_of_rings (h : p.rings f) : p.flight = some f := by
  cases p <;> first | exact h.elim | exact congrArg some h

theorem locks_of_flight (h : p.flight = some f) : p.locks = none := by
  cases p <;> first | rfl | cases h

theorem hash_of_flight (h : p.flight = some f) : p.hash = none := by
  cases p <;> first | rfl | cases h

theorem rings_of_owes (h : p.owes f) : p.rings f := by
  cases p <;> first | exact h.elim | exact h

end Phase

variable {K E : Type}

/-- The requests, as the registry knows them. -/
abbrev Parties (K : Type) := Nat → Option (VersionedKey K × Phase)

variable {reg reg' : FlightRegistry K E} {key : VersionedKey K} {flight : Flight K E}

namespace FlightRegistry

def Registered (reg : FlightRegistry K E) (f : Nat) : Prop :=
  ∃ i, f ∈ (reg.shards i).entries

theorem setLock_entries (reg : FlightRegistry K E) (hash : UInt64) (holder : Option Nat)
    (i : Fin flightCoordinationShards) :
    ((reg.setLock hash holder).shards i).entries = (reg.shards i).entries := by
  by_cases hi : i = shardIndex hash
  · subst hi
    simp [setLock, setShard, shard]
  · simp [setLock, setShard, update_of_ne hi]

theorem setLock_lock (reg : FlightRegistry K E) (hash : UInt64) (holder : Option Nat)
    (i : Fin flightCoordinationShards) :
    ((reg.setLock hash holder).shards i).lock =
      if i = shardIndex hash then holder else (reg.shards i).lock := by
  by_cases hi : i = shardIndex hash
  · subst hi
    simp [setLock, setShard]
  · simp [setLock, setShard, hi]

theorem setShard_shards (reg : FlightRegistry K E) (hash : UInt64) (shard : FlightShard)
    (i : Fin flightCoordinationShards) :
    (reg.setShard hash shard).shards i = if i = shardIndex hash then shard else reg.shards i := by
  by_cases hi : i = shardIndex hash
  · subst hi
    simp [setShard]
  · simp [setShard, hi]

theorem insertUnique_shards (reg : FlightRegistry K E) (hash : UInt64) (key : VersionedKey K)
    (leader : Nat) (i : Fin flightCoordinationShards) :
    (reg.insertUnique hash key leader).shards i =
      if i = shardIndex hash then ⟨none, (reg.shards i).entries ++ [reg.heap.length]⟩
      else reg.shards i := by
  have h := setShard_shards reg hash ⟨none, (reg.shard hash).entries ++ [reg.heap.length]⟩ i
  by_cases hi : i = shardIndex hash
  · rw [if_pos hi] at h ⊢
    subst hi
    exact h
  · rw [if_neg hi] at h ⊢
    exact h

variable {hash : UInt64}

theorem registered_insertUnique {leader : Nat} : (reg.insertUnique hash key leader).Registered f ↔
      reg.Registered f ∨ f = reg.heap.length := by
  constructor
  · rintro ⟨i, hi⟩
    rw [insertUnique_shards] at hi
    split at hi
    · rcases mem_append.mp hi with hi | hi
      · exact .inl ⟨i, hi⟩
      · exact .inr (mem_singleton.mp hi)
    · exact .inl ⟨i, hi⟩
  · rintro (⟨i, hi⟩ | rfl)
    · refine ⟨i, ?_⟩
      rw [insertUnique_shards]
      split
      · exact mem_append_left _ hi
      · exact hi
    · refine ⟨shardIndex hash, ?_⟩
      rw [insertUnique_shards, if_pos rfl]
      exact mem_append_right _ (mem_singleton.mpr rfl)

/-- A successful `remove` found its flight and the lock of its shard free. -/
theorem remove_eq_some (h : reg.remove f = some reg') :
    ∃ flight, reg.heap[f]? = some flight ∧ (reg.shard flight.hash).lock = none ∧
      reg' = reg.setShard flight.hash ⟨none, (reg.shard flight.hash).entries.erase f⟩ := by
  unfold remove at h
  split at h
  · rename_i flight hflight
    split at h
    · rename_i hlock
      cases h
      exact ⟨flight, hflight, hlock, rfl⟩
    · cases h
  · cases h

variable [DecidableEq K]

theorem get_eq_some (h : reg.get hash key = some f) :
    ∃ flight, reg.heap[f]? = some flight ∧ flight.key = key := by
  have hf := find?_some h
  obtain ⟨flight, hflight, heq⟩ := (any_eq_true _ _).mp hf
  exact ⟨flight, hflight, (of_decide_eq_true heq).2⟩

/-- It misses only when the shard has no flight with the hash and the key. -/
theorem get_eq_none (h : reg.get hash key = none) (hf : f ∈ (reg.shard hash).entries)
    (hflight : reg.heap[f]? = some flight) (hhash : flight.hash = hash) : flight.key ≠ key := by
  intro hkey
  have hmiss := find?_eq_none.mp h f hf
  exact hmiss (by simp [hflight, hhash, hkey])

end FlightRegistry

open FlightRegistry

/-- One access of request `r`, which asks for `key`, to the registry. -/
inductive FlightMove [DecidableEq K] (flightHash : VersionedKey K → UInt64) (r : Nat)
    (key : VersionedKey K) (reg : FlightRegistry K E) : Phase → FlightRegistry K E → Phase → Prop where
  | stay (p : Phase) : FlightMove flightHash r key reg p reg p
  | hash : FlightMove flightHash r key reg .idle reg (.hashed (flightHash key))
  | lock {h : UInt64} : (reg.shard h).lock = none →
      FlightMove flightHash r key reg (.hashed h) (reg.setLock h (some r)) (.holding h)
  | unlock {h : UInt64} :
      FlightMove flightHash r key reg (.holding h) (reg.setLock h none) .idle
  | absent {h : UInt64} : reg.get h key = none →
      FlightMove flightHash r key reg (.holding h) reg (.registering h)
  | insert {h : UInt64} :
      FlightMove flightHash r key reg (.registering h) (reg.insertUnique h key r)
        (.leading reg.heap.length)
  | announce {f : Nat} {flight : Flight K E} {result : Except E Nat} :
      reg.heap[f]? = some flight →
      FlightMove flightHash r key reg (.leading f)
        (reg.setFlight f { flight with state := .finished result }) (.announced f)
  | wake {f : Nat} {flight : Flight K E} : reg.heap[f]? = some flight →
      FlightMove flightHash r key reg (.announced f)
        (reg.setFlight f { flight with waiters := [] }) (.woken f)
  | detach {f : Nat} {reg' : FlightRegistry K E} : reg.remove f = some reg' →
      FlightMove flightHash r key reg (.woken f) reg' .idle
  | abandon {f : Nat} {reg' : FlightRegistry K E} : reg.remove f = some reg' →
      FlightMove flightHash r key reg (.leading f) reg' (.orphaned f)
  | invite {f : Nat} {flight : Flight K E} : reg.heap[f]? = some flight →
      FlightMove flightHash r key reg (.orphaned f)
        (reg.setFlight f { flight with state := flight.state.abandoned }) (.invited f)
  | dismiss {f : Nat} {flight : Flight K E} : reg.heap[f]? = some flight →
      FlightMove flightHash r key reg (.invited f)
        (reg.setFlight f { flight with waiters := [] }) .idle
  | park {f : Nat} {flight : Flight K E} : reg.heap[f]? = some flight → flight.state = .pending →
      FlightMove flightHash r key reg .idle
        (reg.setFlight f { flight with waiters := r :: flight.waiters }) .idle

/-- What the phase of the leader of a flight says about it. -/
structure Custody (reg : FlightRegistry K E) (f : Nat) (flight : Flight K E) (p : Phase) :
    Prop where
  registered : reg.Registered f ↔ p.registers f
  pending    : flight.state = .pending ↔ p.owes f
  waiters    : flight.waiters ≠ [] → p.rings f

/-- The invariant of the registry and the requests that use it. -/
structure FlightsWf (flightHash : VersionedKey K → UInt64) (reg : FlightRegistry K E)
    (ps : Parties K) : Prop where
  leader : ∀ (f : Nat) (flight : Flight K E), reg.heap[f]? = some flight →
    ∃ p, ps flight.leader = some (flight.key, p) ∧ Custody reg f flight p
  owns   : ∀ r key p f, ps r = some (key, p) → p.flight = some f →
    ∃ flight, reg.heap[f]? = some flight ∧ flight.leader = r
  hashes : ∀ (f : Nat) (flight : Flight K E), reg.heap[f]? = some flight →
    flight.hash = flightHash flight.key
  placed : ∀ i f, f ∈ (reg.shards i).entries →
    ∃ flight, reg.heap[f]? = some flight ∧ shardIndex flight.hash = i
  nodup  : ∀ i, (reg.shards i).entries.Nodup
  unique : ∀ (f g : Nat) (flight flight' : Flight K E), reg.heap[f]? = some flight →
    reg.heap[g]? = some flight' → reg.Registered f → reg.Registered g → flight.key = flight'.key → f = g
  lock   : ∀ i r, (reg.shards i).lock = some r ↔
    ∃ key p h, ps r = some (key, p) ∧ p.locks = some h ∧ shardIndex h = i
  hashed : ∀ r key p h, ps r = some (key, p) → p.hash = some h → h = flightHash key
  absent : ∀ (r : Nat) key h (f : Nat) (flight : Flight K E), ps r = some (key, .registering h) →
    reg.heap[f]? = some flight → reg.Registered f → flight.key ≠ key

/-- A request that has to do with another flight than `f`, before and after. -/
theorem Custody.elsewhere {p' : Phase} (h : Custody reg f flight p) (hp : p.flight ≠ some f)
    (hp' : p'.flight ≠ some f) : Custody reg f flight p' where
  registered := ⟨fun hf => absurd (Phase.flight_of_registers (h.registered.mp hf)) hp,
    fun hf => absurd (Phase.flight_of_registers hf) hp'⟩
  pending := ⟨fun hf => absurd (Phase.flight_of_owes (h.pending.mp hf)) hp,
    fun hf => absurd (Phase.flight_of_owes hf) hp'⟩
  waiters hf := absurd (Phase.flight_of_rings (h.waiters hf)) hp

theorem Custody.congr (h : Custody reg f flight p) (hreg : reg'.Registered f ↔ reg.Registered f) :
    Custody reg' f flight p :=
  ⟨hreg.trans h.registered, h.pending, h.waiters⟩

namespace FlightsWf

variable {flightHash : VersionedKey K → UInt64} {ps : Parties K} {r : Nat} {p' : Phase}
  {flight' : Flight K E}

section

variable (h : FlightsWf flightHash reg ps)
include h

theorem leader_eq (hr : ps r = some (key, p))
    (hf : reg.heap[f]? = some flight) (hleader : flight.leader = r) :
    flight.key = key ∧ Custody reg f flight p := by
  obtain ⟨q, hq, hcustody⟩ := h.leader f flight hf
  rw [hleader, hr] at hq
  cases hq
  exact ⟨rfl, hcustody⟩

theorem leads (hr : ps r = some (key, p))
    (hp : p.flight = some f) : ∃ flight, reg.heap[f]? = some flight ∧ flight.leader = r ∧
      flight.key = key ∧ Custody reg f flight p := by
  obtain ⟨flight, hf, hleader⟩ := h.owns r key p f hr hp
  exact ⟨flight, hf, hleader, h.leader_eq hr hf hleader⟩

-- The requests other than `r` and the flights they lead are untouched by what `r` does.
theorem leader_of_ne (x : Option (VersionedKey K × Phase))
    (hf : reg.heap[f]? = some flight) (hne : flight.leader ≠ r) :
    ∃ q, update ps r x flight.leader = some (flight.key, q) ∧ Custody reg f flight q := by
  obtain ⟨q, hq, hcustody⟩ := h.leader f flight hf
  exact ⟨q, by rw [update_of_ne hne, hq], hcustody⟩

/-- A request without custody of a flight changes its phase and, at most, the lock
of a shard. -/
theorem at_rest (hr : ps r = some (key, p))
    (hp : p.flight = none) (hp' : p'.flight = none) (hheap : reg'.heap = reg.heap)
    (hentries : ∀ i, (reg'.shards i).entries = (reg.shards i).entries)
    (hlock : ∀ i x, (reg'.shards i).lock = some x ↔ ∃ key' q k,
      update ps r (some (key, p')) x = some (key', q) ∧ q.locks = some k ∧
        shardIndex k = i)
    (hhash : ∀ k, p'.hash = some k → k = flightHash key)
    (habsent : ∀ k, p' = .registering k → ∀ (g : Nat) (flight : Flight K E),
      reg.heap[g]? = some flight → reg.Registered g → flight.key ≠ key) :
    FlightsWf flightHash reg' (update ps r (some (key, p'))) := by
  have hreg : ∀ g, reg'.Registered g ↔ reg.Registered g := fun g => by
    simp only [Registered, hentries]
  constructor
  case leader =>
    intro g flight hg
    rw [hheap] at hg
    by_cases hleader : flight.leader = r
    · obtain ⟨hkey, hcustody⟩ := h.leader_eq hr hg hleader
      refine ⟨p', by rw [hleader, update_self, hkey], ?_⟩
      refine (hcustody.elsewhere ?_ ?_).congr (hreg g)
      · rw [hp]
        exact some_ne_none _ |>.symm
      · rw [hp']
        exact some_ne_none _ |>.symm
    · obtain ⟨q, hq, hcustody⟩ := h.leader_of_ne (r := r) (some (key, p')) hg hleader
      exact ⟨q, hq, hcustody.congr (hreg g)⟩
  case owns =>
    intro x key' q g hx hq
    rw [hheap]
    rw [update_apply] at hx
    split at hx
    · cases hx
      rw [hp'] at hq
      cases hq
    · exact h.owns x key' q g hx hq
  case hashes => exact fun g flight hg => h.hashes g flight (hheap ▸ hg)
  case placed =>
    intro i g hg
    rw [hentries] at hg
    rw [hheap]
    exact h.placed i g hg
  case nodup => exact fun i => hentries i ▸ h.nodup i
  case unique =>
    intro g g' flight flight' hg hg' hreg_g hreg_g'
    rw [hheap] at hg hg'
    exact h.unique g g' flight flight' hg hg' ((hreg g).mp hreg_g) ((hreg g').mp hreg_g')
  case lock => exact hlock
  case hashed =>
    intro x key' q k hx hq
    rw [update_apply] at hx
    split at hx
    · cases hx
      exact hhash k hq
    · exact h.hashed x key' q k hx hq
  case absent =>
    intro x key' k g flight hx hg hreg_g
    rw [hheap] at hg
    rw [update_apply] at hx
    split at hx
    · cases hx
      exact habsent k rfl g flight hg ((hreg g).mp hreg_g)
    · exact h.absent x key' k g flight hx hg ((hreg g).mp hreg_g)

theorem lock_of_same (hr : ps r = some (key, p))
    (hlocks : p'.locks = p.locks) (i : Fin flightCoordinationShards) (x : Nat) :
    (reg.shards i).lock = some x ↔ ∃ key' q k,
      update ps r (some (key, p')) x = some (key', q) ∧ q.locks = some k ∧
        shardIndex k = i := by
  rw [h.lock]
  by_cases hx : x = r
  · subst hx
    rw [update_self, hr]
    constructor
    · rintro ⟨key', q, k, heq, hq, hk⟩
      cases heq
      exact ⟨key, p', k, rfl, hlocks.trans hq, hk⟩
    · rintro ⟨key', q, k, heq, hq, hk⟩
      cases heq
      exact ⟨key, p, k, rfl, hlocks.symm.trans hq, hk⟩
  · rw [update_of_ne hx]

theorem holder_unique {x : Nat} {key' : VersionedKey K}
    {q : Phase} {k k' : UInt64} (hr : ps r = some (key, p)) (hp : p.locks = some k)
    (hx : ps x = some (key', q)) (hq : q.locks = some k') (hk : shardIndex k = shardIndex k') :
    r = x := by
  have h1 : (reg.shards (shardIndex k)).lock = some r := (h.lock _ r).mpr ⟨key, p, k, hr, hp, rfl⟩
  have h2 : (reg.shards (shardIndex k)).lock = some x :=
    (h.lock _ x).mpr ⟨key', q, k', hx, hq, hk.symm⟩
  exact some_inj.mp (h1.symm.trans h2)

theorem lock_of_set (k : UInt64) (holder : Option Nat)
    (p' : Phase) (hr : ps r = some (key, p)) (hp : ∀ k', p.locks = some k' → k' = k)
    (hfree : ∀ x, (reg.shard k).lock = some x → x = r)
    (hholder : (holder = some r ∧ p'.locks = some k) ∨ (holder = none ∧ p'.locks = none))
    (i : Fin flightCoordinationShards) (x : Nat) :
    ((reg.setLock k holder).shards i).lock = some x ↔ ∃ key' q k',
      update ps r (some (key, p')) x = some (key', q) ∧ q.locks = some k' ∧
        shardIndex k' = i := by
  rw [setLock_lock]
  by_cases hx : x = r
  · subst hx
    rw [update_self]
    rcases hholder with ⟨rfl, hp'⟩ | ⟨rfl, hp'⟩
    · split
      · rename_i hi
        exact ⟨fun _ => ⟨key, p', k, rfl, hp', hi.symm⟩, fun _ => rfl⟩
      · rename_i hi
        constructor
        · intro hlock
          obtain ⟨key', q, k', heq, hq, hk'⟩ := (h.lock i x).mp hlock
          rw [hr] at heq
          cases heq
          rw [hp k' hq] at hk'
          exact absurd hk'.symm hi
        · rintro ⟨key', q, k', heq, hq, hk'⟩
          cases heq
          rw [hp'] at hq
          cases hq
          exact absurd hk'.symm hi
    · constructor
      · intro hlock
        split at hlock
        · cases hlock
        · rename_i hi
          obtain ⟨key', q, k', heq, hq, hk'⟩ := (h.lock i x).mp hlock
          rw [hr] at heq
          cases heq
          rw [hp k' hq] at hk'
          exact absurd hk'.symm hi
      · rintro ⟨key', q, k', heq, hq, -⟩
        cases heq
        rw [hp'] at hq
        cases hq
  · rw [update_of_ne hx, ← h.lock i x]
    split
    · rename_i hi
      constructor
      · intro hlock
        rcases hholder with ⟨rfl, -⟩ | ⟨rfl, -⟩
        · cases hlock
          exact absurd rfl hx
        · cases hlock
      · intro hlock
        rw [hi] at hlock
        exact absurd (hfree x hlock) hx
    · exact Iff.rfl

/-- The leader of a flight, or a request that joins its waiters, rewrites it. -/
theorem repost (hf : reg.heap[f]? = some flight)
    (hr : ps r = some (key, p)) (hleader : flight.leader = r) (hp : p.flight = some f)
    (hp' : p'.flight = some f ∨ p' = .idle) (hkey : flight'.key = flight.key)
    (hhash : flight'.hash = flight.hash) (hleader' : flight'.leader = flight.leader)
    (hregisters : p'.registers f ↔ p.registers f)
    (hpending : flight'.state = .pending ↔ p'.owes f)
    (hwaiters : flight'.waiters ≠ [] → p'.rings f) :
    FlightsWf flightHash (reg.setFlight f flight') (update ps r (some (key, p'))) := by
  obtain ⟨hflight_key, hcustody⟩ := h.leader_eq hr hf hleader
  have hnolock : p'.locks = none := by
    rcases hp' with hp' | rfl
    · exact Phase.locks_of_flight hp'
    · rfl
  have hnohash : p'.hash = none := by
    rcases hp' with hp' | rfl
    · exact Phase.hash_of_flight hp'
    · rfl
  -- A flight of the new heap is the rewritten one or an old one.
  have hcases : ∀ {g : Nat} {fl : Flight K E}, (reg.setFlight f flight').heap[g]? = some fl →
      (g = f ∧ fl = flight') ∨ (g ≠ f ∧ reg.heap[g]? = some fl) :=
    fun hg => getElem?_set_cases hf hg
  have hold : ∀ {g : Nat} {fl : Flight K E}, (reg.setFlight f flight').heap[g]? = some fl →
      ∃ fl₀, reg.heap[g]? = some fl₀ ∧ fl₀.key = fl.key ∧ fl₀.hash = fl.hash := by
    intro g fl hg
    rcases hcases hg with ⟨rfl, rfl⟩ | ⟨-, hg⟩
    · exact ⟨flight, hf, hkey.symm, hhash.symm⟩
    · exact ⟨fl, hg, rfl, rfl⟩
  have hnew : ∀ {g : Nat} {fl : Flight K E}, reg.heap[g]? = some fl →
      ∃ fl', (reg.setFlight f flight').heap[g]? = some fl' ∧ fl'.hash = fl.hash ∧
        fl'.leader = fl.leader := by
    intro g fl hg
    by_cases hgf : g = f
    · subst hgf
      rw [hf] at hg
      cases hg
      refine ⟨flight', ?_, hhash, hleader'⟩
      rw [setFlight, getElem?_set_self (List.getElem_of_getElem? hf).1]
    · exact ⟨fl, by rw [setFlight, getElem?_set_ne (Ne.symm hgf), hg], rfl, rfl⟩
  constructor
  case leader =>
    intro g fl hg
    rcases hcases hg with ⟨rfl, rfl⟩ | ⟨hgf, hg⟩
    · refine ⟨p', ?_, hcustody.registered.trans hregisters.symm, hpending, hwaiters⟩
      rw [hleader', hleader, update_self, hkey, hflight_key]
    · by_cases hfl : fl.leader = r
      · obtain ⟨hfl_key, hfl_custody⟩ := h.leader_eq hr hg hfl
        refine ⟨p', by rw [hfl, update_self, hfl_key],
          (hfl_custody.elsewhere ?_ ?_).congr Iff.rfl⟩
        · rw [hp]
          exact fun heq => hgf (some_inj.mp heq).symm
        · rcases hp' with hp' | rfl
          · rw [hp']
            exact fun heq => hgf (some_inj.mp heq).symm
          · exact nofun
      · obtain ⟨q, hq, hfl_custody⟩ := h.leader_of_ne (some (key, p')) hg hfl
        exact ⟨q, hq, hfl_custody.congr Iff.rfl⟩
  case owns =>
    intro x key' q g hx hq
    have hown : ∃ fl, reg.heap[g]? = some fl ∧ fl.leader = x := by
      rw [update_apply] at hx
      split at hx
      · rename_i hxr
        cases hx
        rcases hp' with hp' | rfl
        · rw [hp'] at hq
          cases hq
          exact ⟨flight, hf, hleader.trans hxr.symm⟩
        · cases hq
      · exact h.owns x key' q g hx hq
    obtain ⟨fl, hg, hfl⟩ := hown
    obtain ⟨fl', hg', -, hfl'⟩ := hnew hg
    exact ⟨fl', hg', hfl'.trans hfl⟩
  case hashes =>
    intro g fl hg
    obtain ⟨fl₀, hg₀, hk₀, hh₀⟩ := hold hg
    rw [← hk₀, ← hh₀]
    exact h.hashes g fl₀ hg₀
  case placed =>
    intro i g hg
    obtain ⟨fl, hgl, hi⟩ := h.placed i g hg
    obtain ⟨fl', hg', hh', -⟩ := hnew hgl
    exact ⟨fl', hg', by rw [hh', hi]⟩
  case nodup => exact h.nodup
  case unique =>
    intro g g' fl fl' hg hg' hreg_g hreg_g' hkeys
    obtain ⟨fl₀, hg₀, hk₀, -⟩ := hold hg
    obtain ⟨fl₁, hg₁, hk₁, -⟩ := hold hg'
    exact h.unique g g' fl₀ fl₁ hg₀ hg₁ hreg_g hreg_g' (by rw [hk₀, hk₁, hkeys])
  case lock =>
    exact h.lock_of_same hr (hnolock.trans (Phase.locks_of_flight hp).symm)
  case hashed =>
    intro x key' q k hx hq
    rw [update_apply] at hx
    split at hx
    · cases hx
      rw [hnohash] at hq
      cases hq
    · exact h.hashed x key' q k hx hq
  case absent =>
    intro x key' k g fl hx hg hreg_g
    obtain ⟨fl₀, hg₀, hk₀, -⟩ := hold hg
    rw [← hk₀]
    rw [update_apply] at hx
    split at hx
    · cases hx
      cases hnohash
    · exact h.absent x key' k g fl₀ hx hg₀ hreg_g

theorem detached (hr : ps r = some (key, p))
    (hp : p.flight = some f) (hp' : p'.flight = some f ∨ p' = .idle)
    (hremove : reg.remove f = some reg') (hregisters : ¬p'.registers f)
    (howes : p'.owes f ↔ p.owes f) (hrings : p.rings f → p'.rings f) :
    FlightsWf flightHash reg' (update ps r (some (key, p'))) := by
  obtain ⟨flight, hf, hleader, hflight_key, hcustody⟩ := h.leads hr hp
  obtain ⟨flight₀, hf₀, hfree, rfl⟩ := remove_eq_some hremove
  obtain rfl : flight₀ = flight := some_inj.mp (hf₀.symm.trans hf)
  have hnolock : p'.locks = none := by
    rcases hp' with hp' | rfl
    · exact Phase.locks_of_flight hp'
    · rfl
  have hnohash : p'.hash = none := by
    rcases hp' with hp' | rfl
    · exact Phase.hash_of_flight hp'
    · rfl
  set reg' := reg.setShard flight₀.hash ⟨none, (reg.shard flight₀.hash).entries.erase f⟩
  have hheap : reg'.heap = reg.heap := rfl
  have hsub : ∀ {i g}, g ∈ (reg'.shards i).entries → g ∈ (reg.shards i).entries ∧ g ≠ f := by
    intro i g hg
    rw [setShard_shards] at hg
    split at hg
    · rename_i hi
      subst hi
      have hg' := (h.nodup _).mem_erase_iff.mp hg
      exact ⟨hg'.2, hg'.1⟩
    · rename_i hi
      refine ⟨hg, ?_⟩
      rintro rfl
      obtain ⟨fl, hfl, hplace⟩ := h.placed i g hg
      rw [hf] at hfl
      cases hfl
      exact hi hplace.symm
  have hreg : ∀ g, reg'.Registered g ↔ reg.Registered g ∧ g ≠ f := by
    intro g
    constructor
    · rintro ⟨i, hi⟩
      exact ⟨⟨i, (hsub hi).1⟩, (hsub hi).2⟩
    · rintro ⟨⟨i, hi⟩, hne⟩
      refine ⟨i, ?_⟩
      rw [setShard_shards]
      split
      · rename_i hii
        subst hii
        exact (mem_erase_of_ne hne).mpr hi
      · exact hi
  constructor
  case leader =>
    intro g fl hg
    rw [hheap] at hg
    by_cases hgf : g = f
    · subst hgf
      rw [hf] at hg
      cases hg
      refine ⟨p', by rw [hleader, update_self, hflight_key], ?_⟩
      refine ⟨?_, hcustody.pending.trans howes.symm, fun hw => hrings (hcustody.waiters hw)⟩
      exact ⟨fun hg => absurd rfl ((hreg g).mp hg).2, fun hg => absurd hg hregisters⟩
    · have hsame : reg'.Registered g ↔ reg.Registered g := by simp [hreg, hgf]
      by_cases hfl : fl.leader = r
      · obtain ⟨hfl_key, hfl_custody⟩ := h.leader_eq hr hg hfl
        refine ⟨p', by rw [hfl, update_self, hfl_key],
          (hfl_custody.elsewhere ?_ ?_).congr hsame⟩
        · rw [hp]
          exact fun heq => hgf (some_inj.mp heq).symm
        · rcases hp' with hp' | rfl
          · rw [hp']
            exact fun heq => hgf (some_inj.mp heq).symm
          · exact nofun
      · obtain ⟨q, hq, hfl_custody⟩ := h.leader_of_ne (some (key, p')) hg hfl
        exact ⟨q, hq, hfl_custody.congr hsame⟩
  case owns =>
    intro x key' q g hx hq
    rw [hheap]
    rw [update_apply] at hx
    split at hx
    · rename_i hxr
      cases hx
      rcases hp' with hp' | rfl
      · rw [hp'] at hq
        cases hq
        exact ⟨flight₀, hf, hleader.trans hxr.symm⟩
      · cases hq
    · exact h.owns x key' q g hx hq
  case hashes => exact h.hashes
  case placed => exact fun i g hg => h.placed i g (hsub hg).1
  case nodup =>
    intro i
    rw [setShard_shards]
    split
    · exact (h.nodup _).erase f
    · exact h.nodup i
  case unique =>
    intro g g' fl fl' hg hg' hreg_g hreg_g'
    exact h.unique g g' fl fl' hg hg' ((hreg g).mp hreg_g).1 ((hreg g').mp hreg_g').1
  case lock =>
    intro i x
    rw [← h.lock_of_same hr (hnolock.trans (Phase.locks_of_flight hp).symm) i x, setShard_shards]
    split
    · rename_i hi
      subst hi
      rw [show (reg.shards (shardIndex flight₀.hash)).lock = none from hfree]
    · exact Iff.rfl
  case hashed =>
    intro x key' q k hx hq
    rw [update_apply] at hx
    split at hx
    · cases hx
      rw [hnohash] at hq
      cases hq
    · exact h.hashed x key' q k hx hq
  case absent =>
    intro x key' k g fl hx hg hreg_g
    rw [update_apply] at hx
    split at hx
    · cases hx
      cases hnohash
    · exact h.absent x key' k g fl hx hg ((hreg g).mp hreg_g).1

/-- A request that holds the lock and found no flight for its key registers one. -/
theorem inserted {k : UInt64} (hr : ps r = some (key, .registering k)) :
    FlightsWf flightHash (reg.insertUnique k key r)
      (update ps r (some (key, .leading reg.heap.length))) := by
  have hk : k = flightHash key := h.hashed r key _ k hr rfl
  have hheap : (reg.insertUnique k key r).heap = reg.heap ++ [⟨key, k, .pending, [], r⟩] := rfl
  have hfresh : ¬reg.Registered reg.heap.length := by
    rintro ⟨i, hi⟩
    obtain ⟨fl, hfl, -⟩ := h.placed i _ hi
    exact Nat.lt_irrefl _ (List.getElem_of_getElem? hfl).1
  have hcases : ∀ {g : Nat} {fl : Flight K E},
      (reg.insertUnique k key r).heap[g]? = some fl →
      (g < reg.heap.length ∧ reg.heap[g]? = some fl) ∨
        (g = reg.heap.length ∧ fl = ⟨key, k, .pending, [], r⟩) := by
    intro g fl hg
    rw [hheap] at hg
    rcases getElem?_append_singleton_cases hg with hg | ⟨hlt, hfl⟩
    · exact .inl ⟨(List.getElem_of_getElem? hg).1, hg⟩
    · exact .inr ⟨hlt, hfl⟩
  have hold : ∀ {g : Nat} {fl : Flight K E}, reg.heap[g]? = some fl →
      (reg.insertUnique k key r).heap[g]? = some fl := by
    intro g fl hg
    rw [hheap, getElem?_append_left (List.getElem_of_getElem? hg).1, hg]
  have hlast : (reg.insertUnique k key r).heap[reg.heap.length]? =
      some ⟨key, k, .pending, [], r⟩ := by
    rw [hheap, getElem?_concat_length]
  have hsame : ∀ {g}, g < reg.heap.length →
      ((reg.insertUnique k key r).Registered g ↔ reg.Registered g) := by
    intro g hg
    rw [registered_insertUnique]
    exact or_iff_left (Nat.ne_of_lt hg)
  constructor
  case leader =>
    intro g fl hg
    rcases hcases hg with ⟨hlt, hg⟩ | ⟨rfl, rfl⟩
    · by_cases hfl : fl.leader = r
      · -- The request had custody of no flight.
        obtain ⟨hfl_key, hfl_custody⟩ := h.leader_eq hr hg hfl
        refine ⟨_, by rw [hfl, update_self, hfl_key],
          (hfl_custody.elsewhere nofun ?_).congr (hsame hlt)⟩
        intro heq
        cases heq
        exact Nat.lt_irrefl _ hlt
      · obtain ⟨q, hq, hfl_custody⟩ := h.leader_of_ne (some (key, _)) hg hfl
        exact ⟨q, hq, hfl_custody.congr (hsame hlt)⟩
    · refine ⟨.leading reg.heap.length, update_self .., ?_, ?_, fun hw => absurd rfl hw⟩
      · exact ⟨fun _ => rfl, fun _ => registered_insertUnique.mpr (.inr rfl)⟩
      · exact ⟨fun _ => rfl, fun _ => rfl⟩
  case owns =>
    intro x key' q g hx hq
    rw [update_apply] at hx
    split at hx
    · rename_i hxr
      cases hx
      cases hq
      exact ⟨_, hlast, hxr.symm⟩
    · obtain ⟨fl, hg, hfl⟩ := h.owns x key' q g hx hq
      exact ⟨fl, hold hg, hfl⟩
  case hashes =>
    intro g fl hg
    rcases hcases hg with ⟨-, hg⟩ | ⟨-, rfl⟩
    · exact h.hashes g fl hg
    · exact hk
  case placed =>
    intro i g hg
    rw [insertUnique_shards] at hg
    split at hg
    · rename_i hi
      rcases mem_append.mp hg with hg | hg
      · obtain ⟨fl, hfl, hplace⟩ := h.placed i g hg
        exact ⟨fl, hold hfl, hplace⟩
      · rw [mem_singleton.mp hg]
        exact ⟨_, hlast, hi.symm⟩
    · obtain ⟨fl, hfl, hplace⟩ := h.placed i g hg
      exact ⟨fl, hold hfl, hplace⟩
  case nodup =>
    intro i
    rw [insertUnique_shards]
    split
    · refine nodup_append.mpr ⟨h.nodup i, nodup_singleton _, ?_⟩
      rintro g hg _ hlen rfl
      rw [mem_singleton.mp hlen] at hg
      exact hfresh ⟨i, hg⟩
    · exact h.nodup i
  case unique =>
    intro g g' fl fl' hg hg' hreg_g hreg_g' hkeys
    rcases hcases hg with ⟨hlt, hg⟩ | ⟨rfl, rfl⟩
    · rcases hcases hg' with ⟨hlt', hg'⟩ | ⟨rfl, rfl⟩
      · exact h.unique g g' fl fl' hg hg' ((hsame hlt).mp hreg_g) ((hsame hlt').mp hreg_g') hkeys
      · exact absurd hkeys (h.absent r key k g fl hr hg ((hsame hlt).mp hreg_g))
    · rcases hcases hg' with ⟨hlt', hg'⟩ | ⟨rfl, rfl⟩
      · exact absurd hkeys.symm (h.absent r key k g' fl' hr hg' ((hsame hlt').mp hreg_g'))
      · rfl
  case lock =>
    intro i x
    have hset := h.lock_of_set k none (.leading reg.heap.length) hr
      (fun k' hk' => (some_inj.mp hk').symm) ?_ (.inr ⟨rfl, rfl⟩) i x
    · rw [← hset, setLock_lock, insertUnique_shards]
      split <;> rfl
    · intro y hy
      obtain ⟨key', q, k', hq, hlocks, hplace⟩ := (h.lock _ y).mp hy
      exact (h.holder_unique hr rfl hq hlocks hplace.symm).symm
  case hashed =>
    intro x key' q k' hx hq
    rw [update_apply] at hx
    split at hx
    · cases hx
      cases hq
    · exact h.hashed x key' q k' hx hq
  case absent =>
    intro x key' k' g fl hx hg hreg_g
    rw [update_apply] at hx
    split at hx
    · cases hx
    · rename_i hxr
      rcases hcases hg with ⟨hlt, hg⟩ | ⟨rfl, rfl⟩
      · exact h.absent x key' k' g fl hx hg ((hsame hlt).mp hreg_g)
      · -- Both requests would hold the lock of the shard of the key.
        rintro rfl
        have hk' : k' = flightHash key := h.hashed x key _ k' hx rfl
        exact hxr (h.holder_unique hx rfl hr rfl (by rw [hk, hk']))

end

theorem new : FlightsWf flightHash (FlightRegistry.new (E := E)) (fun _ => none) where
  leader f _ hf := by cases hf
  owns _ _ _ _ hr := by cases hr
  hashes f _ hf := by cases hf
  placed i f hf := by cases hf
  nodup _ := nodup_nil
  unique f _ _ _ hf := by cases hf
  lock i r := by
    constructor
    · intro hlock
      cases hlock
    · rintro ⟨_, _, _, hr, -⟩
      cases hr
  hashed _ _ _ _ hr := by cases hr
  absent _ _ _ f _ hr := by cases hr

/-- A request that has just started has nothing to do with the flights. -/
theorem start (h : FlightsWf flightHash reg ps) (hr : ps r = none) (key : VersionedKey K) :
    FlightsWf flightHash reg (update ps r (some (key, .idle))) := by
  have hne : ∀ {x y}, ps x = some y → x ≠ r := by
    rintro x y hx rfl
    rw [hr] at hx
    cases hx
  have hold : ∀ {x key' q}, update ps r (some (key, .idle)) x = some (key', q) →
      q = .idle ∨ ps x = some (key', q) := by
    intro x key' q hx
    rw [update_apply] at hx
    split at hx
    · cases hx
      exact .inl rfl
    · exact .inr hx
  constructor
  case leader =>
    intro f flight hf
    obtain ⟨p, hp, hcustody⟩ := h.leader f flight hf
    exact ⟨p, by rw [update_of_ne (hne hp), hp], hcustody⟩
  case owns =>
    intro x key' q f hx hq
    rcases hold hx with rfl | hx
    · cases hq
    · exact h.owns x key' q f hx hq
  case hashes => exact h.hashes
  case placed => exact h.placed
  case nodup => exact h.nodup
  case unique => exact h.unique
  case lock =>
    intro i x
    rw [h.lock]
    constructor
    · rintro ⟨key', q, k, hx, hq⟩
      exact ⟨key', q, k, by rw [update_of_ne (hne hx), hx], hq⟩
    · rintro ⟨key', q, k, hx, hq, hk⟩
      rcases hold hx with rfl | hx
      · cases hq
      · exact ⟨key', q, k, hx, hq, hk⟩
  case hashed =>
    intro x key' q k hx hq
    rcases hold hx with rfl | hx
    · cases hq
    · exact h.hashed x key' q k hx hq
  case absent =>
    intro x key' k f flight hx
    rcases hold hx with hidle | hx
    · cases hidle
    · exact h.absent x key' k f flight hx

/-- **Every move of a request keeps the custody of the flights.** -/
theorem move [DecidableEq K] (h : FlightsWf flightHash reg ps) (hr : ps r = some (key, p))
    (hmove : FlightMove flightHash r key reg p reg' p') :
    FlightsWf flightHash reg' (update ps r (some (key, p'))) := by
  cases hmove with
  | stay =>
    rw [← hr, update_eq_self]
    exact h
  | hash =>
    refine h.at_rest hr rfl rfl rfl (fun _ => rfl) (h.lock_of_same hr rfl) ?_ ?_
    · intro k hk
      exact (some_inj.mp hk).symm
    · intro k hk
      cases hk
  | @lock k hfree =>
    refine h.at_rest hr rfl rfl rfl (setLock_entries reg k _)
      (h.lock_of_set k (some r) _ hr ?_ ?_ (.inl ⟨rfl, rfl⟩)) ?_ ?_
    · intro k' hk'
      cases hk'
    · intro x hx
      rw [hfree] at hx
      cases hx
    · intro k' hk'
      exact h.hashed r key _ k' hr hk'
    · intro k' hk'
      cases hk'
  | @unlock k =>
    refine h.at_rest hr rfl rfl rfl (setLock_entries reg k _)
      (h.lock_of_set k none _ hr ?_ ?_ (.inr ⟨rfl, rfl⟩)) ?_ ?_
    · intro k' hk'
      exact (some_inj.mp hk').symm
    · intro x hx
      obtain ⟨key', q, k', hq, hlocks, hplace⟩ := (h.lock _ x).mp hx
      exact (h.holder_unique hr rfl hq hlocks hplace.symm).symm
    · intro k' hk'
      cases hk'
    · intro k' hk'
      cases hk'
  | @absent k hget =>
    refine h.at_rest hr rfl rfl rfl (fun _ => rfl) (h.lock_of_same hr rfl) ?_ ?_
    · intro k' hk'
      exact h.hashed r key _ k' hr hk'
    · -- A flight for the key would be in the shard of its hash.
      rintro k' - g flight hg ⟨i, hi⟩ hkey
      obtain ⟨fl, hfl, hplace⟩ := h.placed i g hi
      rw [hg] at hfl
      cases hfl
      have hhash : flight.hash = k := by
        rw [h.hashes g flight hg, hkey, h.hashed r key _ k hr rfl]
      refine get_eq_none hget (f := g) ?_ hg hhash hkey
      rw [shard, ← hhash, hplace]
      exact hi
  | insert => exact h.inserted hr
  | @announce f flight result hf =>
    obtain ⟨fl, hfl, hleader, -, hcustody⟩ := h.leads (f := f) hr rfl
    obtain rfl : fl = flight := some_inj.mp (hfl.symm.trans hf)
    refine h.repost hf hr hleader rfl (.inl rfl) rfl rfl rfl Iff.rfl ?_ hcustody.waiters
    constructor
    · intro hpending
      cases hpending
    · exact fun howes => howes.elim
  | @wake f flight hf =>
    obtain ⟨fl, hfl, hleader, -, hcustody⟩ := h.leads (f := f) hr rfl
    obtain rfl : fl = flight := some_inj.mp (hfl.symm.trans hf)
    exact h.repost hf hr hleader rfl (.inl rfl) rfl rfl rfl Iff.rfl hcustody.pending
      (fun hw => absurd rfl hw)
  | @detach f _ hremove =>
    exact h.detached (f := f) hr rfl (.inr rfl) hremove id Iff.rfl id
  | @abandon f _ hremove =>
    exact h.detached (f := f) hr rfl (.inl rfl) hremove id Iff.rfl id
  | @invite f flight hf =>
    obtain ⟨fl, hfl, hleader, -, hcustody⟩ := h.leads (f := f) hr rfl
    obtain rfl : fl = flight := some_inj.mp (hfl.symm.trans hf)
    refine h.repost hf hr hleader rfl (.inl rfl) rfl rfl rfl Iff.rfl ?_ hcustody.waiters
    constructor
    · intro hpending
      cases hstate : fl.state <;> rw [hstate] at hpending <;> cases hpending
    · exact fun howes => howes.elim
  | @dismiss f flight hf =>
    obtain ⟨fl, hfl, hleader, -, hcustody⟩ := h.leads (f := f) hr rfl
    obtain rfl : fl = flight := some_inj.mp (hfl.symm.trans hf)
    exact h.repost hf hr hleader rfl (.inr rfl) rfl rfl rfl Iff.rfl hcustody.pending
      (fun hw => absurd rfl hw)
  | @park f flight hf hstate =>
    -- The leader of a pending flight owes it a result, so it will still ring.
    obtain ⟨q, hq, hcustody⟩ := h.leader f flight hf
    have howes : q.owes f := hcustody.pending.mp hstate
    rw [← hr, update_eq_self, ← update_eq_self flight.leader ps, hq]
    exact h.repost hf hq rfl (Phase.flight_of_owes howes) (.inl (Phase.flight_of_owes howes))
      rfl rfl rfl Iff.rfl hcustody.pending (fun _ => Phase.rings_of_owes howes)

end FlightsWf

end Xlfn.Cache
