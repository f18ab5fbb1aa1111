import Xlfn.Cache.SingleFlight

/-!
# Xlfn — cache generations

A request belongs to the generation it loads when it starts, and so does every
value that is computed for it. Two things follow, over every interleaving of
requests and clears.

* Provenance (`ProvenanceWf`, `Knows`): whatever node a request holds was created
  by a request for the same key in the same epoch, whether it came from the index,
  from a flight or from the request's own `compute`.
* Sweeping (`AllCovered`): a resident entry of an older epoch is one whose insertion
  is still to be settled by the re-check, or one that a clear has yet to sweep. A
  clear that has incremented the generation and not yet loaded it covers every
  entry; one that has loaded `v` covers the entries below `v`. An overtaken insertion
  whose removal unwinds in `Hash` or `Eq` of the key is lost to both, so the second
  part is about the runs without such a step (`Settles`).

`cache_generations` reads both off. Epochs are `u64` and wrap; "older" is the
comparison the sweep makes.
-/

namespace Xlfn.Cache

open Lib FlightRegistry List

variable {K V E : Type}

-- ---- Where nodes come from.

/-- The node a request holds at a place. -/
def Pc.node : Pc V E → Option Nat
  | .observed _ n | .pin _ n | .insertResident _ n | .recheck _ n | .discard _ n
  | .complete _ (.ok n) | .notify _ (.ok n) | .remove _ (.ok n) | .leave (.ok n)
  | .done (.lease n) => some n
  | _ => none

/-- The flight a request follows or leads. -/
def Pc.flight : Pc V E → Option Nat
  | .follow f | .parked f | .pin f _ | .enterActive f | .takeCompute f | .compute f | .weigh f _
  | .allocate f _ _ | .insertResident f _ | .recheck f _ | .discard f _ | .complete f _
  | .notify f _ | .remove f _ | .abandonRemove f | .abandonRetry f | .abandonNotify f => some f
  | _ => none

/-- The node whose insertion is still to be settled: by the re-check, or by the removal
after it. -/
def Pc.settling : Pc V E → Option Nat
  | .recheck _ n | .discard _ n => some n
  | _ => none

variable {n : Nat}

/-- An insertion to be settled is of the node the request holds. -/
theorem Pc.node_of_settling {pc : Pc V E} (h : pc.settling = some n) : pc.node = some n := by
  cases pc <;> first | exact h | cases h

variable {key : VersionedKey K} {c : CalculationCache K V E} {c' : CalculationCache K V E}

namespace CalculationCache

/-- The node was created for the key. -/
def Knows (c : CalculationCache K V E) (key : VersionedKey K) (n : Nat) : Prop :=
  ∃ node, c.nodes[n]? = some node ∧ node.key = key

/-- The flight is one for the key. -/
def Flies (c : CalculationCache K V E) (key : VersionedKey K) (f : Nat) : Prop :=
  ∃ flight, c.flights.heap[f]? = some flight ∧ flight.key = key

/-- What other requests know of the cache stays true. -/
structure Grows (c c' : CalculationCache K V E) : Prop where
  nodes   : ∀ (n : Nat) (node : CacheNode K V), c.nodes[n]? = some node → c'.nodes[n]? = some node
  flights : ∀ key f, c.Flies key f → c'.Flies key f

/-- Nodes keep their keys. -/
theorem Grows.knows (h : c.Grows c') (hn : c.Knows key n) : c'.Knows key n := by
  obtain ⟨node, hnode, hkey⟩ := hn
  exact ⟨node, h.nodes n node hnode, hkey⟩

/-- The index and the finished flights hold nodes of their own keys. -/
structure ProvenanceWf (c : CalculationCache K V E) : Prop where
  index   : ∀ key n, (key, n) ∈ c.index → c.Knows key n
  flights : ∀ (f : Nat) (flight : Flight K E) n, c.flights.heap[f]? = some flight →
    flight.state = .finished (.ok n) → c.Knows flight.key n

end CalculationCache

open CalculationCache

/-- The nodes and the flight a request refers to are those of its own key. -/
structure Request.Belongs (c : CalculationCache K V E) (q : Request K V E) (pc : Pc V E) :
    Prop where
  node   : ∀ n, pc.node = some n → c.Knows q.key n
  flight : ∀ f, pc.flight = some f → c.Flies q.key f

variable {q : Request K V E}

/-- What a request holds stays of its key. -/
theorem Request.Belongs.grow {pc : Pc V E} (h : q.Belongs c pc) (hgrows : c.Grows c') :
    q.Belongs c' pc where
  node n hn := hgrows.knows (h.node n hn)
  flight f hf := hgrows.flights _ f (h.flight f hf)

section Frames

/-- Nothing changes. -/
theorem CalculationCache.Grows.refl (c : CalculationCache K V E) : c.Grows c :=
  ⟨fun _ _ hn => hn, fun _ _ hf => hf⟩

/-- The flights on the heap are the same. -/
theorem CalculationCache.Grows.shard {reg : FlightRegistry K E} (h : reg.heap = c.flights.heap) :
    c.Grows (c.withFlights reg) where
  nodes _ _ hn := hn
  flights key f := by
    rintro ⟨flight, hf, hkey⟩
    exact ⟨flight, h ▸ hf, hkey⟩

/-- A flight is rewritten under its key. -/
theorem CalculationCache.Grows.setFlight {f : Nat} {flight flight' : Flight K E}
    (hf : c.flights.heap[f]? = some flight) (hkey : flight'.key = flight.key) :
    c.Grows (c.withFlights (c.flights.setFlight f flight')) where
  nodes _ _ hn := hn
  flights key g := by
    rintro ⟨fl, hg, hfl⟩
    by_cases hgf : g = f
    · subst hgf
      rw [hf] at hg
      cases hg
      refine ⟨flight', ?_, hkey.trans hfl⟩
      exact getElem?_set_self (List.getElem_of_getElem? hf).1
    · exact ⟨fl, (getElem?_set_ne (Ne.symm hgf)).trans hg, hfl⟩

/-- A flight is inserted. -/
theorem CalculationCache.Grows.insertUnique {hash : UInt64} {r : Nat} :
    c.Grows (c.withFlights (c.flights.insertUnique hash key r)) where
  nodes _ _ hn := hn
  flights key' f := by
    rintro ⟨flight, hf, hkey⟩
    exact ⟨flight, (getElem?_append_left (List.getElem_of_getElem? hf).1).trans hf, hkey⟩

/-- A node is allocated. -/
theorem CalculationCache.Grows.allocate {value : V} {measured r : Nat} {published : Bool} :
    c.Grows (c.allocate key value measured published r) where
  nodes _ _ hn := (getElem?_append_left (List.getElem_of_getElem? hn).1).trans hn
  flights _ _ hf := hf

/-- It is created for its key. -/
theorem CalculationCache.knows_allocate {value : V} {measured r : Nat} {published : Bool} :
    (c.allocate key value measured published r).Knows key c.nodes.length :=
  ⟨_, getElem?_concat_length, rfl⟩

/-- A flight is rewritten with a result of its key. -/
theorem CalculationCache.ProvenanceWf.setFlight (h : c.ProvenanceWf) {f : Nat}
    {flight flight' : Flight K E} (hf : c.flights.heap[f]? = some flight)
    (hresult : ∀ n, flight'.state = .finished (.ok n) → c.Knows flight'.key n) :
    (c.withFlights (c.flights.setFlight f flight')).ProvenanceWf where
  index := h.index
  flights g fl n hg hstate := by
    rcases getElem?_set_cases hf hg with ⟨-, rfl⟩ | ⟨-, hg⟩
    · exact hresult n hstate
    · exact h.flights g fl n hg hstate

/-- The flights on the heap are the same. -/
theorem CalculationCache.ProvenanceWf.shard (h : c.ProvenanceWf) {reg : FlightRegistry K E}
    (hheap : reg.heap = c.flights.heap) : (c.withFlights reg).ProvenanceWf where
  index := h.index
  flights f flight n hf hstate := h.flights f flight n (hheap ▸ hf) hstate

end Frames

/-- A request that moves on with what it holds. -/
theorem Request.Belongs.goto {pc pc' : Pc V E} (h : q.Belongs c pc)
    (hnode : ∀ n, pc'.node = some n → pc.node = some n)
    (hflight : ∀ f, pc'.flight = some f → pc.flight = some f) : (q.goto pc').Belongs c pc' where
  node n hn := h.node n (hnode n hn)
  flight f hf := h.flight f (hflight f hf)

/-- A lookup that missed goes on. -/
theorem Request.Belongs.missed {pc : Pc V E} (h : q.Belongs c pc) (site : LookupSite) :
    (q.missed site).Belongs c (q.missed site).pc := by
  cases site <;> exact h.goto nofun nofun

variable [DecidableEq K] {flightHash : VersionedKey K → UInt64} {r : Nat} {q' : Request K V E}
  {pc : Pc V E}

omit [DecidableEq K] in
/-- Leaving a lookup drops no flight. -/
theorem Request.grows_leaveSite (c : CalculationCache K V E) (site : LookupSite) :
    c.Grows (leaveSite c site) := by
  cases site <;> first | exact .refl c | exact .shard rfl

omit [DecidableEq K] in
/-- And keeps the results. -/
theorem Request.provenance_leaveSite (h : c.ProvenanceWf) (site : LookupSite) :
    (leaveSite c site).ProvenanceWf := by
  cases site <;> first | exact h | exact h.shard rfl

/-- A hit is a resident entry. -/
theorem CalculationCache.mem_of_indexGet (h : c.indexGet key = some n) : (key, n) ∈ c.index := by
  obtain ⟨entry, hfind, rfl⟩ := Option.map_eq_some_iff.mp h
  have hkey : entry.1 = key := by simpa using find?_some hfind
  rw [← hkey]
  exact mem_of_find?_eq_some hfind

namespace Accessed

/-- An access drops no node and no flight. -/
theorem grows (h : Accessed flightHash c r q pc c' q') : c.Grows c' := by
  cases h
  case hit site _ _ _ _ => exact Request.grows_leaveSite c site
  case unwindsLookup site => exact Request.grows_leaveSite c site
  case locked => exact .shard rfl
  case joined => exact .shard rfl
  case unwindsEnroll => exact .shard rfl
  case registered => exact .insertUnique
  case parks hf _ => exact .setFlight hf rfl
  case completes hf => exact .setFlight hf rfl
  case notifies hf => exact .setFlight hf rfl
  case invites hf => exact .setFlight hf rfl
  case dismisses hf => exact .setFlight hf rfl
  case removes hremove =>
    obtain ⟨flight, -, -, rfl⟩ := remove_eq_some hremove
    exact .shard rfl
  case abandons hremove =>
    obtain ⟨flight, -, -, rfl⟩ := remove_eq_some hremove
    exact .shard rfl
  case published => exact .allocate
  case withheld => exact .allocate
  all_goals exact ⟨fun _ _ hn => hn, fun _ _ hf => hf⟩

/-- **Provenance is kept.** The shared side: what the index and the flights hold. -/
theorem provenance (h : Accessed flightHash c r q pc c' q') (hc : c.ProvenanceWf)
    (hq : q.Belongs c pc) : c'.ProvenanceWf := by
  cases h
  case hit site _ _ _ _ => exact Request.provenance_leaveSite hc site
  case unwindsLookup site => exact Request.provenance_leaveSite hc site
  case locked => exact hc.shard rfl
  case joined => exact hc.shard rfl
  case unwindsEnroll => exact hc.shard rfl
  case registered hash =>
    refine ⟨hc.index, fun f flight n hf hstate => ?_⟩
    rcases getElem?_append_singleton_cases hf with hf | ⟨-, rfl⟩
    · exact hc.flights f flight n hf hstate
    · cases hstate
  case parks f flight hf _ => exact hc.setFlight hf fun n hn => hc.flights f flight n hf hn
  case completes f result flight hf =>
    -- The flight is the leader's own, so it is one for the leader's key.
    refine hc.setFlight hf fun n hn => ?_
    cases hn
    obtain ⟨flight₀, hf₀, hkey⟩ := hq.flight f rfl
    rw [hf] at hf₀
    cases hf₀
    rw [show ({ flight with state := .finished (.ok n) } : Flight K E).key = q.key from hkey]
    exact hq.node n rfl
  case notifies f _ flight hf => exact hc.setFlight hf fun n hn => hc.flights f flight n hf hn
  case dismisses f flight hf => exact hc.setFlight hf fun n hn => hc.flights f flight n hf hn
  case invites f flight hf =>
    refine hc.setFlight hf fun n hn => hc.flights f flight n hf ?_
    cases hstate : flight.state <;> simp only [hstate, FlightState.abandoned] at hn
    · cases hn
    · exact hn
    · cases hn
  case removes hremove =>
    obtain ⟨flight, -, -, rfl⟩ := remove_eq_some hremove
    exact hc.shard rfl
  case abandons hremove =>
    obtain ⟨flight, -, -, rfl⟩ := remove_eq_some hremove
    exact hc.shard rfl
  case published | withheld =>
    exact ⟨fun key n hn => Grows.allocate.knows (hc.index key n hn),
      fun f flight n hf hn => Grows.allocate.knows (hc.flights f flight n hf hn)⟩
  case inserted f node evicted =>
    refine ⟨fun key n hn => ?_, hc.flights⟩
    obtain ⟨hmem, -⟩ := mem_filter.mp hn
    rcases mem_cons.mp hmem with heq | hmem
    · cases heq
      exact hq.node node rfl
    · exact hc.index key n (mem_of_mem_filter hmem)
  case discarded =>
    exact ⟨fun key n hn => hc.index key n (mem_of_mem_filter hn), hc.flights⟩
  all_goals exact ⟨hc.index, hc.flights⟩

/-- What a request holds after an access is of its key. -/
theorem belongs (h : Accessed flightHash c r q pc c' q') (hc : c.ProvenanceWf)
    (hq : q.Belongs c pc) : q'.Belongs c' q'.pc := by
  have hgrown : q.Belongs c' pc := hq.grow h.grows
  cases h
  case found site node hget =>
    refine ⟨fun n hn => ?_, nofun⟩
    cases hn
    exact hc.index q.key node (mem_of_indexGet hget)
  case missed site _ => exact hq.missed site
  case passedOver site _ => exact hq.missed site
  case hit => exact hgrown.goto (fun _ hn => hn) nofun
  case joined f hget =>
    refine ⟨nofun, fun g hg => ?_⟩
    cases hg
    obtain ⟨flight, hf, hkey⟩ := get_eq_some hget
    exact ⟨flight, hf, hkey⟩
  case registered =>
    refine ⟨nofun, fun g hg => ?_⟩
    cases hg
    exact ⟨_, getElem?_concat_length, rfl⟩
  case receives f node flight hf hstate =>
    refine ⟨fun n hn => ?_, hq.flight⟩
    cases hn
    obtain ⟨flight₀, hf₀, hkey⟩ := hq.flight f rfl
    rw [hf] at hf₀
    cases hf₀
    exact hkey ▸ hc.flights f flight node hf hstate
  case published | withheld =>
    refine ⟨fun n hn => ?_, hgrown.flight⟩
    cases hn
    exact knows_allocate
  case taken => exact ⟨nofun, hq.flight⟩
  case completes result _ _ =>
    cases result <;> exact hgrown.goto (fun _ hn => hn) (fun _ hf => hf)
  case notifies result _ _ =>
    cases result <;> exact hgrown.goto (fun _ hn => hn) (fun _ hf => hf)
  case removes result _ _ =>
    cases result <;> exact hgrown.goto (fun _ hn => hn) nofun
  case leaves result =>
    cases result <;> exact hgrown.goto (fun _ hn => hn) nofun
  case unwindsLeader f hcallback =>
    refine hq.goto nofun (fun g hg => ?_)
    cases pc <;> cases hcallback <;> exact hg
  all_goals
    refine hgrown.goto (fun _ hn => ?_) (fun _ hf => ?_)
    · first | exact hn | cases hn
    · first | exact hf | cases hf

end Accessed

-- ---- What is left for the clears.

/-- The clear will still remove an entry of epoch `e`: it has incremented the
generation and will load it, or has loaded a later epoch and will sweep. -/
def Clear.covers (e : Nat) : Clear → Prop
  | .snapshot _ => True
  | .lock epoch | .sweep epoch => e < epoch
  | _ => False

instance (e : Nat) : (clear : Clear) → Decidable (clear.covers e)
  | .snapshot _ => inferInstanceAs (Decidable True)
  | .lock epoch | .sweep epoch => inferInstanceAs (Decidable (e < epoch))
  | .lockFirst | .increment _ | .quiesce | .done => inferInstanceAs (Decidable False)

namespace Accessed

/-- An access allocates at most one node, of the request's epoch. -/
theorem nodes (h : Accessed flightHash c r q pc c' q') : c'.nodes = c.nodes ∨
    ∃ node : CacheNode K V, c'.nodes = c.nodes ++ [node] ∧ node.generation = q.key.epoch ∧
      node.creator = r ∧ node.key = q.key := by
  cases h
  case hit site _ _ _ _ => cases site <;> exact .inl rfl
  case unwindsLookup site => cases site <;> exact .inl rfl
  case published => exact .inr ⟨_, rfl, rfl, rfl, rfl⟩
  case withheld => exact .inr ⟨_, rfl, rfl, rfl, rfl⟩
  all_goals exact .inl rfl

/-- No request advances the epoch. -/
theorem epoch (h : Accessed flightHash c r q pc c' q') : c'.epoch = c.epoch := by
  cases h
  case hit site _ _ _ _ => cases site <;> rfl
  case unwindsLookup site => cases site <;> rfl
  all_goals rfl

/-- What an access does to the index and to the insertion of the request: a new entry is
to be settled, and an insertion is settled in the epoch of the request, or once no entry
has its key, or it is given up by an unwinding callback. -/
theorem index (h : Accessed flightHash c r q pc c' q') {entry : VersionedKey K × Nat}
    (hentry : entry ∈ c'.index) : (entry ∈ c.index ∨ q'.pc.settling = some entry.2) ∧
    (pc.settling = some entry.2 → q'.pc.settling = some entry.2 ∨ c.epoch = q.key.epoch ∨
      entry.1 ≠ q.key ∨ ∃ f, q'.pc = .abandonRemove f) := by
  cases h
  case missed site _ | passedOver site _ | hit site _ _ _ _ | unwindsLookup site =>
    cases site <;> exact ⟨.inl hentry, nofun⟩
  case inserted f node evicted =>
    obtain ⟨hmem, -⟩ := mem_filter.mp hentry
    rcases mem_cons.mp hmem with rfl | hmem
    · exact ⟨.inr rfl, nofun⟩
    · exact ⟨.inl (mem_filter.mp hmem).1, nofun⟩
  case stale => exact ⟨.inl hentry, .inl⟩
  case current hepoch => exact ⟨.inl hentry, fun _ => .inr (.inl hepoch)⟩
  case discarded =>
    obtain ⟨hold, hkey⟩ := mem_filter.mp hentry
    exact ⟨.inl hold, fun _ => .inr (.inr (.inl (of_decide_eq_true hkey)))⟩
  case unwindsLeader f _ => exact ⟨.inl hentry, fun _ => .inr (.inr (.inr ⟨f, rfl⟩))⟩
  all_goals exact ⟨.inl hentry, nofun⟩

end Accessed

namespace CacheSystem

variable {s s' : CacheSystem K V E} {a : Action K V E}

section

variable (s : CacheSystem K V E)

/-- An epoch is not over, or a clear will still remove what is left of it. -/
def CoversEpoch (e : Nat) : Prop :=
  s.cache.epoch ≤ e ∨ ∃ clear ∈ s.clears, clear.covers e

/-- Every resident entry is of such an epoch, or its insertion is still to be settled. -/
def AllCovered : Prop :=
  ∀ entry ∈ s.cache.index,
    s.CoversEpoch entry.1.epoch ∨ ∃ q ∈ s.requests, q.pc.settling = some entry.2

/-- The request that unwinds in this step. -/
def unwinding : Action K V E → Option (Request K V E)
  | .request r .unwind => s.requests[r]?
  | _ => none

/-- No key operation unwinds from an insertion whose epoch every clear has passed. -/
def Settles (a : Action K V E) : Prop :=
  ∀ q ∈ s.unwinding a, q.pc.settling.isSome → s.CoversEpoch q.key.epoch

end

instance (a : Action K V E) : Decidable (s.Settles a) :=
  inferInstanceAs (Decidable (∀ q ∈ s.unwinding a, _ → _ ∨ _))

structure EpochInv (s : CacheSystem K V E) : Prop where
  provenance : s.cache.ProvenanceWf
  belongs    : ∀ (r : Nat) (q : Request K V E), s.requests[r]? = some q → q.Belongs s.cache q.pc
  nodes      : ∀ (n : Nat) (node : CacheNode K V), s.cache.nodes[n]? = some node →
    node.generation = node.key.epoch ∧
      ∃ q, s.requests[node.creator]? = some q ∧ q.key = node.key

omit [DecidableEq K] in
/-- The empty cache. -/
theorem EpochInv.new (weightBudget : Nat) :
    EpochInv (CacheSystem.new weightBudget : CacheSystem K V E) where
  provenance := ⟨nofun, nofun⟩
  belongs _ _ hr := by cases hr
  nodes _ _ hn := by cases hn

omit [DecidableEq K] in
/-- A request starts in the current epoch. -/
theorem EpochInv.start (h : EpochInv s) (thread : Nat) (operation : Operation) (key : K) :
    EpochInv { s with requests := s.requests ++ [s.newRequest thread operation key] } where
  provenance := h.provenance
  belongs r q hr := by
    rcases getElem?_append_singleton_cases hr with hr | ⟨-, rfl⟩
    · exact h.belongs r q hr
    · cases operation <;> exact ⟨nofun, nofun⟩
  nodes n node hn := by
    obtain ⟨hgeneration, q, hq, hkey⟩ := h.nodes n node hn
    refine ⟨hgeneration, q, ?_, hkey⟩
    exact (getElem?_append_left (List.getElem_of_getElem? hq).1).trans hq

/-- An access of a request. -/
theorem EpochInv.access (h : EpochInv s) (hr : s.requests[r]? = some q)
    (haccess : Accessed flightHash s.cache r q q.pc c' q') :
    EpochInv { s with cache := c', requests := s.requests.set r q' } where
  provenance := haccess.provenance h.provenance (h.belongs r q hr)
  belongs x qx hx := by
    rcases getElem?_set_cases hr hx with ⟨-, rfl⟩ | ⟨-, hx⟩
    · exact haccess.belongs h.provenance (h.belongs r q hr)
    · exact (h.belongs x qx hx).grow haccess.grows
  nodes n node hn := by
    -- The creator of a node keeps its key.
    have hkept : ∀ {x : Nat} {qx : Request K V E}, s.requests[x]? = some qx →
        ∃ qx', (s.requests.set r q')[x]? = some qx' ∧ qx'.key = qx.key := by
      intro x qx hx
      by_cases hxr : x = r
      · subst hxr
        rw [hr] at hx
        cases hx
        refine ⟨q', ?_, haccess.key_eq⟩
        exact getElem?_set_self (List.getElem_of_getElem? hr).1
      · exact ⟨qx, (getElem?_set_ne (Ne.symm hxr)).trans hx, rfl⟩
    have hold : ∀ {m : Nat} {node : CacheNode K V}, s.cache.nodes[m]? = some node →
        node.generation = node.key.epoch ∧
          ∃ qx, (s.requests.set r q')[node.creator]? = some qx ∧ qx.key = node.key := by
      intro m node hm
      obtain ⟨hgeneration, qx, hx, hkey⟩ := h.nodes m node hm
      obtain ⟨qx', hx', hkey'⟩ := hkept hx
      exact ⟨hgeneration, qx', hx', hkey'.trans hkey⟩
    rcases haccess.nodes with hsame | ⟨new, happend, hgeneration, hcreator, hkey⟩
    · exact hold (hsame ▸ hn)
    · rw [show ({ s with cache := c', requests := s.requests.set r q' } :
        CacheSystem K V E).cache.nodes = s.cache.nodes ++ [new] from happend] at hn
      rcases getElem?_append_singleton_cases hn with hn | ⟨-, rfl⟩
      · exact hold hn
      · obtain ⟨qx, hx, hx_key⟩ := hkept hr
        exact ⟨by rw [hgeneration, hkey], qx, by rw [hcreator]; exact hx, hx_key.trans hkey.symm⟩

/-- **An access leaves no older entry behind**, unless it gives up an overtaken insertion. -/
theorem AllCovered.access (h : AllCovered s) (hinv : EpochInv s) (hr : s.requests[r]? = some q)
    (haccess : Accessed flightHash s.cache r q q.pc c' q')
    (hsettles : q.pc.settling.isSome → (∃ f, q'.pc = .abandonRemove f) →
      s.CoversEpoch q.key.epoch) :
    AllCovered { s with cache := c', requests := s.requests.set r q' } := by
  intro entry hentry
  have hset : q' ∈ s.requests.set r q' :=
    mem_of_getElem? (getElem?_set_self (List.getElem_of_getElem? hr).1)
  have hepoch' : ({ s with cache := c', requests := s.requests.set r q' } :
    CacheSystem K V E).cache.epoch = s.cache.epoch := haccess.epoch
  obtain ⟨hmem | hnew, hkeeps⟩ := haccess.index hentry
  · rcases h entry hmem with hcovers | ⟨qx, hqx, hsettling⟩
    · exact .inl (hcovers.imp_left hepoch'.le.trans)
    · obtain ⟨x, hx⟩ := mem_iff_getElem?.mp hqx
      by_cases hxr : x = r
      · -- The insertion of this very request: its node is one of its own key.
        subst hxr
        rw [hr] at hx
        cases hx
        obtain ⟨node, hnode, hentry_key⟩ := hinv.provenance.index entry.1 entry.2 hmem
        obtain ⟨node', hnode', hq_key⟩ :=
          (hinv.belongs x q hr).node entry.2 (Pc.node_of_settling hsettling)
        rw [hnode] at hnode'
        cases hnode'
        have hkey : q.key = entry.1 := hq_key.symm.trans hentry_key
        rcases hkeeps hsettling with hsame | hepoch | hother | habandons
        · exact .inr ⟨q', hset, hsame⟩
        · exact .inl (.inl (by rw [hepoch', hepoch, hkey]))
        · exact absurd hkey.symm hother
        · have hcovers := hsettles (hsettling ▸ rfl) habandons
          exact .inl (hkey ▸ hcovers.imp_left hepoch'.le.trans)
      · refine .inr ⟨qx, mem_of_getElem? (i := x) ?_, hsettling⟩
        exact (getElem?_set_ne (Ne.symm hxr)).trans hx
  · exact .inr ⟨q', hset, hnew⟩

omit [DecidableEq K] in
/-- What a step of a clear does to the nodes, the flights, the epoch and the index:
the clear that changes the epoch covers every entry, and one that ceases to cover
an entry has removed it or found it current. -/
theorem clear_step_sweeps {k : Nat} {clear clear' : Clear}
    (h : clear.step c k = some (c', clear')) :
    c'.nodes = c.nodes ∧ c'.flights = c.flights ∧ (c'.epoch = c.epoch ∨ ∀ e, clear'.covers e)
    ∧
    ∀ entry ∈ c'.index, entry ∈ c.index ∧
      (clear.covers entry.1.epoch → clear'.covers entry.1.epoch ∨ c'.epoch ≤ entry.1.epoch) := by
  cases clear with
  | lockFirst =>
    simp only [Clear.step] at h
    split at h
    · cases h
      exact ⟨rfl, rfl, .inl rfl, fun entry hentry => ⟨hentry, fun hcovers => hcovers.elim⟩⟩
    · cases h
  | increment locked =>
    cases h
    exact ⟨rfl, rfl, .inr fun _ => trivial, fun entry hentry => ⟨hentry, fun _ => .inl trivial⟩⟩
  | snapshot locked =>
    have hlater : ∀ e, e < c.epoch ∨ c.epoch ≤ e := fun e => Nat.lt_or_ge e c.epoch
    cases locked <;> cases h <;>
      exact ⟨rfl, rfl, .inl rfl, fun entry hentry => ⟨hentry, fun _ => hlater _⟩⟩
  | lock epoch =>
    simp only [Clear.step] at h
    split at h
    · cases h
      exact ⟨rfl, rfl, .inl rfl, fun entry hentry => ⟨hentry, fun hcovers => .inl hcovers⟩⟩
    · cases h
  | sweep epoch =>
    cases h
    refine ⟨rfl, rfl, .inl rfl, fun entry hentry => ?_⟩
    obtain ⟨hmem, hkept⟩ := mem_filter.mp hentry
    exact ⟨hmem, fun hcovers => absurd hcovers (Nat.not_lt_of_le (of_decide_eq_true hkept))⟩
  | quiesce =>
    cases h
    exact ⟨rfl, rfl, .inl rfl, fun entry hentry => ⟨hentry, fun hcovers => hcovers.elim⟩⟩
  | done => cases h

omit [DecidableEq K] in
/-- An access of a clear. -/
theorem EpochInv.clearStep (h : EpochInv s) {k : Nat} {clear clear' : Clear}
    (hstep : clear.step s.cache k = some (c', clear')) :
    EpochInv { s with cache := c', clears := s.clears.set k clear' } := by
  obtain ⟨hnodes, hflights, -, hindex⟩ := clear_step_sweeps hstep
  have hknows : ∀ {key n}, s.cache.Knows key n → c'.Knows key n := by
    rintro key n ⟨node, hn, hkey⟩
    exact ⟨node, hnodes ▸ hn, hkey⟩
  have hgrows : s.cache.Grows c' := by
    refine ⟨fun n node hn => hnodes ▸ hn, ?_⟩
    rintro key f ⟨flight, hf, hkey⟩
    exact ⟨flight, hflights ▸ hf, hkey⟩
  refine ⟨⟨fun key n hn => hknows (h.provenance.index key n (hindex _ hn).1), ?_⟩,
    fun r q hr => (h.belongs r q hr).grow hgrows, fun n node hn => h.nodes n node (hnodes ▸ hn)⟩
  intro f flight n hf hstate
  exact hknows (h.provenance.flights f flight n (hflights ▸ hf) hstate)

omit [DecidableEq K] in
/-- A clear removes what it covers before it is done. -/
theorem AllCovered.clearStep (h : AllCovered s) {k : Nat} {clear clear' : Clear}
    (hk : s.clears[k]? = some clear) (hstep : clear.step s.cache k = some (c', clear')) :
    AllCovered { s with cache := c', clears := s.clears.set k clear' } := by
  obtain ⟨-, -, hepoch, hindex⟩ := clear_step_sweeps hstep
  have hset : clear' ∈ s.clears.set k clear' :=
    mem_of_getElem? (getElem?_set_self (List.getElem_of_getElem? hk).1)
  intro entry hentry
  obtain ⟨hmem, hkeeps⟩ := hindex entry hentry
  rcases hepoch with hsame | hall
  · rcases h entry hmem with (hle | ⟨x, hx, hcovers⟩) | hsettling
    · exact .inl (.inl (hsame.le.trans hle))
    · obtain ⟨j, hj⟩ := mem_iff_getElem?.mp hx
      by_cases hjk : j = k
      · subst hjk
        rw [hk] at hj
        cases hj
        rcases hkeeps hcovers with hcovers' | hle
        · exact .inl (.inr ⟨clear', hset, hcovers'⟩)
        · exact .inl (.inl hle)
      · refine .inl (.inr ⟨x, mem_of_getElem? (i := j) ?_, hcovers⟩)
        exact (getElem?_set_ne (Ne.symm hjk)).trans hj
    · exact .inr hsettling
  · exact .inl (.inr ⟨clear', hset, hall _⟩)

/-- Only an unwinding callback gives up an insertion that is still to be settled. -/
theorem unwinds_of_abandons {input : Input K V E}
    (h : q.access flightHash c r input = some (c', q')) (hsettling : q.pc.settling.isSome)
    (habandons : ∃ f, q'.pc = .abandonRemove f) : input = .unwind := by
  cases hpc : q.pc <;> rw [hpc] at hsettling <;> try cases hsettling
  all_goals
    cases input with
    | unwind => rfl
    | go =>
      simp only [Request.access, Request.go, hpc] at h
      obtain ⟨f, hf⟩ := habandons
      first | split at h | skip
      all_goals
        cases h
        cases hf
    | _ =>
      simp only [Request.access, Request.pinned, hpc] at h
      cases h

/-- **Every step keeps the provenance.** -/
theorem EpochInv.step (h : EpochInv s) (hstep : s.step flightHash a = some s') : EpochInv s' := by
  rcases step_cases hstep with ⟨thread, operation, key, rfl⟩ |
    ⟨r, q, input, c', q', -, hr, -, haccess, rfl⟩ | ⟨clear, -, rfl⟩ |
    ⟨k, clear, c', clear', -, hclear, rfl⟩
  · exact h.start thread operation key
  · exact h.access hr (Request.accessed_of_access haccess)
  · exact ⟨h.provenance, h.belongs, h.nodes⟩
  · exact h.clearStep hclear

/-- **Every step that settles its insertions keeps the older entries covered.** -/
theorem AllCovered.step (h : AllCovered s) (hinv : EpochInv s) (hok : s.Settles a)
    (hstep : s.step flightHash a = some s') : AllCovered s' := by
  rcases step_cases hstep with ⟨thread, operation, key, rfl⟩ |
    ⟨r, q, input, c', q', rfl, hr, -, haccess, rfl⟩ | ⟨clear, -, rfl⟩ |
    ⟨k, clear, c', clear', hk, hclear, rfl⟩
  · intro entry hentry
    refine (h entry hentry).imp_right ?_
    exact fun ⟨q, hq, hsettling⟩ => ⟨q, mem_append_left _ hq, hsettling⟩
  · refine h.access hinv hr (Request.accessed_of_access haccess) fun hsettling habandons => ?_
    obtain rfl := unwinds_of_abandons haccess hsettling habandons
    exact hok q hr hsettling
  · intro entry hentry
    refine (h entry hentry).imp_left (Or.imp_right ?_)
    exact fun ⟨x, hx, hcovers⟩ => ⟨x, mem_append_left _ hx, hcovers⟩
  · exact h.clearStep hk hclear

/-- **Cache generations.** In every run of any interleaving of requests and clears, direct or
through the registry:

* the node a request has been given was computed by a request for the same key that
  started in the same epoch, and carries that epoch;
* if no key operation unwound from an insertion whose epoch every clear had passed, then once
  every clear has finished, a resident entry whose insertion has finished carries no epoch older
  than the current one. -/
theorem cache_generations {weightBudget : Nat} {actions : List (Action K V E)}
    (hrun : run (CacheSystem.step flightHash) (CacheSystem.new weightBudget) actions = some s) :
    (∀ (r : Nat) (q : Request K V E) (n : Nat), s.requests[r]? = some q →
      q.pc = .done (.lease n) → ∃ (node : CacheNode K V) (creator : Request K V E),
        s.cache.nodes[n]? = some node ∧ node.generation = q.key.epoch ∧
        s.requests[node.creator]? = some creator ∧ creator.key = q.key) ∧
    (Meets (CacheSystem.step flightHash) Settles (CacheSystem.new weightBudget) actions →
      (∀ clear ∈ s.clears, clear = .done) → ∀ entry ∈ s.cache.index,
        (∀ q ∈ s.requests, q.pc.settling ≠ some entry.2) → ¬entry.1.epoch < s.cache.epoch) := by
  have hinv : EpochInv s :=
    run_invariant (fun _ _ _ hinv hstep => hinv.step hstep) (EpochInv.new weightBudget) hrun
  refine ⟨?_, ?_⟩
  · intro r q n hr hpc
    obtain ⟨node, hn, hkey⟩ := (hinv.belongs r q hr).node n (by rw [hpc]; rfl)
    obtain ⟨hgeneration, creator, hcreator, hcreator_key⟩ := hinv.nodes n node hn
    exact ⟨node, creator, hn, by rw [hgeneration, hkey], hcreator, hcreator_key.trans hkey⟩
  · intro hmeets hclears entry hentry hsettled
    have hkeeps : ∀ (s₁ : CacheSystem K V E) a s₂, EpochInv s₁ ∧ AllCovered s₁ → s₁.Settles a →
        s₁.step flightHash a = some s₂ → EpochInv s₂ ∧ AllCovered s₂ :=
      fun _ _ _ h hok hstep => ⟨h.1.step hstep, h.2.step h.1 hok hstep⟩
    have hcovered : EpochInv s ∧ AllCovered s :=
      run_invariant_of_meets hkeeps actions _ s ⟨EpochInv.new weightBudget, nofun⟩ hmeets hrun
    rcases hcovered.2 entry hentry with (hepoch | ⟨clear, hmem, hcovers⟩) | ⟨q, hq, hsettling⟩
    · exact Nat.not_lt_of_le hepoch
    · rw [hclears clear hmem] at hcovers
      exact hcovers.elim
    · exact absurd hsettling (hsettled q hq)

/-- An insertion overtaken by a clear. The leader of epoch zero decides to publish, the whole
clear runs, only then does the entry land, and the re-check finds it stale. -/
def overtaking : List (Action Nat Nat Unit) :=
  List.flatten [[.start 0 .getOrTryInsertWith 5], .replicate 9 (.request 0 .go),
    [.request 0 (.returned (.ok 41)), .request 0 (.measured 1), .request 0 .go],
    [.clear true], .replicate 5 (.clearStep 0),
    [.request 0 (.evicting []), .request 0 .go]]

/-- The entry is removed, and a request of the new epoch computes its own value. -/
def overtakenRun : List (Action Nat Nat Unit) :=
  overtaking ++ List.flatten [.replicate 5 (.request 0 .go),
    [.start 1 .getOrTryInsertWith 5], .replicate 9 (.request 1 .go),
    [.request 1 (.returned (.ok 42)), .request 1 (.measured 1), .request 1 .go],
    [.request 1 (.evicting [])], .replicate 5 (.request 1 .go)]

/-- The stale entry is gone, and each request has the value of its own epoch. -/
theorem cache_generations_overtakenRun : ∃ s : CacheSystem Nat Nat Unit,
      run (CacheSystem.step fun k => UInt64.ofNat k.key) (CacheSystem.new 10) overtakenRun =
        some s ∧ s.cache.epoch = 1 ∧ s.cache.index = [(⟨1, 5⟩, 1)] ∧
      s.requests.map (·.pc.node) = [some 0, some 1] ∧
      ∀ entry ∈ s.cache.index, ¬entry.1.epoch < s.cache.epoch := by
  have hrun : ((run (CacheSystem.step fun k => UInt64.ofNat k.key)
      (CacheSystem.new 10 : CacheSystem Nat Nat Unit) overtakenRun).map fun s =>
        (s.cache.epoch, s.cache.index, s.requests.map (·.pc.node),
          s.clears.all (· = .done) && s.requests.all (·.pc.settling = none))) =
      some (1, [(⟨1, 5⟩, 1)], [some 0, some 1], true) := by
    decide +kernel
  have hmeets : Meets (CacheSystem.step fun k => UInt64.ofNat k.key) Settles
      (CacheSystem.new 10 : CacheSystem Nat Nat Unit) overtakenRun := by
    decide +kernel
  obtain ⟨s, hs, hval⟩ := Option.map_eq_some_iff.mp hrun
  simp only [Prod.mk.injEq] at hval
  obtain ⟨hepoch, hindex, hnodes, hfinished⟩ := hval
  obtain ⟨hclears, hsettled⟩ := Bool.and_eq_true_iff.mp hfinished
  refine ⟨s, hs, hepoch, hindex, hnodes,
    fun entry hentry => (cache_generations hs).2 hmeets ?_ entry hentry ?_⟩
  · exact fun clear hclear => of_decide_eq_true (List.all_eq_true.mp hclears clear hclear)
  · intro q hq
    rw [of_decide_eq_true (List.all_eq_true.mp hsettled q hq)]
    exact Option.some_ne_none _ |>.symm

/-- `Hash` or `Eq` of the key unwinds in the removal. -/
def unwoundRun : List (Action Nat Nat Unit) :=
  overtaking ++ [.request 0 .unwind] ++ .replicate 4 (.request 0 .go)

/-- Every clear and every request has ended, and the entry of epoch zero is resident. -/
theorem stale_entry_stays : ∃ s : CacheSystem Nat Nat Unit,
    run (CacheSystem.step fun k => UInt64.ofNat k.key) (CacheSystem.new 10) unwoundRun = some s ∧
      (∀ clear ∈ s.clears, clear = .done) ∧ (∀ q ∈ s.requests, q.pc.isDone = true) ∧
      ∃ entry ∈ s.cache.index, entry.1.epoch < s.cache.epoch := by
  have hrun : ((run (CacheSystem.step fun k => UInt64.ofNat k.key)
      (CacheSystem.new 10 : CacheSystem Nat Nat Unit) unwoundRun).map fun s =>
        (s.cache.epoch, s.cache.index, s.clears.all (· = .done) && s.requests.all (·.pc.isDone))) =
      some (1, [(⟨0, 5⟩, 0)], true) := by
    decide +kernel
  obtain ⟨s, hs, hval⟩ := Option.map_eq_some_iff.mp hrun
  simp only [Prod.mk.injEq] at hval
  obtain ⟨hepoch, hindex, hfinished⟩ := hval
  obtain ⟨hclears, hdone⟩ := Bool.and_eq_true_iff.mp hfinished
  refine ⟨s, hs, ?_, List.all_eq_true.mp hdone, ?_⟩
  · exact fun clear hclear => of_decide_eq_true (List.all_eq_true.mp hclears clear hclear)
  · rw [hindex, hepoch]
    exact ⟨_, List.mem_singleton_self _, Nat.zero_lt_one⟩

end CacheSystem

end Xlfn.Cache
