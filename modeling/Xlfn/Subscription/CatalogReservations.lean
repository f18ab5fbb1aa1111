import Xlfn.Subscription.CatalogInvariant

/-!
# Xlfn — what the catalog guarantees

The representation of the catalog and its reservations, over every interleaving.
-/

namespace Xlfn.Subscription

open Xlfn.Lib Xlfn.Kernel Option SubscriptionEntry

namespace SubscriptionCatalog

variable {S T : Type} [DecidableEq S] [TopicMetadata T] {catalog : SubscriptionCatalog S T}
  {id : SubscriptionId} {entry : SubscriptionEntry S T}

/-- Two catalogs that agree on every entry, the index, the counters and the next id. -/
structure Untouched (catalog catalog' : SubscriptionCatalog S T) : Prop where
  lookup     : ∀ id, catalog'.entries.lookup id = catalog.entries.lookup id
  count      : catalog'.pendingCount = catalog.pendingCount
  bytes      : catalog'.pendingTopicBytes = catalog.pendingTopicBytes
  identities : catalog'.identities = catalog.identities
  next       : catalog'.nextSubscriptionId = catalog.nextSubscriptionId

theorem withEntry_same {R : Type} {update : SubscriptionEntry S T → SubscriptionEntry S T × R}
    {result : R} (h : catalog.entries.lookup id = some entry)
    (hsame : update entry = (entry, result)) :
    ∃ catalog', catalog.withEntry id update = some (catalog', some result) ∧
      Untouched catalog catalog' := by
  refine ⟨{ catalog with entries := catalog.entries.insert id entry }, ?_,
    ⟨fun id' => ?_, rfl, rfl, rfl, rfl⟩⟩
  · simp only [withEntry, h, hsame]
    cases entry.tracksPendingBytes <;> rfl
  · show (catalog.entries.insert id entry).lookup id' = _
    rw [Table.lookup_insert_ite]
    split
    next heq => rw [heq, h]
    next => rfl

theorem settle_same {update : SubscriptionEntry S T → SubscriptionEntry S T × Bool}
    (h : catalog.entries.lookup id = some entry) (hsame : update entry = (entry, false)) :
    ∃ catalog', catalog.settle id update = some (catalog', none) ∧ Untouched catalog catalog' := by
  obtain ⟨catalog', hwith, huntouched⟩ := withEntry_same h hsame
  refine ⟨catalog', ?_, huntouched⟩
  simp only [settle, hwith, bind_eq_bind, bind_some]

end SubscriptionCatalog

namespace CatalogRuntime

variable {S T : Type} [DecidableEq S] [TopicMetadata T] {limits : CatalogLimits}
  {s s' : CatalogRuntime S T} {id : SubscriptionId} {entry : SubscriptionEntry S T}

-- ---- The representation.

variable {resolves : S → Bool}

/-- **The representation of the catalog** in every state the runtime can reach:

* an entry is exactly once in the bucket of its own key and in no other bucket, an
  id without an entry is in none, and looking a source and topic up never fails;
* no two entries have the same source and topic;
* the counters are the number and the bytes of the pending entries, within limits;
* no subtraction has underflowed and no `expect` or `fail_stop` was reached;
* no id was given out twice, and every entry has an id that was given out;
* every entry has a reservation, a commitment or a connection. -/
theorem catalog_representation [DecidableEq T]
    (h : Reachable (step limits resolves) (new : CatalogRuntime S T) s) :
    (∀ id entry, s.catalog.entries.lookup id = some entry → ∀ key,
      (s.catalog.identities.candidates key).count id =
        if key = identityKey entry.sourceId entry.topic then 1 else 0) ∧
    (∀ id, s.catalog.entries.lookup id = none → ∀ key, id ∉ s.catalog.identities.candidates key) ∧
    (∀ sourceId topic, ∃ found, s.catalog.findIdentity sourceId topic = .ok found) ∧
    (∀ id id' entry entry', s.catalog.entries.lookup id = some entry →
      s.catalog.entries.lookup id' = some entry' → entry.sourceId = entry'.sourceId →
      entry.topic = entry'.topic → id = id') ∧
    s.catalog.pendingCount = Table.sumEntries
      (fun _ entry => if entry.tracksPendingBytes then 1 else 0) s.catalog.entries ∧
    s.catalog.pendingTopicBytes = Table.sumEntries
      (fun _ entry => if entry.tracksPendingBytes then TopicMetadata.byteLen entry.topic else 0)
      s.catalog.entries ∧
    s.catalog.pendingCount ≤ limits.maxPending ∧
    s.catalog.pendingTopicBytes ≤ limits.maxTotalTopicBytes ∧
    s.aborted = false ∧
    s.created.Nodup ∧ (∀ id entry, s.catalog.entries.lookup id = some entry → id ∈ s.created)
    ∧
    (∀ id entry, s.catalog.entries.lookup id = some entry →
      entry.reservations ≠ none ∨ (∃ reservations server,
        entry.phase = .pending reservations server .committed) ∨ entry.isConnected = true) := by
  have hinv : s.Inv limits := Reachable.invariant (fun _ _ _ hi hs => hi.step hs) (new_inv limits) h
  refine ⟨fun id entry he key => ?_, fun id hnone key hmem => ?_, fun sourceId topic => ?_,
    hinv.wf.distinct, hinv.wf.count, hinv.wf.bytes, hinv.wf.countLimit, hinv.wf.bytesLimit,
    hinv.sound, hinv.nodup, hinv.present, fun id entry he => ?_⟩
  · split
    next heq =>
      exact List.count_eq_one_of_mem (hinv.wf.nodup key)
        ((hinv.wf.indexed key id).mpr ⟨entry, he, heq.symm⟩)
    next hne =>
      refine List.count_eq_zero.mpr fun hmem => ?_
      obtain ⟨entry', he', hkey⟩ := (hinv.wf.indexed key id).mp hmem
      rw [he] at he'
      cases he'
      exact hne hkey.symm
  · obtain ⟨entry, he, -⟩ := (hinv.wf.indexed key id).mp hmem
    rw [hnone] at he
    cases he
  · rcases SubscriptionCatalog.findIdentity_spec hinv.wf sourceId topic with
      ⟨id, entry, hfind, -⟩ | ⟨hfind, -⟩
    · exact ⟨_, hfind⟩
    · exact ⟨_, hfind⟩
  · have hkept := hinv.kept id entry he
    obtain ⟨sourceId, topic, phase⟩ := entry
    cases phase with
    | pending reservations server commitment =>
      cases reservations with
      | some n => exact .inl nofun
      | none =>
        cases commitment with
        | committed => exact .inr (.inl ⟨none, server, rfl⟩)
        | uncommitted => cases hkept
    | connecting _ _ _ _ | active _ _ _ => exact .inr (.inr rfl)

/-- Topics that all have the same hash. -/
instance oneBucket : TopicMetadata Nat where
  identityHash := fun _ => 0
  byteLen      := fun topic => topic

def firstServer : ServerGeneration := ⟨1, Nat.one_ne_zero⟩

def smallLimits : CatalogLimits := ⟨2, 10, 1⟩

/-- Two topics of one source. The first is connected and disconnected, and a third
topic is over the limits until the first one is gone. -/
def collidingRun : List (Action Unit Nat) :=
  [.prepare () 3, .prepare () 5, .prepare () 4, .allocate firstServer ⟨1⟩, .reserveCatalog 0,
    .reservePublication 0, .commit 0, .finish 0 true, .disconnect 0, .cleanup 0, .prepare () 4]

theorem catalog_representation_collidingRun : ∃ s : CatalogRuntime Unit Nat,
      run (step smallLimits fun _ => true) new collidingRun = some s ∧
      s.catalog.entries.lookup ⟨1⟩ = none ∧ (∃ entry, s.catalog.entries.lookup ⟨3⟩ = some entry ∧
        (s.catalog.identities.candidates ⟨(), 0⟩).count ⟨3⟩ = 1) ∧
      ⟨1⟩ ∉ s.catalog.identities.candidates ⟨(), 0⟩ ∧ s.catalog.pendingCount = 2 ∧
      s.catalog.pendingTopicBytes ≤ 10 ∧ s.aborted = false ∧ s.created = [⟨1⟩, ⟨2⟩, ⟨3⟩] := by
  have hrun : ((run (step smallLimits fun _ => true) (new : CatalogRuntime Unit Nat)
      collidingRun).map fun s => (s.catalog.entries.lookup ⟨1⟩, s.catalog.entries.lookup ⟨3⟩,
        s.catalog.pendingCount, s.created)) =
      some (none, some ⟨(), 4, .pending (some ⟨1, Nat.one_ne_zero⟩) none .uncommitted⟩, 2,
        [⟨1⟩, ⟨2⟩, ⟨3⟩]) := by
    decide +kernel
  obtain ⟨s, hs, hval⟩ := map_eq_some_iff.mp hrun
  simp only [Prod.mk.injEq] at hval
  obtain ⟨hgone, hthere, hcount, hcreated⟩ := hval
  obtain ⟨hindexed, habsent, -, -, -, -, -, hbytes, hsound, -⟩ :=
    catalog_representation ⟨collidingRun, hs⟩
  exact ⟨s, hs, hgone, ⟨_, hthere, hindexed ⟨3⟩ _ hthere ⟨(), 0⟩⟩, habsent ⟨1⟩ hgone ⟨(), 0⟩, hcount,
    hbytes, hsound, hcreated⟩

-- ---- Stale tickets.

/-- The ticket that a section presents for an entry. -/
def presented (s : CatalogRuntime S T) : Action S T → Option Binding
  | .commit k => (s.transactions[k]?).map fun t => ⟨t.id, t.ticket⟩
  | .rollback k => (s.transactions[k]?).map fun t => ⟨t.id, t.ticket⟩
  | .cleanup r => s.retiring[r]?
  | _ => none

theorem settling_untouched {update : SubscriptionEntry S T → SubscriptionEntry S T × Bool}
    (he : s.catalog.entries.lookup id = some entry) (hsame : update entry = (entry, false)) :
    SubscriptionCatalog.Untouched s.catalog (s.settling id update).catalog := by
  obtain ⟨catalog, hsettle, huntouched⟩ := SubscriptionCatalog.settle_same he hsame
  rw [settling, hsettle]
  exact huntouched

theorem Inv.stale [DecidableEq T] {action : Action S T} {b : Binding} (hinv : s.Inv limits)
    (h : s.step limits resolves action = some s') (hpresented : s.presented action = some b)
    (he : s.catalog.entries.lookup b.id = some entry) (hstale : entry.ticket? ≠ some b.ticket) :
    SubscriptionCatalog.Untouched s.catalog s'.catalog := by
  obtain ⟨hcommit, hreserved, hpublished, hcleanup⟩ :=
    stale_same hstale (hinv.kept _ _ he)
  unfold CatalogRuntime.step at h
  rw [if_neg (Bool.eq_false_iff.mp hinv.sound)] at h
  cases action with
  | commit k =>
    obtain ⟨t, hk, rfl⟩ := map_eq_some_iff.mp hpresented
    simp only [hk] at h
    split at h
    next =>
      cases h
      obtain ⟨catalog, hwith, huntouched⟩ := SubscriptionCatalog.withEntry_same he hcommit
      rw [CatalogRuntime.commitConnection, hwith]
      exact huntouched
    next => cases h
  | rollback k =>
    obtain ⟨t, hk, rfl⟩ := map_eq_some_iff.mp hpresented
    simp only [hk] at h
    split at h
    next =>
      cases h
      exact settling_untouched (s := s.setTransaction k { t with stage := .finished }) he hreserved
    next =>
      split at h
      next =>
        cases h
        exact settling_untouched (s := s.setTransaction k { t with stage := .finished }) he hpublished
      next => cases h
  | cleanup r =>
    obtain ⟨binding, hr, rfl⟩ := map_eq_some_iff.mp h
    obtain rfl : binding = b := some.inj (hr.symm.trans hpresented)
    exact settling_untouched (s := { s with retiring := s.retiring.eraseIdx r }) he hcleanup
  | _ => cases hpresented

/-- A section leaves an entry that is not its own, or that its update gives back. -/
theorem Inv.settling_keeps {id' : SubscriptionId} (hinv : s.Inv limits)
    {update : SubscriptionEntry S T → SubscriptionEntry S T × Bool}
    (htransition : ∀ entry, SubscriptionCatalog.Transition entry (update entry).1)
    (he : s.catalog.entries.lookup id = some entry)
    (hsame : id' = id → update entry = (entry, false)) :
    (s.settling id' update).catalog.entries.lookup id = some entry := by
  by_cases heq : id' = id
  · subst heq
    rw [(settling_untouched he (hsame rfl)).lookup, he]
  · rcases settling_cases hinv update (fun entry _ => htransition entry) with
      ⟨-, hstate⟩ | ⟨_, catalog, -, -, hwrote, hstate⟩
    · rw [hstate, he]
    · rw [hstate]
      show catalog.entries.lookup id = _
      rw [hwrote.lookup, if_neg (Ne.symm heq), he]

/-- The termination of a server leaves an entry alone whose connection it does not
present and that is not pending on the server. -/
theorem Inv.terminate_keeps {server : ServerGeneration} {active : List Binding}
    (hinv : s.Inv limits)
    (hactive : ∀ b ∈ active, b.ticket.server = server ∧ s.Spent b.ticket)
    (he : s.catalog.entries.lookup id = some entry)
    (hstale : ∀ b ∈ active, b.id = id → entry.ticket? ≠ some b.ticket)
    (hother : entry.isActive = true ∨ entry.serverGeneration ≠ some server) :
    (s.terminate server active).catalog.entries.lookup id = some entry := by
  refine (terminate_induction (P := fun s => s.catalog.entries.lookup id = some entry) hinv
    hactive he (fun s hinv he topic htopic hspent => ?_) (fun s hinv he id' => ?_)).2
  · have hticket : (⟨server, topic.ticket.connection⟩ : ConnectionTicket) = topic.ticket := by
      rw [← (hactive topic htopic).1]
    rw [hticket]
    exact hinv.settling_keeps (fun entry => (cleanup_settled hspent).transition) he
      fun heq => (stale_same (hstale topic htopic heq) (hinv.kept _ _ he)).2.2.2
  · refine hinv.settling_keeps (fun entry =>
      (terminationReset_settled s.Spent server).transition) he
      fun _ => ?_
    exact terminationReset_other hother

-- ---- Reservations.

/-- **The conservation of reservations** in every state the runtime can reach:

* an entry has as many reservations as its id has live tokens, and an id without an
  entry has no token;
* every entry that is gone was removed, and an entry is removed only without a
  reservation, without a token, and as a pending one without a commitment or as an
  active one whose connection the data plane no longer has;
* no two connection attempts have the same generation;
* a section that presents a ticket which is not the entry's own leaves the catalog
  as it is; and the termination of a server leaves every entry as it is that is not
  pending on that server and whose own connection is not among the terminated ones. -/
theorem reservation_conservation [DecidableEq T]
    (h : Reachable (step limits resolves) (new : CatalogRuntime S T) s) :
    (∀ id, s.tokens id = reservationsOf (s.catalog.entries.lookup id)) ∧
    (∀ id ∈ s.created, s.catalog.entries.lookup id = none → ∃ r ∈ s.removals, r.id = id) ∧
    (∀ r ∈ s.removals, s.catalog.entries.lookup r.id = none ∧ s.tokens r.id = 0 ∧
      ((∃ server, r.entry.phase = .pending none server .uncommitted) ∨
        ∃ ticket, r.entry.phase = .active ticket.server ticket.connection none ∧
          ∀ b ∈ s.bindings, b.ticket ≠ ticket)) ∧
    (∀ (i j : Nat) t t', s.transactions[i]? = some t → s.transactions[j]? = some t' →
      t.ticket.connection = t'.ticket.connection → i = j) ∧
    (∀ action s', step limits resolves s action = some s' →
      (∀ b entry, s.presented action = some b → s.catalog.entries.lookup b.id = some entry →
        entry.ticket? ≠ some b.ticket →
        SubscriptionCatalog.Untouched s.catalog s'.catalog) ∧
      (∀ r server active id entry, action = .terminate r →
        s.terminating[r]? = some (server, active) →
        s.catalog.entries.lookup id = some entry →
        (∀ b ∈ active, b.id = id → entry.ticket? ≠ some b.ticket) →
        entry.isActive = true ∨ entry.serverGeneration ≠ some server →
        s'.catalog.entries.lookup id = some entry)) := by
  have hinv : s.Inv limits := Reachable.invariant (fun _ _ _ hi hs => hi.step hs) (new_inv limits) h
  refine ⟨hinv.tokens, hinv.gone, fun r hr => ?_, hinv.tickets.distinct,
    fun action s' hstep => ⟨fun b entry hp he hstale => hinv.stale hstep hp he hstale, ?_⟩⟩
  · obtain ⟨-, hgone, -, hwhy⟩ := hinv.removed r hr
    have htokens := hinv.tokens r.id
    rw [hgone] at htokens
    refine ⟨hgone, htokens, ?_⟩
    rcases hwhy with hcan | ⟨ticket, hspent, hphase⟩
    · exact .inl (phase_of_canRemove hcan)
    · exact .inr ⟨ticket, hphase, hspent.1⟩
  · rintro r server active id entry rfl hr he hstale hother
    unfold step at hstep
    rw [if_neg (Bool.eq_false_iff.mp hinv.sound)] at hstep
    simp only [hr, map_some, some.injEq] at hstep
    rw [← hstep]
    have htaken : Inv limits { s with terminating := s.terminating.eraseIdx r } :=
      hinv.takeTerminating r
    exact htaken.terminate_keeps (hinv.tickets.terminating _ (List.mem_of_getElem? hr)) he hstale
      hother

/-- A connection is disconnected before its transaction ends, and the entry, which a
token keeps, is connected again. -/
def staleRun : List (Action Unit Nat) :=
  [.prepare () 3, .allocate firstServer ⟨1⟩, .reserveCatalog 0, .reservePublication 0,
    .disconnect 0, .cleanup 0, .allocate firstServer ⟨1⟩, .reserveCatalog 1, .unbind 0]

theorem reservation_conservation_staleRun : ∃ s s' : CatalogRuntime Unit Nat,
      run (step smallLimits fun _ => true) new staleRun = some s ∧ s.tokens ⟨1⟩ = 1 ∧
      reservationsOf (s.catalog.entries.lookup ⟨1⟩) = 1 ∧
      step smallLimits (fun _ => true) s (.rollback 0) = some s' ∧
      (s'.catalog.entries.lookup ⟨1⟩).map (·.ticket?) =
        some (some ⟨firstServer, ⟨2, Nat.two_pos.ne'⟩⟩) := by
  have hrun : ((run (step smallLimits fun _ => true) (new : CatalogRuntime Unit Nat)
      staleRun).bind fun s => (step smallLimits (fun _ => true) s (.rollback 0)).map fun _ =>
        (s.catalog.entries.lookup ⟨1⟩, s.presented (.rollback 0), s.tokens ⟨1⟩)) =
      some (some ⟨(), 3, .connecting (some ⟨1, Nat.one_ne_zero⟩) firstServer
          ⟨2, Nat.two_pos.ne'⟩ .uncommitted⟩,
        some ⟨⟨1⟩, firstServer, ⟨1, Nat.one_ne_zero⟩⟩, 1) := by
    decide +kernel
  obtain ⟨s, hs, hval⟩ := bind_eq_some_iff.mp hrun
  obtain ⟨s', hs', hval⟩ := map_eq_some_iff.mp hval
  simp only [Prod.mk.injEq] at hval
  obtain ⟨hentry, hpresented, htokens⟩ := hval
  obtain ⟨hconserved, -, -, -, hstale⟩ := reservation_conservation ⟨staleRun, hs⟩
  have huntouched := (hstale (.rollback 0) s' hs').1 _ _ hpresented hentry (by decide)
  refine ⟨s, s', hs, htokens, (hconserved ⟨1⟩).symm.trans htokens, hs', ?_⟩
  rw [huntouched.lookup, hentry]
  rfl

end CatalogRuntime

end Xlfn.Subscription
