import Xlfn.Subscription.CatalogWf
import Xlfn.Subscription.CatalogRuntime

/-!
# Xlfn — the invariant of the catalog's runtime

What holds of the catalog, the reservation tokens, the connection attempts and the
bindings between any two steps of the runtime.

* `Settled` — what an update of a connection does to one entry, one lemma for each
  update.
* `Inv` — the invariant.
-/

namespace Xlfn.Subscription

open Xlfn.Lib Xlfn.Kernel List Option SubscriptionCatalog SubscriptionEntry

-- ---- Updates of one entry.

namespace SubscriptionEntry

variable {S T : Type} {entry : SubscriptionEntry S T}

/-- How many reservations an entry has. -/
def reservationCount (entry : SubscriptionEntry S T) : Nat :=
  (entry.reservations.map (·.get)).getD 0

/-- The connection attempt of an entry. -/
def ticket? (entry : SubscriptionEntry S T) : Option ConnectionTicket :=
  match entry.phase with
  | .pending _ _ _ => none
  | .connecting _ server connection _ => some ⟨server, connection⟩
  | .active server connection _ => some ⟨server, connection⟩

/-- What the updates of a connection do to an entry. `retired` are the tickets whose
active entry may be removed. -/
structure Settled (retired : ConnectionTicket → Prop) (entry : SubscriptionEntry S T)
    (result : SubscriptionEntry S T × Bool) : Prop where
  transition   : SubscriptionCatalog.Transition entry result.1
  reservations : result.1.reservations = entry.reservations
  ticket       : result.1.ticket? = none ∨ result.1.ticket? = entry.ticket?
  kept         : result.2 = false → result.1.canRemove = true → entry.canRemove = true
  removed      : result.2 = true → result.1.canRemove = true ∨
    ∃ ticket, retired ticket ∧ result.1.phase = .active ticket.server ticket.connection none

theorem phase_of_canRemove (h : entry.canRemove = true) :
    ∃ server, entry.phase = .pending none server .uncommitted := by
  obtain ⟨sourceId, topic, phase⟩ := entry
  cases phase with
  | pending reservations server commitment =>
    cases reservations with
    | none =>
      cases commitment with
      | uncommitted => exact ⟨server, rfl⟩
      | committed => cases h
    | some n => cases h
  | connecting reservations server connection commitment => cases h
  | active server connection reservation => cases h

theorem reservations_of_canRemove (h : entry.canRemove = true) : entry.reservations = none := by
  obtain ⟨server, hphase⟩ := phase_of_canRemove h
  rw [reservations, hphase]

variable {retired : ConnectionTicket → Prop}

theorem Settled.refl : Settled retired entry (entry, false) :=
  ⟨⟨rfl, rfl, id⟩, rfl, .inr rfl, fun _ h => h, nofun⟩

/-- Giving up a connection: what is left is pending, and removed unless it still has
reservations or a commitment. -/
theorem Settled.toPending {reservations : Option NonZeroUsize} {server : Option ServerGeneration}
    {commitment : PendingCommitment} {remove : Bool}
    (hreservations : reservations = entry.reservations)
    (htracks : entry.tracksPendingBytes = true) (hremove : remove = canRemove
      { entry with phase := .pending reservations server commitment }) :
    Settled retired entry ({ entry with phase := .pending reservations server commitment }, remove) where
  transition   := ⟨rfl, rfl, fun _ => htracks⟩
  reservations := hreservations
  ticket       := .inl rfl
  kept         := by
    intro hflag hcan
    rw [hremove, hcan] at hflag
    cases hflag
  removed      := fun hflag => .inl (hremove ▸ hflag)

theorem rollbackCatalogConnectionReservation_settled (ticket : ConnectionTicket)
    (hkept : entry.canRemove = false) :
    Settled retired entry (entry.rollbackCatalogConnectionReservation ticket) := by
  obtain ⟨sourceId, topic, phase⟩ := entry
  unfold rollbackCatalogConnectionReservation
  cases phase with
  | pending reservations server commitment | active server connection reservation =>
    simp only [rollbackConnection, hkept]
    exact .refl
  | connecting reservations server connection commitment =>
    simp only [rollbackConnection]
    split
    next => exact .toPending rfl rfl rfl
    next =>
      rw [hkept]
      exact .refl

theorem rollbackPublished_settled (ticket : ConnectionTicket) :
    Settled retired entry (entry.rollbackPublished ticket) := by
  obtain ⟨sourceId, topic, phase⟩ := entry
  unfold rollbackPublished
  cases phase with
  | pending _ _ _ | active _ _ _ => exact .refl
  | connecting reservations server connection commitment =>
    simp only [rollbackConnection]
    split
    next => exact .toPending rfl rfl rfl
    next => exact .refl

theorem cleanup_settled {ticket : ConnectionTicket} (hretired : retired ticket) :
    Settled retired entry (entry.cleanupCatalogBindingAndPending ticket) := by
  obtain ⟨sourceId, topic, phase⟩ := entry
  unfold cleanupCatalogBindingAndPending
  split
  next => exact .refl
  next =>
    cases phase with
    | pending reservations server commitment => exact .refl
    | connecting reservations server connection commitment =>
      simp only [cleanupConnection]
      split
      next => exact .toPending rfl rfl rfl
      next => exact .refl
    | active server connection reservation =>
      simp only [cleanupConnection]
      split
      next hticket =>
        cases reservation with
        | none =>
          refine ⟨⟨rfl, rfl, id⟩, rfl, .inr rfl, nofun, fun _ => .inr ⟨ticket, hretired, ?_⟩⟩
          rw [hticket.1, hticket.2]
        | some n => exact .toPending rfl rfl rfl
      next => exact .refl

theorem terminationReset_settled (retired : ConnectionTicket → Prop) (server : ServerGeneration) :
    Settled retired entry (entry.terminationReset server) := by
  obtain ⟨sourceId, topic, phase⟩ := entry
  unfold terminationReset
  cases phase with
  | pending reservations current commitment
  | connecting reservations current connection commitment =>
    simp only [resetForServerTermination]
    split
    next => exact .toPending rfl rfl rfl
    next => exact .refl
  | active current connection reservation => exact .refl

/-- The last loop of a termination leaves the entries of other servers, and active ones. -/
theorem terminationReset_other {server : ServerGeneration}
    (h : entry.isActive = true ∨ entry.serverGeneration ≠ some server) :
    entry.terminationReset server = (entry, false) := by
  obtain ⟨sourceId, topic, phase⟩ := entry
  unfold terminationReset
  cases phase with
  | pending reservations current commitment =>
    have hne : current ≠ some server := h.resolve_left Bool.false_ne_true
    simp only [resetForServerTermination, if_neg hne, Bool.false_and]
  | connecting reservations current connection commitment =>
    have hne : current ≠ server := fun heq => h.resolve_left Bool.false_ne_true (congrArg some heq)
    simp only [resetForServerTermination, if_neg hne, Bool.false_and]
  | active current connection reservation => rfl

/-- `add_reservation` of an entry that is not connected adds one, or changes nothing. -/
theorem addReservation_cases (hpending : entry.isConnected = false) :
    (∃ error, entry.addReservation = (entry, .error error)) ∨
    (entry.addReservation.2 = .ok () ∧ SubscriptionCatalog.Transition entry entry.addReservation.1 ∧
      entry.addReservation.1.reservationCount = entry.reservationCount + 1 ∧
      entry.addReservation.1.canRemove = false ∧ entry.addReservation.1.ticket? = none) := by
  obtain ⟨sourceId, topic, phase⟩ := entry
  cases phase with
  | pending reservations server commitment =>
    simp only [addReservation, nextReservation]
    split
    next next hnext =>
      split at hnext
      next =>
        cases hnext
        exact .inr ⟨rfl, ⟨rfl, rfl, fun _ => rfl⟩, rfl, rfl, rfl⟩
      next => cases hnext
    next error hnext => exact .inl ⟨error, rfl⟩
  | connecting _ _ _ _ | active _ _ _ => cases hpending

theorem lessReservation_count (reservations : Option NonZeroUsize) :
    ((lessReservation reservations).map (·.get)).getD 0 = (reservations.map (·.get)).getD 0 - 1 := by
  cases reservations with
  | none => rfl
  | some n =>
    simp only [lessReservation]
    split
    next hone => simp [hone]
    next => rfl

/-- `finish_preparation` gives one reservation back. It removes the entry when that
was the last thing that kept it. -/
theorem finishPreparation_spec (committed : Bool) (hkept : entry.canRemove = false) :
    SubscriptionCatalog.Transition entry (entry.finishPreparation committed).1 ∧
    (entry.finishPreparation committed).1.reservationCount = entry.reservationCount - 1 ∧
    (entry.finishPreparation committed).1.ticket? = entry.ticket? ∧
    (entry.finishPreparation committed).2 = (entry.finishPreparation committed).1.canRemove := by
  obtain ⟨sourceId, topic, phase⟩ := entry
  cases phase with
  | pending reservations server commitment =>
    refine ⟨⟨rfl, rfl, fun _ => rfl⟩, lessReservation_count _, rfl, ?_⟩
    cases committed with
    | false => exact Bool.true_and _
    | true =>
      simp only [finishPreparation, canRemove, Bool.not_true, Bool.false_and, if_true]
      cases lessReservation reservations <;> rfl
  | connecting reservations server connection commitment =>
    exact ⟨⟨rfl, rfl, fun _ => rfl⟩, lessReservation_count _, rfl, Bool.and_false _⟩
  | active server connection reservation =>
    refine ⟨⟨rfl, rfl, fun h => ?_⟩, lessReservation_count _, rfl, rfl⟩
    cases reservation with
    | none => cases h
    | some n => rfl

theorem claimServer_spec (entry : SubscriptionEntry S T) (server : ServerGeneration) :
    SubscriptionCatalog.Transition entry (entry.claimServer server).1 ∧
    (entry.claimServer server).1.reservationCount = entry.reservationCount ∧
    (entry.claimServer server).1.ticket? = entry.ticket? ∧
    (entry.claimServer server).1.canRemove = entry.canRemove := by
  obtain ⟨sourceId, topic, phase⟩ := entry
  have hrefl : SubscriptionCatalog.Transition (⟨sourceId, topic, phase⟩ : SubscriptionEntry S T)
      ⟨sourceId, topic, phase⟩ := ⟨rfl, rfl, id⟩
  cases phase with
  | pending reservations current commitment =>
    cases current with
    | none =>
      refine ⟨⟨rfl, rfl, fun _ => rfl⟩, rfl, rfl, ?_⟩
      cases reservations <;> cases commitment <;> rfl
    | some existing =>
      simp only [claimServer]
      split <;> exact ⟨hrefl, rfl, rfl, rfl⟩
  | connecting reservations current connection commitment
  | active current connection reservation =>
    simp only [claimServer]
    split <;> exact ⟨hrefl, rfl, rfl, rfl⟩

/-- The section of `connect_from_handle` installs its ticket, or changes nothing. -/
theorem connectFrom_cases (entry : SubscriptionEntry S T) (resolves : S → Bool)
    (ticket : ConnectionTicket) :
    (∃ error, entry.connectFrom resolves ticket = (entry, .error error)) ∨
    (entry.connectFrom resolves ticket).2 = .ok ticket ∧
      SubscriptionCatalog.Transition entry (entry.connectFrom resolves ticket).1 ∧
      (entry.connectFrom resolves ticket).1.reservationCount = entry.reservationCount ∧
      (entry.connectFrom resolves ticket).1.ticket? = some ticket ∧
      (entry.connectFrom resolves ticket).1.canRemove = false := by
  obtain ⟨sourceId, topic, phase⟩ := entry
  unfold connectFrom
  split
  next =>
    cases phase with
    | pending reservations existing commitment =>
      simp only [beginConnection]
      split
      next => exact .inl ⟨_, rfl⟩
      next => exact .inr ⟨rfl, ⟨rfl, rfl, fun _ => rfl⟩, rfl, rfl, rfl⟩
    | connecting _ _ _ _ | active _ _ _ => exact .inl ⟨_, rfl⟩
  next => exact .inl ⟨_, rfl⟩

/-- `finish_connection` makes the attempt of its own ticket active, or changes nothing. -/
theorem finishConnection_spec (ticket : ConnectionTicket) (hkept : entry.canRemove = false) :
    SubscriptionCatalog.Transition entry (entry.finishConnection ticket).1 ∧
    (entry.finishConnection ticket).1.reservationCount = entry.reservationCount ∧
    (entry.finishConnection ticket).1.ticket? = entry.ticket? ∧
    (entry.finishConnection ticket).1.canRemove = false := by
  obtain ⟨sourceId, topic, phase⟩ := entry
  have hrefl : SubscriptionCatalog.Transition (⟨sourceId, topic, phase⟩ : SubscriptionEntry S T)
      ⟨sourceId, topic, phase⟩ := ⟨rfl, rfl, id⟩
  cases phase with
  | pending reservations server commitment => exact ⟨hrefl, rfl, rfl, hkept⟩
  | connecting reservations server connection commitment =>
    simp only [finishConnection]
    split
    next hticket =>
      refine ⟨⟨rfl, rfl, fun _ => rfl⟩, rfl, ?_, rfl⟩
      simp [ticket?, hticket.1]
    next => exact ⟨hrefl, rfl, rfl, rfl⟩
  | active server connection reservation => exact ⟨hrefl, rfl, rfl, rfl⟩

/-- No update that presents a ticket touches an entry with another one. -/
theorem stale_same {ticket : ConnectionTicket} (hstale : entry.ticket? ≠ some ticket)
    (hkept : entry.canRemove = false) :
    entry.finishConnection ticket = (entry, false) ∧
    entry.rollbackCatalogConnectionReservation ticket = (entry, false) ∧
    entry.rollbackPublished ticket = (entry, false) ∧
    entry.cleanupCatalogBindingAndPending ticket = (entry, false) := by
  obtain ⟨sourceId, topic, phase⟩ := entry
  cases phase with
  | pending reservations server commitment =>
    refine ⟨rfl, ?_, rfl, rfl⟩
    simp only [rollbackCatalogConnectionReservation, rollbackConnection, hkept]
  | connecting reservations server connection commitment =>
    have hne : ¬ (connection = ticket.connection ∧ server = ticket.server) := by
      rintro ⟨rfl, rfl⟩
      exact hstale rfl
    simp only [finishConnection, rollbackCatalogConnectionReservation, rollbackPublished,
      rollbackConnection, if_neg hne, hkept, Bool.false_and, cleanupCatalogBindingAndPending,
      cleanupConnection, connectionGeneration, serverGeneration, true_and]
    grind
  | active server connection reservation =>
    have hne : ¬ (connection = ticket.connection ∧ server = ticket.server) := by
      rintro ⟨rfl, rfl⟩
      exact hstale rfl
    refine ⟨rfl, rfl, rfl, ?_⟩
    simp only [cleanupCatalogBindingAndPending, cleanupConnection, connectionGeneration,
      serverGeneration]
    grind

end SubscriptionEntry

-- ---- The invariant.

/-- The transaction has been through `reserve_publication`, or will never get there. -/
def TransactionStage.past : TransactionStage → Bool
  | .allocated => false
  | .catalogReserved => false
  | _ => true

namespace CatalogRuntime

variable {S T : Type} [DecidableEq S]

/-- The live reservation tokens of an id. -/
def tokensIn (prepared : List PreparedSubscription) (id : SubscriptionId) : Nat :=
  prepared.countP fun p => decide (p.id = id) && p.reservation

section

variable (s : CatalogRuntime S T)

def tokens (id : SubscriptionId) : Nat := tokensIn s.prepared id

/-- A transaction that has put its ticket on the entry of an id. -/
def Attempt (id : SubscriptionId) (ticket : ConnectionTicket) : Prop :=
  ∃ t ∈ s.transactions, t.id = id ∧ t.ticket = ticket ∧ t.stage ≠ .allocated

/-- A ticket whose connection is over: the data plane has no binding for it and gets none. -/
def Spent (ticket : ConnectionTicket) : Prop :=
  (∀ b ∈ s.bindings, b.ticket ≠ ticket) ∧
    ∃ t ∈ s.transactions, t.ticket = ticket ∧ t.stage.past = true

/-- An entry that nothing needs: it has no reservation, and it is a pending one without
a commitment or an active one whose connection is over. -/
def Removable (entry : SubscriptionEntry S T) : Prop :=
  entry.reservations = none ∧ (entry.canRemove = true ∨
    ∃ ticket, s.Spent ticket ∧ entry.phase = .active ticket.server ticket.connection none)

end

/-- The reservations of what a lookup found. -/
def reservationsOf (entry : Option (SubscriptionEntry S T)) : Nat :=
  (entry.map (·.reservationCount)).getD 0

/-- The connection generations and the data plane's bindings. -/
structure Tickets (s : CatalogRuntime S T) : Prop where
  distinct    : ∀ (i j : Nat) t t', s.transactions[i]? = some t → s.transactions[j]? = some t' →
    t.ticket.connection = t'.ticket.connection → i = j
  issued      : ∀ t ∈ s.transactions, t.ticket.connection.raw < s.nextConnectionGeneration
  nodup       : s.bindings.Nodup
  bound       : ∀ b ∈ s.bindings,
    ∃ t ∈ s.transactions, t.id = b.id ∧ t.ticket = b.ticket ∧ t.stage.past = true
  retiring    : ∀ b ∈ s.retiring, s.Spent b.ticket
  terminating : ∀ t ∈ s.terminating, ∀ b ∈ t.2, b.ticket.server = t.1 ∧ s.Spent b.ticket

/-- **The invariant of the runtime.** -/
structure Inv [TopicMetadata T] (limits : CatalogLimits) (s : CatalogRuntime S T) : Prop where
  wf       : s.catalog.Wf limits
  sound    : s.aborted = false
  kept     : ∀ id entry, s.catalog.entries.lookup id = some entry → entry.canRemove = false
  tokens   : ∀ id, s.tokens id = reservationsOf (s.catalog.entries.lookup id)
  nodup    : s.created.Nodup
  issued   : ∀ id ∈ s.created, id.raw < s.catalog.nextSubscriptionId
  present  : ∀ id entry, s.catalog.entries.lookup id = some entry → id ∈ s.created
  gone     : ∀ id ∈ s.created, s.catalog.entries.lookup id = none →
    ∃ r ∈ s.removals, r.id = id
  attempts : ∀ id entry ticket, s.catalog.entries.lookup id = some entry →
    entry.ticket? = some ticket → s.Attempt id ticket
  removed  : ∀ r ∈ s.removals, r.id ∈ s.created ∧ s.catalog.entries.lookup r.id = none ∧
    s.Removable r.entry
  tickets  : s.Tickets

theorem new_inv [TopicMetadata T] (limits : CatalogLimits) :
    (new : CatalogRuntime S T).Inv limits where
  wf       := new_wf
  sound    := rfl
  kept     := by simp [new, SubscriptionCatalog.new]
  tokens   := by
    intro id
    simp [new, SubscriptionCatalog.new, reservationsOf, tokens, tokensIn]
  nodup    := nodup_nil
  issued   := by simp [new]
  present  := by simp [new, SubscriptionCatalog.new]
  gone     := by simp [new]
  attempts := by simp [new, SubscriptionCatalog.new]
  removed  := by simp [new]
  tickets  := by
    refine ⟨?_, ?_, nodup_nil, ?_, ?_, ?_⟩
    all_goals simp [new]

variable [TopicMetadata T] {limits : CatalogLimits} {s s' : CatalogRuntime S T}
  {id : SubscriptionId} {entry : SubscriptionEntry S T}

-- ---- Moves of the transactions and of the data plane.

/-- No transaction is lost, and none goes back. -/
def Advances (s s' : CatalogRuntime S T) : Prop :=
  ∀ t ∈ s.transactions, ∃ t' ∈ s'.transactions, t'.id = t.id ∧ t'.ticket = t.ticket ∧
    (t.stage ≠ .allocated → t'.stage ≠ .allocated) ∧ (t.stage.past = true → t'.stage.past = true)

variable {ticket : ConnectionTicket} {k : Nat} {t : ConnectionTransaction}
  {stage : TransactionStage} {catalog : SubscriptionCatalog S T}

omit [TopicMetadata T] in
theorem Advances.attempt (h : Advances s s') (ha : s.Attempt id ticket) : s'.Attempt id ticket := by
  obtain ⟨t, ht, hid, hticket, hstage⟩ := ha
  obtain ⟨t', ht', hid', hticket', hstage', -⟩ := h t ht
  exact ⟨t', ht', hid'.trans hid, hticket'.trans hticket, hstage' hstage⟩

omit [TopicMetadata T] in
theorem Advances.spent (h : Advances s s')
    (hbindings : ∀ b ∈ s'.bindings, b ∈ s.bindings ∨ b.ticket ≠ ticket) (hs : s.Spent ticket) :
    s'.Spent ticket := by
  obtain ⟨hnone, t, ht, hticket, hpast⟩ := hs
  obtain ⟨t', ht', -, hticket', -, hpast'⟩ := h t ht
  refine ⟨fun b hb => ?_, t', ht', hticket'.trans hticket, hpast' hpast⟩
  rcases hbindings b hb with hold | hne
  · exact hnone b hold
  · exact hne

omit [TopicMetadata T] in
theorem Removable.mono (h : s.Removable entry)
    (hspent : ∀ ticket, s.Spent ticket → s'.Spent ticket) :
    s'.Removable entry :=
  ⟨h.1, h.2.imp_right fun ⟨ticket, hs, hphase⟩ => ⟨ticket, hspent ticket hs, hphase⟩⟩

theorem Inv.of_tickets (hinv : s.Inv limits) (hadvance : Advances s s')
    (hspent : ∀ ticket, s.Spent ticket → s'.Spent ticket) (htickets : s'.Tickets)
    (hcatalog : s'.catalog = s.catalog) (hprepared : s'.prepared = s.prepared)
    (hcreated : s'.created = s.created) (hremovals : s'.removals = s.removals)
    (haborted : s'.aborted = s.aborted) : s'.Inv limits where
  wf       := hcatalog ▸ hinv.wf
  sound    := haborted.trans hinv.sound
  kept     := by
    rw [hcatalog]
    exact hinv.kept
  tokens   := by
    intro id
    show tokensIn s'.prepared id = _
    rw [hprepared, hcatalog]
    exact hinv.tokens id
  nodup    := hcreated ▸ hinv.nodup
  issued   := by
    rw [hcreated, hcatalog]
    exact hinv.issued
  present  := by
    rw [hcreated, hcatalog]
    exact hinv.present
  gone     := by
    rw [hcreated, hcatalog, hremovals]
    exact hinv.gone
  attempts := by
    rw [hcatalog]
    exact fun id entry ticket he ht => hadvance.attempt (hinv.attempts id entry ticket he ht)
  removed  := by
    rw [hcatalog, hremovals, hcreated]
    intro r hr
    obtain ⟨hmem, hgone, hremovable⟩ := hinv.removed r hr
    exact ⟨hmem, hgone, hremovable.mono hspent⟩
  tickets  := htickets

omit [TopicMetadata T] in
theorem advances_setTransaction (hk : s.transactions[k]? = some t)
    (hstage : t.stage ≠ .allocated → stage ≠ .allocated)
    (hpast : t.stage.past = true → stage.past = true) :
    Advances s (s.setTransaction k { t with stage := stage }) := by
  intro u hu
  obtain ⟨j, hj⟩ := mem_iff_getElem?.mp hu
  by_cases hjk : j = k
  · subst hjk
    rw [hk, Option.some.injEq] at hj
    subst hj
    obtain ⟨hlt, -⟩ := List.getElem_of_getElem? hk
    exact ⟨_, mem_set hlt _, rfl, rfl, hstage, hpast⟩
  · refine ⟨u, mem_iff_getElem?.mpr ⟨j, ?_⟩, rfl, rfl, id, id⟩
    rw [← hj]
    exact getElem?_set_ne (Ne.symm hjk)

omit [TopicMetadata T] in
theorem Tickets.setTransaction (h : s.Tickets) (hk : s.transactions[k]? = some t)
    (hadvance : Advances s (s.setTransaction k { t with stage := stage })) :
    (s.setTransaction k { t with stage := stage }).Tickets where
  distinct    := by
    have hold : ∀ (j : Nat) u, (s.setTransaction k { t with stage := stage }).transactions[j]? =
        some u → ∃ v, s.transactions[j]? = some v ∧ v.ticket = u.ticket := by
      intro j u hj
      rcases getElem?_set_cases hk hj with ⟨rfl, rfl⟩ | ⟨-, hj⟩
      · exact ⟨t, hk, rfl⟩
      · exact ⟨u, hj, rfl⟩
    intro i j u u' hi hj heq
    obtain ⟨v, hv, hticket⟩ := hold i u hi
    obtain ⟨v', hv', hticket'⟩ := hold j u' hj
    exact h.distinct i j v v' hv hv' (by rw [hticket, hticket', heq])
  issued      := by
    intro u hu
    rcases mem_or_eq_of_mem_set hu with hu | rfl
    · exact h.issued u hu
    · exact h.issued t (mem_of_getElem? hk)
  nodup       := h.nodup
  bound       := by
    intro b hb
    obtain ⟨u, hu, hid, hticket, hpast⟩ := h.bound b hb
    obtain ⟨u', hu', hid', hticket', -, hpast'⟩ := hadvance u hu
    exact ⟨u', hu', hid'.trans hid, hticket'.trans hticket, hpast' hpast⟩
  retiring    := fun b hb => hadvance.spent (fun _ hb => .inl hb) (h.retiring b hb)
  terminating := fun u hu b hb =>
    ⟨(h.terminating u hu b hb).1, hadvance.spent (fun _ hb => .inl hb) (h.terminating u hu b hb).2⟩

theorem Inv.setStage (hinv : s.Inv limits) (hk : s.transactions[k]? = some t)
    (hstage : t.stage ≠ .allocated → stage ≠ .allocated)
    (hpast : t.stage.past = true → stage.past = true) :
    (s.setTransaction k { t with stage := stage }).Inv limits := by
  have hadvance := advances_setTransaction hk hstage hpast
  exact hinv.of_tickets hadvance (fun _ => hadvance.spent fun _ hb => .inl hb)
    (hinv.tickets.setTransaction hk hadvance) rfl rfl rfl rfl rfl

-- ---- Writes of one entry.

omit [TopicMetadata T] in
theorem Tickets.congr (h : s.Tickets) (htransactions : s'.transactions = s.transactions)
    (hnext : s'.nextConnectionGeneration = s.nextConnectionGeneration)
    (hbindings : s'.bindings = s.bindings) (hretiring : s'.retiring = s.retiring)
    (hterminating : s'.terminating = s.terminating) : s'.Tickets := by
  have hspent : ∀ ticket, s.Spent ticket → s'.Spent ticket := by
    intro ticket hs
    rw [Spent, hbindings, htransactions]
    exact hs
  refine ⟨htransactions ▸ h.distinct, ?_, hbindings ▸ h.nodup, ?_, ?_, ?_⟩
  · rw [htransactions, hnext]
    exact h.issued
  · rw [htransactions, hbindings]
    exact h.bound
  · rw [hretiring]
    exact fun b hb => hspent _ (h.retiring b hb)
  · rw [hterminating]
    exact fun t ht b hb => ⟨(h.terminating t ht b hb).1, hspent _ (h.terminating t ht b hb).2⟩

/-- **A write of one entry.** What was written is kept, or it is removable and removed. -/
theorem Inv.settled (hinv : s.Inv limits) (he : s.catalog.entries.lookup id = some entry)
    (result : SubscriptionEntry S T × Bool) (prepared : List PreparedSubscription)
    (hwf : catalog.Wf limits) (hwrote : Wrote s.catalog id
      (if result.2 then none else some result.1) catalog)
    (hkept : result.2 = false → result.1.canRemove = false)
    (hticket : ∀ ticket, result.1.ticket? = some ticket → s.Attempt id ticket)
    (hremoved : result.2 = true → s.Removable result.1) (htokens : ∀ id', tokensIn prepared id' =
      if id' = id then result.1.reservationCount else tokensIn s.prepared id') : Inv limits
      { s with
        catalog  := catalog
        prepared := prepared
        removals := s.removals ++
          ((if result.2 then some result.1 else none).map (Removal.mk id)).toList } := by
  have hcreated := hinv.present id entry he
  -- An id that is still there has the written value, or was not touched.
  have hlookup : ∀ {id' entry'}, catalog.entries.lookup id' = some entry' →
      (id' = id ∧ result.2 = false ∧ entry' = result.1) ∨
        (id' ≠ id ∧ s.catalog.entries.lookup id' = some entry') := by
    intro id' entry' hentry
    rw [hwrote.lookup] at hentry
    split at hentry
    next heq =>
      split at hentry
      next => cases hentry
      next hflag => exact .inl ⟨heq, Bool.eq_false_iff.mpr hflag, (some.inj hentry).symm⟩
    next hne => exact .inr ⟨hne, hentry⟩
  refine ⟨hwf, hinv.sound, ?_, ?_, hinv.nodup, ?_, ?_, ?_, ?_, ?_,
    hinv.tickets.congr rfl rfl rfl rfl rfl⟩
  · intro id' entry' hentry
    rcases hlookup hentry with ⟨-, hflag, rfl⟩ | ⟨-, hentry⟩
    · exact hkept hflag
    · exact hinv.kept id' entry' hentry
  · intro id'
    show tokensIn prepared id' = reservationsOf (catalog.entries.lookup id')
    rw [htokens, hwrote.lookup]
    split
    next =>
      split
      next hflag =>
        rw [reservationCount, (hremoved hflag).1]
        rfl
      next => rfl
    next => exact hinv.tokens id'
  · show ∀ id' ∈ s.created, id'.raw < catalog.nextSubscriptionId
    rw [hwrote.next]
    exact hinv.issued
  · intro id' entry' hentry
    rcases hlookup hentry with ⟨rfl, -, -⟩ | ⟨-, hentry⟩
    · exact hcreated
    · exact hinv.present id' entry' hentry
  · intro id' hid' hnone
    show ∃ r ∈ s.removals ++ _, r.id = id'
    rw [show catalog.entries.lookup id' = _ from hwrote.lookup id'] at hnone
    split at hnone
    next heq =>
      split at hnone
      next hflag =>
        refine ⟨⟨id, result.1⟩, mem_append_right _ ?_, heq.symm⟩
        rw [if_pos hflag]
        exact mem_singleton_self _
      next => cases hnone
    next =>
      obtain ⟨r, hr, hrid⟩ := hinv.gone id' hid' hnone
      exact ⟨r, mem_append_left _ hr, hrid⟩
  · intro id' entry' ticket hentry htick
    rcases hlookup hentry with ⟨rfl, -, rfl⟩ | ⟨-, hentry⟩
    · exact hticket ticket htick
    · exact hinv.attempts id' entry' ticket hentry htick
  · intro r hr
    rcases mem_append.mp hr with hr | hr
    · obtain ⟨hmem, hgone, hremovable⟩ := hinv.removed r hr
      refine ⟨hmem, ?_, hremovable⟩
      show catalog.entries.lookup r.id = none
      rw [hwrote.lookup, if_neg, hgone]
      rintro rfl
      rw [he] at hgone
      cases hgone
    · cases hflag : result.2 with
      | false => simp [hflag] at hr
      | true =>
        simp only [hflag, ↓reduceIte, map_some, toList_some, mem_singleton] at hr
        subst hr
        refine ⟨hcreated, ?_, hremoved hflag⟩
        show catalog.entries.lookup id = none
        rw [hwrote.lookup, if_pos rfl, if_pos hflag]

theorem settling_cases (hinv : s.Inv limits)
    (update : SubscriptionEntry S T → SubscriptionEntry S T × Bool)
    (htransition : ∀ entry, s.catalog.entries.lookup id = some entry →
      SubscriptionCatalog.Transition entry (update entry).1) :
    (s.catalog.entries.lookup id = none ∧ s.settling id update = s) ∨
    ∃ entry catalog, s.catalog.entries.lookup id = some entry ∧ catalog.Wf limits ∧
      Wrote s.catalog id
        (if (update entry).2 then none else some (update entry).1) catalog ∧
      s.settling id update =
        { s with
          catalog  := catalog
          removals := s.removals ++ ((if (update entry).2 then some (update entry).1 else none).map
            (Removal.mk id)).toList } := by
  cases he : s.catalog.entries.lookup id with
  | none =>
    refine .inl ⟨rfl, ?_⟩
    simp [settling, settle, withEntry, he, locked]
  | some entry =>
    obtain ⟨catalog, hsettle, hwf, hwrote⟩ :=
      settle_wf hinv.wf he (htransition entry he)
    refine .inr ⟨entry, catalog, rfl, hwf, hwrote, ?_⟩
    rw [settling, hsettle]
    rfl

/-- **A section of a connection** keeps the invariant. -/
theorem Inv.settling (hinv : s.Inv limits)
    {update : SubscriptionEntry S T → SubscriptionEntry S T × Bool}
    (hsettled : ∀ entry, s.catalog.entries.lookup id = some entry →
      SubscriptionEntry.Settled s.Spent entry (update entry)) :
    (s.settling id update).Inv limits := by
  rcases settling_cases hinv update fun entry he => (hsettled entry he).transition with
    ⟨-, hsame⟩ | ⟨entry, catalog, he, hwf, hwrote, hstate⟩
  · rw [hsame]
    exact hinv
  · rw [hstate]
    have hset := hsettled entry he
    refine hinv.settled he _ s.prepared hwf hwrote (fun hflag => ?_)
      (fun ticket hticket => ?_) (fun hflag => ?_) (fun id' => ?_)
    · cases hcan : (update entry).1.canRemove with
      | false => rfl
      | true =>
        have hwas := hset.kept hflag hcan
        rw [hinv.kept id entry he] at hwas
        cases hwas
    · rcases hset.ticket with hnone | hsame
      · rw [hnone] at hticket
        cases hticket
      · exact hinv.attempts id entry ticket he (hsame.symm.trans hticket)
    · rcases hset.removed hflag with hcan | ⟨ticket, hspent, hphase⟩
      · exact ⟨reservations_of_canRemove hcan, .inl hcan⟩
      · refine ⟨?_, .inr ⟨ticket, hspent, hphase⟩⟩
        rw [reservations, hphase]
    · split
      next heq =>
        have htokens := hinv.tokens id
        rw [he] at htokens
        rw [heq, reservationCount, hset.reservations]
        exact htokens
      next => rfl

theorem Inv.updated (hinv : s.Inv limits) (he : s.catalog.entries.lookup id = some entry)
    {entry' : SubscriptionEntry S T} (prepared : List PreparedSubscription)
    (hwf : catalog.Wf limits)
    (hwrote : Wrote s.catalog id (some entry') catalog)
    (hkept : entry'.canRemove = false)
    (hticket : ∀ ticket, entry'.ticket? = some ticket → s.Attempt id ticket)
    (htokens : ∀ id', tokensIn prepared id' =
      if id' = id then entry'.reservationCount else tokensIn s.prepared id') :
    Inv limits { s with catalog := catalog, prepared := prepared } := by
  have h := hinv.settled he (entry', false) prepared hwf hwrote (fun _ => hkept) hticket nofun htokens
  simp only [Bool.false_eq_true, ↓reduceIte, map_none, toList_none, append_nil] at h
  exact h

theorem Inv.updated_same (hinv : s.Inv limits) (he : s.catalog.entries.lookup id = some entry)
    {entry' : SubscriptionEntry S T} (hwf : catalog.Wf limits)
    (hwrote : Wrote s.catalog id (some entry') catalog)
    (hkept : entry'.canRemove = false)
    (hticket : ∀ ticket, entry'.ticket? = some ticket → s.Attempt id ticket)
    (hcount : entry'.reservationCount = entry.reservationCount) :
    Inv limits { s with catalog := catalog } := by
  refine hinv.updated he s.prepared hwf hwrote hkept hticket fun id' => ?_
  split
  next heq =>
    have htokens := hinv.tokens id
    rw [he] at htokens
    rw [heq, hcount]
    exact htokens
  next => rfl

omit [TopicMetadata T] in
theorem tokensIn_append_bare (prepared : List PreparedSubscription) (id id' : SubscriptionId) :
    tokensIn (prepared ++ [⟨id, false⟩]) id' = tokensIn prepared id' := by
  simp [tokensIn]

omit [TopicMetadata T] in
theorem tokensIn_append_live (prepared : List PreparedSubscription) (id id' : SubscriptionId) :
    tokensIn (prepared ++ [⟨id, true⟩]) id' =
      tokensIn prepared id' + if id' = id then 1 else 0 := by
  simp [tokensIn, countP_append, countP_singleton, eq_comm]

-- ---- Preparations.

theorem Inv.addPrepared_bare (hinv : s.Inv limits) : (s.addPrepared ⟨id, false⟩).Inv limits := by
  refine ⟨hinv.wf, hinv.sound, hinv.kept, fun id' => ?_, hinv.nodup, hinv.issued, hinv.present,
    hinv.gone, hinv.attempts, hinv.removed, hinv.tickets.congr rfl rfl rfl rfl rfl⟩
  show tokensIn (s.prepared ++ [⟨id, false⟩]) id' = _
  rw [tokensIn_append_bare]
  exact hinv.tokens id'

theorem Inv.addReservation (hinv : s.Inv limits) (he : s.catalog.entries.lookup id = some entry)
    (hpending : entry.isConnected = false) :
    (s.locked (s.catalog.withEntry id addReservation) fun result s =>
      match result with
      | some (.ok ()) => s.addPrepared ⟨id, true⟩
      | _ => s).Inv limits := by
  rcases addReservation_cases hpending with
    ⟨error, hsame⟩ | ⟨hok, htransition, hcount, hkept, hticket⟩
  · have htransition : SubscriptionCatalog.Transition entry
        (SubscriptionEntry.addReservation entry).1 := by
      rw [hsame]
      exact ⟨rfl, rfl, fun h => h⟩
    obtain ⟨catalog, hwith, hwf, hwrote, -⟩ :=
      withEntry_wf hinv.wf he htransition
    rw [hsame] at hwith hwrote
    rw [hwith]
    exact hinv.updated_same he hwf hwrote (hinv.kept _ _ he)
      (fun ticket => hinv.attempts _ _ ticket he) rfl
  · obtain ⟨catalog, hwith, hwf, hwrote, -⟩ :=
      withEntry_wf hinv.wf he htransition
    rw [hok] at hwith
    rw [hwith]
    refine hinv.updated he _ hwf hwrote hkept (fun ticket h => ?_) fun id' => ?_
    · rw [hticket] at h
      cases h
    · have htokens := hinv.tokens id
      rw [he] at htokens
      rw [tokensIn_append_live]
      split
      next heq =>
        rw [hcount, heq]
        exact congrArg (· + 1) htokens
      next => rfl

theorem Inv.insertPending {sourceId : S} {topic : T} (hinv : s.Inv limits)
    (hnew : ∀ id entry, s.catalog.entries.lookup id = some entry →
      ¬ (entry.sourceId = sourceId ∧ entry.topic = topic))
    (h : s.catalog.insertPending limits sourceId topic = .ok (catalog, id)) :
    ({ s with catalog := catalog, created := s.created ++ [id] }.addPrepared ⟨id, true⟩).Inv
      limits := by
  obtain ⟨hid, habsent, -, hentries, -, -, -, hnext, -⟩ :=
    insertPending_eq_ok h
  have hlookup : ∀ id', catalog.entries.lookup id' =
      if id' = id then some (pendingEntry sourceId topic)
      else s.catalog.entries.lookup id' := by
    intro id'
    rw [hentries, Table.lookup_insert_ite]
  have hfresh : id ∉ s.created := by
    intro hmem
    have hlt := hinv.issued id hmem
    rw [hid] at hlt
    exact Nat.lt_irrefl _ hlt
  have hold : ∀ {id' entry'}, catalog.entries.lookup id' = some entry' →
      (id' = id ∧ entry' = pendingEntry sourceId topic) ∨
        s.catalog.entries.lookup id' = some entry' := by
    intro id' entry' hentry
    rw [hlookup] at hentry
    split at hentry
    next heq => exact .inl ⟨heq, (some.inj hentry).symm⟩
    next => exact .inr hentry
  refine ⟨insertPending_wf hinv.wf hnew h, hinv.sound, ?_, ?_, ?_, ?_, ?_, ?_,
    ?_, ?_, hinv.tickets.congr rfl rfl rfl rfl rfl⟩
  · intro id' entry' hentry
    rcases hold hentry with ⟨-, rfl⟩ | hentry
    · rfl
    · exact hinv.kept id' entry' hentry
  · intro id'
    show tokensIn (s.prepared ++ [⟨id, true⟩]) id' = reservationsOf (catalog.entries.lookup id')
    have htokens := hinv.tokens id'
    rw [tokensIn_append_live, hlookup]
    split
    next heq =>
      rw [heq, habsent] at htokens
      rw [heq]
      exact congrArg (· + 1) htokens
    next => exact htokens
  · refine List.Nodup.append hinv.nodup (nodup_singleton _) ?_
    rw [disjoint_singleton]
    exact hfresh
  · intro id' hid'
    show id'.raw < catalog.nextSubscriptionId
    rw [hnext]
    rcases mem_append.mp hid' with hid' | hid'
    · exact Nat.lt_succ_of_lt (hinv.issued id' hid')
    · rw [mem_singleton.mp hid', hid]
      exact Nat.lt_succ_self _
  · intro id' entry' hentry
    rcases hold hentry with ⟨rfl, -⟩ | hentry
    · exact mem_append_right _ (mem_singleton_self _)
    · exact mem_append_left _ (hinv.present id' entry' hentry)
  · intro id' hid' hnone
    have hnone : catalog.entries.lookup id' = none := hnone
    rw [hlookup] at hnone
    split at hnone
    next => cases hnone
    next hne =>
      rcases mem_append.mp hid' with hid' | hid'
      · exact hinv.gone id' hid' hnone
      · exact absurd (mem_singleton.mp hid') hne
  · intro id' entry' ticket hentry hticket
    rcases hold hentry with ⟨-, rfl⟩ | hentry
    · cases hticket
    · exact hinv.attempts id' entry' ticket hentry hticket
  · intro r hr
    obtain ⟨hmem, hgone, hremovable⟩ := hinv.removed r hr
    refine ⟨mem_append_left _ hmem, ?_, hremovable⟩
    show catalog.entries.lookup r.id = none
    rw [hlookup, if_neg, hgone]
    rintro rfl
    exact hfresh hmem

theorem Inv.prepare [DecidableEq T] (hinv : s.Inv limits) (resolves : S → Bool) (sourceId : S)
    (topic : T) : (s.prepare limits resolves sourceId topic).Inv limits := by
  unfold CatalogRuntime.prepare
  split
  next => exact hinv
  next =>
    rcases findIdentity_spec hinv.wf sourceId topic with
      ⟨id, entry, hfind, he, -⟩ | ⟨hfind, hnew⟩
    · rw [hfind]
      simp only []
      split
      next => exact hinv.addPrepared_bare
      next hpending => exact hinv.addReservation he (Bool.eq_false_iff.mpr hpending)
    · rw [hfind]
      simp only []
      split
      next => exact hinv
      next catalog id hinsert => exact hinv.insertPending hnew hinsert

theorem Inv.finish (hinv : s.Inv limits) {p : PreparedSubscription} (hk : s.prepared[k]? = some p)
    (committed : Bool) : (s.finish k p committed).Inv limits := by
  unfold CatalogRuntime.finish
  split
  next hlive =>
    have hcount := fun id' =>
      countP_set_add (fun p => decide (p.id = id') && p.reservation) { p with reservation := false } hk
    have hself : 0 < tokensIn s.prepared p.id := by
      refine countP_pos_iff.mpr ⟨p, mem_of_getElem? hk, ?_⟩
      simp [hlive]
    have htokens := hinv.tokens p.id
    cases he : s.catalog.entries.lookup p.id with
    | none =>
      rw [he] at htokens
      exact absurd htokens (Nat.ne_of_gt hself)
    | some entry =>
      rw [he] at htokens
      obtain ⟨htransition, hless, hticket, hflag⟩ :=
        finishPreparation_spec committed (hinv.kept _ _ he)
      obtain ⟨catalog, hsettle, hwf, hwrote⟩ := settle_wf hinv.wf he htransition
      rw [CatalogRuntime.settling, hsettle]
      refine hinv.settled he _ _ hwf hwrote (fun h => hflag.symm.trans h)
        (fun ticket h => hinv.attempts _ _ ticket he (hticket.symm.trans h))
        (fun h => ?_) fun id' => ?_
      · have hcan := hflag.symm.trans h
        exact ⟨reservations_of_canRemove hcan, .inl hcan⟩
      · have hone := hcount id'
        simp only [Bool.and_false, Bool.false_eq_true, ↓reduceIte, Nat.add_zero, hlive,
          Bool.and_true, decide_eq_true_eq] at hone
        have htokens' : tokensIn s.prepared p.id = entry.reservationCount := htokens
        show tokensIn (s.prepared.set k { p with reservation := false }) id' = _
        unfold tokensIn at htokens' ⊢
        split
        next heq =>
          subst heq
          rw [if_pos rfl] at hone
          rw [hless]
          omega
        next hne =>
          rw [if_neg (Ne.symm hne)] at hone
          exact hone
  next => exact hinv

theorem Inv.claimServer (hinv : s.Inv limits) (server : ServerGeneration) (id : SubscriptionId) :
    (s.claimServer server id).Inv limits := by
  unfold CatalogRuntime.claimServer
  cases he : s.catalog.entries.lookup id with
  | none =>
    simp only [withEntry, he, locked]
    exact hinv
  | some entry =>
    obtain ⟨htransition, hcount, hticket, hkept⟩ :=
      claimServer_spec entry server
    obtain ⟨catalog, hwith, hwf, hwrote, -⟩ := withEntry_wf hinv.wf he htransition
    rw [hwith]
    exact hinv.updated_same he hwf hwrote (hkept.trans (hinv.kept _ _ he))
      (fun ticket h => hinv.attempts _ _ ticket he (hticket.symm.trans h)) hcount

-- ---- Connections.

omit [TopicMetadata T] in
theorem Tickets.unique (h : s.Tickets) {u : ConnectionTransaction} (ht : t ∈ s.transactions)
    (hu : u ∈ s.transactions) (heq : u.ticket = t.ticket) : u = t := by
  obtain ⟨i, hi⟩ := mem_iff_getElem?.mp ht
  obtain ⟨j, hj⟩ := mem_iff_getElem?.mp hu
  have hij := h.distinct j i u t hj hi (by rw [heq])
  subst hij
  rw [hi] at hj
  exact (some.inj hj).symm

section

variable (hinv : s.Inv limits)
include hinv

theorem Inv.allocate (server : ServerGeneration) (id : SubscriptionId) :
    (s.allocate server id).Inv limits := by
  unfold CatalogRuntime.allocate
  split
  next next connection hnext hconnection =>
    obtain ⟨rfl, -⟩ := checkedIncrement_eq_some hnext
    have hraw : connection.raw = s.nextConnectionGeneration := by
      unfold ConnectionGeneration.new at hconnection
      split at hconnection
      next =>
        cases hconnection
        rfl
      next => cases hconnection
    have hold : ∀ t ∈ s.transactions, t.ticket.connection ≠ connection := by
      rintro t ht rfl
      exact Nat.ne_of_lt (hinv.tickets.issued t ht) hraw
    have hadvance : Advances s
        { s with
          nextConnectionGeneration := s.nextConnectionGeneration + 1
          transactions := s.transactions ++ [⟨id, ⟨server, connection⟩, .allocated⟩] } :=
      fun t ht => ⟨t, mem_append_left _ ht, rfl, rfl, fun h => h, fun h => h⟩
    have hspent := fun ticket (hs : s.Spent ticket) => hadvance.spent (fun _ hb => .inl hb) hs
    refine hinv.of_tickets hadvance hspent ⟨?_, ?_, hinv.tickets.nodup, ?_, ?_, ?_⟩
      rfl rfl rfl rfl rfl
    · intro i j t t' hi hj heq
      rcases getElem?_append_singleton_cases hi with hi | ⟨rfl, rfl⟩ <;>
        rcases getElem?_append_singleton_cases hj with hj | ⟨rfl, rfl⟩
      · exact hinv.tickets.distinct i j t t' hi hj heq
      · exact absurd heq (hold t (mem_of_getElem? hi))
      · exact absurd heq.symm (hold t' (mem_of_getElem? hj))
      · rfl
    · intro t ht
      rcases mem_append.mp ht with ht | ht
      · exact Nat.lt_succ_of_lt (hinv.tickets.issued t ht)
      · rw [mem_singleton.mp ht]
        exact Nat.lt_succ_of_le (Nat.le_of_eq hraw)
    · intro b hb
      obtain ⟨t, ht, hrest⟩ := hinv.tickets.bound b hb
      exact ⟨t, mem_append_left _ ht, hrest⟩
    · exact fun b hb => hspent _ (hinv.tickets.retiring b hb)
    · exact fun t ht b hb => (hinv.tickets.terminating t ht b hb).imp_right (hspent _)
  next next hnext _ =>
    obtain ⟨rfl, -⟩ := checkedIncrement_eq_some hnext
    refine hinv.of_tickets (fun t ht => ⟨t, ht, rfl, rfl, fun h => h, fun h => h⟩) (fun _ h => h)
      ⟨hinv.tickets.distinct, fun t ht => Nat.lt_succ_of_lt (hinv.tickets.issued t ht),
        hinv.tickets.nodup, hinv.tickets.bound, hinv.tickets.retiring, hinv.tickets.terminating⟩
      rfl rfl rfl rfl rfl
  next => exact hinv

theorem Inv.reserveCatalog (resolves : S → Bool)
    (hk : s.transactions[k]? = some t) (hstage : t.stage = .allocated) :
    (s.reserveCatalog resolves k t).Inv limits := by
  have hpast : ∀ stage : TransactionStage, t.stage.past = true → stage.past = true := by
    intro stage h
    rw [hstage] at h
    cases h
  have hfinished : (s.setTransaction k { t with stage := .finished }).Inv limits :=
    hinv.setStage hk (fun _ => by decide) (hpast _)
  unfold CatalogRuntime.reserveCatalog
  cases he : s.catalog.entries.lookup t.id with
  | none =>
    simp only [withEntry, he, locked]
    exact hfinished
  | some entry =>
    rcases connectFrom_cases entry resolves t.ticket with
      ⟨error, hsame⟩ | ⟨hok, htransition, hcount, hticket, hkept⟩
    · have htransition : SubscriptionCatalog.Transition entry
          (connectFrom resolves t.ticket entry).1 := by
        rw [hsame]
        exact ⟨rfl, rfl, fun h => h⟩
      obtain ⟨catalog, hwith, hwf, hwrote, -⟩ :=
        withEntry_wf hinv.wf he htransition
      rw [hsame] at hwith hwrote
      rw [hwith]
      exact hfinished.updated_same he hwf hwrote (hinv.kept _ _ he)
        (fun ticket => hfinished.attempts _ _ ticket he) rfl
    · obtain ⟨catalog, hwith, hwf, hwrote, -⟩ :=
        withEntry_wf hinv.wf he htransition
      rw [hok] at hwith
      rw [hwith]
      have hreserved : (s.setTransaction k { t with stage := .catalogReserved }).Inv limits :=
        hinv.setStage hk (fun _ => by decide) (hpast _)
      obtain ⟨hlt, -⟩ := List.getElem_of_getElem? hk
      refine hreserved.updated_same he hwf hwrote hkept (fun ticket h => ?_) hcount
      rw [hticket, Option.some.injEq] at h
      exact ⟨_, mem_set hlt _, rfl, h, (fun h => by cases h)⟩

theorem Inv.reservePublication (hk : s.transactions[k]? = some t)
    (hstage : t.stage = .catalogReserved) : (s.reservePublication k t).Inv limits := by
  have hmem := mem_of_getElem? hk
  -- The ticket has been nowhere near the data plane yet.
  have hnew : ∀ u ∈ s.transactions, u.stage.past = true → u.ticket ≠ t.ticket := by
    intro u hu hpast heq
    rw [hinv.tickets.unique hmem hu heq, hstage] at hpast
    cases hpast
  have hset : Advances s (s.setTransaction k { t with stage := .publishReserved }) :=
    advances_setTransaction hk (fun _ => by decide) (fun _ => rfl)
  have hadvance : Advances s (s.reservePublication k t) := hset
  have hspent : ∀ ticket, s.Spent ticket → (s.reservePublication k t).Spent ticket := by
    intro ticket hs
    refine hadvance.spent (fun b hb => ?_) hs
    rcases mem_append.mp hb with hb | hb
    · exact .inl hb
    · obtain ⟨-, u, hu, hticket, hpast⟩ := hs
      rw [mem_singleton.mp hb, ← hticket]
      exact .inr (Ne.symm (hnew u hu hpast))
  have htickets := hinv.tickets.setTransaction hk hset
  obtain ⟨hlt, -⟩ := List.getElem_of_getElem? hk
  refine hinv.of_tickets hadvance hspent ⟨htickets.distinct, htickets.issued, ?_, ?_, ?_, ?_⟩
    rfl rfl rfl rfl rfl
  · refine List.Nodup.append hinv.tickets.nodup (nodup_singleton _) ?_
    rw [disjoint_singleton]
    intro hb
    obtain ⟨u, hu, -, hticket, hpast⟩ := hinv.tickets.bound _ hb
    exact hnew u hu hpast hticket
  · intro b hb
    rcases mem_append.mp hb with hb | hb
    · exact htickets.bound b hb
    · rw [mem_singleton.mp hb]
      exact ⟨_, mem_set hlt _, rfl, rfl, rfl⟩
  · exact fun b hb => hspent _ (hinv.tickets.retiring b hb)
  · exact fun u hu b hb => (hinv.tickets.terminating u hu b hb).imp_right (hspent _)

theorem Inv.rebind (bindings retiring : List Binding)
    (terminating : List (ServerGeneration × List Binding)) (hsub : bindings.Sublist s.bindings)
    (hretiring : ∀ b ∈ retiring, b ∈ s.retiring ∨ b ∈ s.bindings ∧ b ∉ bindings)
    (hterminating : ∀ t ∈ terminating, t ∈ s.terminating ∨
      ∀ b ∈ t.2, b.ticket.server = t.1 ∧ b ∈ s.bindings ∧ b ∉ bindings) :
    Inv limits
      { s with bindings := bindings, retiring := retiring, terminating := terminating } := by
  have hspent : ∀ ticket, s.Spent ticket → Spent
      { s with bindings := bindings, retiring := retiring, terminating := terminating } ticket :=
    fun ticket hs => ⟨fun b hb => hs.1 b (hsub.subset hb), hs.2⟩
  -- A binding is determined by its ticket, so the ticket of a lost one is spent.
  have hlost : ∀ b, b ∈ s.bindings → b ∉ bindings → Spent
      { s with bindings := bindings, retiring := retiring, terminating := terminating } b.ticket := by
    intro b hb hnot
    obtain ⟨t, ht, hid, hticket, hpast⟩ := hinv.tickets.bound b hb
    refine ⟨fun b' hb' heq => ?_, t, ht, hticket, hpast⟩
    obtain ⟨t', ht', hid', hticket', -⟩ := hinv.tickets.bound b' (hsub.subset hb')
    have hsame := hinv.tickets.unique ht ht' (by rw [hticket', heq, hticket])
    have hbb : b' = b := by
      obtain ⟨bid, bticket⟩ := b
      obtain ⟨bid', bticket'⟩ := b'
      simp only at hid hid' heq
      rw [Binding.mk.injEq]
      exact ⟨by rw [← hid', hsame, hid], heq⟩
    exact hnot (hbb ▸ hb')
  refine hinv.of_tickets (fun t ht => ⟨t, ht, rfl, rfl, fun h => h, fun h => h⟩) hspent
    ⟨hinv.tickets.distinct, hinv.tickets.issued, hinv.tickets.nodup.sublist hsub,
      fun b hb => hinv.tickets.bound b (hsub.subset hb), fun b hb => ?_, fun t ht b hb => ?_⟩
    rfl rfl rfl rfl rfl
  · rcases hretiring b hb with hold | ⟨hbound, hnot⟩
    · exact hspent _ (hinv.tickets.retiring b hold)
    · exact hlost b hbound hnot
  · rcases hterminating t ht with hold | hnew
    · exact (hinv.tickets.terminating t hold b hb).imp_right (hspent _)
    · obtain ⟨hserver, hbound, hnot⟩ := hnew b hb
      exact ⟨hserver, hlost b hbound hnot⟩

theorem Inv.takeTerminating (r : Nat) :
    Inv limits { s with terminating := s.terminating.eraseIdx r } :=
  hinv.rebind s.bindings s.retiring _ (List.Sublist.refl _)
    (fun _ h => .inl h) (fun _ h => .inl (mem_of_mem_eraseIdx h))

theorem Inv.unbind (hk : s.transactions[k]? = some t) : (s.unbind k t).Inv limits :=
  (hinv.rebind (s.bindings.erase ⟨t.id, t.ticket⟩) s.retiring s.terminating erase_sublist
    (fun _ h => .inl h) (fun _ h => .inl h)).setStage hk (fun _ => by decide) (fun _ => rfl)

theorem Inv.commitConnection (hk : s.transactions[k]? = some t) :
    (s.commitConnection k t).Inv limits := by
  unfold CatalogRuntime.commitConnection
  cases he : s.catalog.entries.lookup t.id with
  | none =>
    simp only [withEntry, he, locked]
    exact hinv
  | some entry =>
    obtain ⟨htransition, hcount, hticket, hkept⟩ :=
      finishConnection_spec t.ticket (hinv.kept _ _ he)
    obtain ⟨catalog, hwith, hwf, hwrote, -⟩ := withEntry_wf hinv.wf he htransition
    rw [hwith]
    have hwritten : Inv limits { s with catalog := catalog } :=
      hinv.updated_same he hwf hwrote hkept
        (fun ticket h => hinv.attempts _ _ ticket he (hticket.symm.trans h)) hcount
    simp only [locked]
    split
    next => exact hwritten.setStage hk (fun _ => by decide) (fun _ => rfl)
    next => exact hwritten

end

theorem Spent.settling (h : s.Spent ticket)
    (update : SubscriptionEntry S T → SubscriptionEntry S T × Bool) :
    (s.settling id update).Spent ticket := by
  unfold CatalogRuntime.settling locked
  split <;> exact h

theorem Inv.cleanups {server : ServerGeneration} {topic : Binding} (hinv : s.Inv limits)
    (hserver : topic.ticket.server = server) (hspent : s.Spent topic.ticket) :
    (s.settling topic.id (cleanupCatalogBindingAndPending
      ⟨server, topic.ticket.connection⟩)).Inv limits := by
  subst hserver
  exact hinv.settling fun entry _ => cleanup_settled hspent

/-- **The termination of a server** under the lock: what every one of its sections
keeps holds at its end. -/
theorem terminate_induction {server : ServerGeneration} {active : List Binding}
    {P : CatalogRuntime S T → Prop} (hinv : s.Inv limits)
    (hactive : ∀ b ∈ active, b.ticket.server = server ∧ s.Spent b.ticket) (hP : P s)
    (hcleanup : ∀ s, s.Inv limits → P s → ∀ topic ∈ active, s.Spent topic.ticket →
      P (s.settling topic.id (cleanupCatalogBindingAndPending
        ⟨server, topic.ticket.connection⟩)))
    (hreset : ∀ s, s.Inv limits → P s → ∀ id,
      P (s.settling id (terminationReset server))) :
    (s.terminate server active).Inv limits ∧ P (s.terminate server active) := by
  have hcleaned : ∀ s : CatalogRuntime S T, s.Inv limits →
      (∀ b ∈ active, s.Spent b.ticket) → P s → _ := fun s hinv hspent hP =>
    foldlRecOn (motive := fun s : CatalogRuntime S T =>
        s.Inv limits ∧ (∀ b ∈ active, s.Spent b.ticket) ∧ P s) active
      (fun s topic => s.settling topic.id
        (cleanupCatalogBindingAndPending ⟨server, topic.ticket.connection⟩))
      ⟨hinv, hspent, hP⟩ (fun s ⟨hinv, hspent, hP⟩ topic htopic =>
        ⟨hinv.cleanups (hactive topic htopic).1 (hspent topic htopic),
          fun b hb => (hspent b hb).settling _,
          hcleanup s hinv hP topic htopic (hspent topic htopic)⟩)
  obtain ⟨hinv', -, hP'⟩ := hcleaned s hinv (fun b hb => (hactive b hb).2) hP
  exact foldlRecOn (motive := fun s : CatalogRuntime S T => s.Inv limits ∧ P s) _ _
    ⟨hinv', hP'⟩ (fun s ⟨hinv, hP⟩ id _ =>
      ⟨hinv.settling fun entry _ => terminationReset_settled _ server,
        hreset s hinv hP id⟩)

-- ---- Steps.

/-- **Every step keeps the invariant.** -/
theorem Inv.step [DecidableEq T] {resolves : S → Bool} {action : Action S T}
    (hinv : s.Inv limits) (h : s.step limits resolves action = some s') : s'.Inv limits := by
  unfold CatalogRuntime.step at h
  rw [if_neg (Bool.eq_false_iff.mp hinv.sound)] at h
  cases action with
  | prepare sourceId topic =>
    cases h
    exact hinv.prepare resolves sourceId topic
  | finish k committed =>
    obtain ⟨p, hk, rfl⟩ := map_eq_some_iff.mp h
    exact hinv.finish hk committed
  | claimServer server id =>
    cases h
    exact hinv.claimServer server id
  | allocate server id =>
    cases h
    exact hinv.allocate server id
  | reserveCatalog k =>
    simp only [] at h
    split at h
    next t hk =>
      split at h
      next hstage =>
        cases h
        exact hinv.reserveCatalog resolves hk hstage
      next => cases h
    next => cases h
  | reservePublication k =>
    simp only [] at h
    split at h
    next t hk =>
      split at h
      next hstage =>
        cases h
        exact hinv.reservePublication hk hstage
      next => cases h
    next => cases h
  | commit k =>
    simp only [] at h
    split at h
    next t hk =>
      split at h
      next =>
        cases h
        exact hinv.commitConnection hk
      next => cases h
    next => cases h
  | unbind k =>
    simp only [] at h
    split at h
    next t hk =>
      split at h
      next =>
        cases h
        exact hinv.unbind hk
      next => cases h
    next => cases h
  | rollback k =>
    simp only [] at h
    split at h
    next t hk =>
      have hfinished : (s.setTransaction k { t with stage := .finished }).Inv limits :=
        hinv.setStage hk (fun _ => by decide) (fun _ => rfl)
      split at h
      next =>
        cases h
        exact hfinished.settling fun entry he =>
          rollbackCatalogConnectionReservation_settled _ (hinv.kept _ _ he)
      next =>
        split at h
        next =>
          cases h
          exact hfinished.settling fun entry _ => rollbackPublished_settled _
        next => cases h
    next => cases h
  | disconnect b =>
    obtain ⟨binding, hb, rfl⟩ := map_eq_some_iff.mp h
    refine hinv.rebind _ _ s.terminating erase_sublist (fun b' hb' => ?_) (fun _ h => .inl h)
    rcases mem_append.mp hb' with hb' | hb'
    · exact .inl hb'
    · rw [mem_singleton.mp hb']
      exact .inr ⟨mem_of_getElem? hb, hinv.tickets.nodup.not_mem_erase⟩
  | cleanup r =>
    obtain ⟨binding, hr, rfl⟩ := map_eq_some_iff.mp h
    have hspent := hinv.tickets.retiring binding (mem_of_getElem? hr)
    have htaken : Inv limits { s with retiring := s.retiring.eraseIdx r } :=
      hinv.rebind s.bindings _ s.terminating (List.Sublist.refl _)
        (fun _ h => .inl (mem_of_mem_eraseIdx h)) (fun _ h => .inl h)
    exact htaken.settling fun entry _ => cleanup_settled hspent
  | drain server =>
    cases h
    refine hinv.rebind _ s.retiring _ filter_sublist (fun _ h => .inl h) (fun t ht => ?_)
    rcases mem_append.mp ht with ht | ht
    · exact .inl ht
    · rw [mem_singleton.mp ht]
      refine .inr fun b hb => ?_
      obtain ⟨hbound, hserver⟩ := mem_filter.mp hb
      have hserver := of_decide_eq_true hserver
      refine ⟨hserver, hbound, fun hrest => ?_⟩
      exact of_decide_eq_true (mem_filter.mp hrest).2 hserver
  | terminate r =>
    obtain ⟨t, hr, rfl⟩ := map_eq_some_iff.mp h
    exact (terminate_induction (P := fun _ => True) (hinv.takeTerminating r)
      (hinv.tickets.terminating t (mem_of_getElem? hr)) trivial (fun _ _ _ _ _ _ => trivial)
      (fun _ _ _ _ => trivial)).1

end CatalogRuntime

end Xlfn.Subscription
