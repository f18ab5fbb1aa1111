import Xlfn.Subscription.Topics

/-!
# Xlfn — one topic as a machine of its own

Seen from one topic the data plane is a small machine: publications, the life of the
topic's connections, and at most one value out with a refresh. `TopicView` is what
the topic sees, with the records of what happened to it; `TopicStep` lists the ways
in which the view can change; `TopicOrdered` says that no accepted value is lost and
none is delivered out of order.
-/

namespace Xlfn.Subscription

open Xlfn.Lib Xlfn.Kernel Function List

variable {V : Type}

/-- What one topic sees. The records are newest first; a record is the generation
and the sequence of a value. -/
structure TopicView (V : Type) where
  accepted  : List QueuedUpdate
  observed  : List QueuedUpdate
  delivered : List QueuedUpdate
  taken     : List (RtdUpdate V)
  active    : Option (ActiveSubscription V)
  queued    : BufferIndex → Option QueuedUpdate

/-- The record of an update in a batch. -/
def RtdUpdate.record (u : RtdUpdate V) : QueuedUpdate := ⟨u.connectionGeneration, u.sequence⟩

/-- Within one generation the first record has the higher sequence. -/
def Newer (r r' : QueuedUpdate) : Prop :=
  r.connectionGeneration = r'.connectionGeneration → r'.sequence < r.sequence

/-- The slot of a pending entry holds its value, or the batch holds it. -/
def SlotHolds (taken : List (RtdUpdate V)) (a : ActiveSubscription V) (b : BufferIndex)
    (q : QueuedUpdate) : Prop :=
  (∃ versioned, a.values b = .resident versioned ∧
    versioned.generation = q.connectionGeneration ∧ versioned.sequence = q.sequence) ∨
  (a.values b = .inFlight q.connectionGeneration q.sequence ∧
    ∃ u ∈ taken, u.record = q ∧ u.buffer = b)

/-- **No value of the topic is lost or out of order.** -/
structure TopicOrdered (v : TopicView V) : Prop where
  generation     : ∀ a b q, v.active = some a → v.queued b = some q →
    q.connectionGeneration = a.generation
  slot           : ∀ a b q, v.active = some a → v.queued b = some q → SlotHolds v.taken a b q
  queued         : ∀ b q, v.queued b = some q → q ∈ v.accepted
  taken          : ∀ u ∈ v.taken, u.record ∈ v.accepted
  delivered      : ∀ r ∈ v.delivered, r ∈ v.accepted
  below          : ∀ a r, v.active = some a → r ∈ v.accepted →
    r.connectionGeneration = a.generation → r.sequence < a.nextSequence
  acceptedOrder  : v.accepted.Pairwise Newer
  deliveredOrder : v.delivered.Pairwise Newer
  queuedNewer    : ∀ b q, v.queued b = some q → ∀ r ∈ v.delivered, Newer q r
  takenNewer     : ∀ u ∈ v.taken, ∀ r ∈ v.delivered, Newer u.record r
  /-- The highest accepted record of the connection was delivered, was seen by the
  connecting caller, or is pending. -/
  last           : ∀ a r, v.active = some a → r ∈ v.accepted →
    r.connectionGeneration = a.generation →
    (∀ r' ∈ v.accepted, r'.connectionGeneration = a.generation → r'.sequence ≤ r.sequence) →
    r ∈ v.delivered ∨ r ∈ v.observed ∨ ∃ b, v.queued b = some r

/-- The value a connecting caller has seen is remembered. -/
def observeRecord (generation : ConnectionGeneration) (observed : Option Nat)
    (records : List QueuedUpdate) : List QueuedUpdate :=
  match observed with
  | some sequence => ⟨generation, sequence⟩ :: records
  | none => records

/-- A delivered update is remembered. -/
def deliverRecord (u : RtdUpdate V) (outcome : RefreshOutcome) (records : List QueuedUpdate) :
    List QueuedUpdate :=
  match outcome with
  | .delivered => u.record :: records
  | .failed => records

/-- **How the view of a topic can change**, in a step that brings the generation
`fresh` into play, or none. -/
inductive TopicStep (fresh : Option ConnectionGeneration) (v : TopicView V) : TopicView V → Prop
  /-- The step does not concern the topic. -/
  | same : TopicStep fresh v v
  /-- A value is accepted under the next sequence. -/
  | stored (a : ActiveSubscription V) (b : BufferIndex) (value : V) (ha : v.active = some a) :
      TopicStep fresh v { v with
        accepted := ⟨a.generation, a.nextSequence⟩ :: v.accepted
        active := some (a.spent.stored b a.nextSequence value)
        queued := Function.update v.queued b (some ⟨a.generation, a.nextSequence⟩) }
  /-- A sequence is spent on a value the quota refuses. -/
  | spent (a : ActiveSubscription V) (ha : v.active = some a) :
      TopicStep fresh v { v with active := some a.spent }
  /-- A connection of an unused generation reserves the vacant topic. -/
  | reserved (id : SubscriptionId) (generation : ConnectionGeneration)
      (hgeneration : fresh = some generation) (hqueued : ∀ b, v.queued b = none)
      (hfresh : ∀ r ∈ v.accepted, r.connectionGeneration ≠ generation) :
      TopicStep fresh v { v with active := some (.fresh id generation) }
  /-- The connection commits; its caller has seen an accepted value, or none. -/
  | committed (a : ActiveSubscription V) (observed : Option Nat) (ha : v.active = some a)
      (hobserved : ∀ sequence, observed = some sequence → ⟨a.generation, sequence⟩ ∈ v.accepted) :
      TopicStep fresh v { v with
        observed := observeRecord a.generation observed v.observed
        active := some { a with committed := true }
        queued := fun b => (v.queued b).filter (newerThan observed) }
  /-- Pending entries leave, with the connection or from another one. -/
  | withdrawn (keep : QueuedUpdate → Bool) (gone : Bool)
      (hkeep : gone = false → ∀ a q, v.active = some a →
        q.connectionGeneration = a.generation → keep q = true) :
      TopicStep fresh v { v with
        active := if gone then none else v.active
        queued := fun b => (v.queued b).filter keep }
  /-- A resident value moves into the batch. -/
  | collected (a : ActiveSubscription V) (u : RtdUpdate V) (ha : v.active = some a)
      (htaken : v.taken = []) (hqueued : v.queued u.buffer = some u.record) :
      TopicStep fresh v { v with
        taken := [u]
        active := some (a.setSlot u.buffer (.inFlight u.connectionGeneration u.sequence)) }
  /-- The update comes back, delivered or not. -/
  | completed (u : RtdUpdate V) (outcome : RefreshOutcome) (active : Option (ActiveSubscription V))
      (htaken : v.taken = [u])
      (hactive : ∀ a', active = some a' → ∃ a, v.active = some a ∧
        SameBut (fun b => (v.queued b).filter (staysPending outcome u)) (a.returned outcome u) a') :
      TopicStep fresh v { v with
        delivered := deliverRecord u outcome v.delivered
        taken := []
        active := active
        queued := fun b => (v.queued b).filter (staysPending outcome u) }

-- ---- Every step keeps the order.

section

variable {fresh : Option ConnectionGeneration} {v v' : TopicView V} {a : ActiveSubscription V}

theorem TopicOrdered.stored (h : TopicOrdered v) (b : BufferIndex) (value : V)
    (ha : v.active = some a) : TopicOrdered { v with
      accepted := ⟨a.generation, a.nextSequence⟩ :: v.accepted
      active := some (a.spent.stored b a.nextSequence value)
      queued := update v.queued b (some ⟨a.generation, a.nextSequence⟩) } := by
  have hbelow : ∀ r ∈ v.accepted, r.connectionGeneration = a.generation →
      r.sequence < a.nextSequence := fun r hr hg => h.below a r ha hr hg
  have hcases : ∀ b' q, update v.queued b (some ⟨a.generation, a.nextSequence⟩) b' =
      some q → (b' = b ∧ q = ⟨a.generation, a.nextSequence⟩) ∨ (b' ≠ b ∧ v.queued b' = some q) := by
    intro b' q hq
    by_cases hb : b' = b
    · subst hb
      rw [update_self] at hq
      cases hq
      exact .inl ⟨rfl, rfl⟩
    · rw [update_of_ne hb] at hq
      exact .inr ⟨hb, hq⟩
  refine ⟨?_, ?_, ?_, ?_, ?_, ?_, ?_, h.deliveredOrder, ?_, h.takenNewer, ?_⟩
  · intro a' b' q ha' hq
    cases ha'
    rcases hcases b' q hq with ⟨-, rfl⟩ | ⟨-, hq⟩
    · rfl
    · exact h.generation a b' q ha hq
  · intro a' b' q ha' hq
    cases ha'
    rcases hcases b' q hq with ⟨rfl, rfl⟩ | ⟨hb, hq⟩
    · exact .inl ⟨_, update_self .., rfl, rfl⟩
    · have hvalues : (a.spent.stored b a.nextSequence value).values b' = a.values b' :=
        update_of_ne hb ..
      unfold SlotHolds
      rw [hvalues]
      exact h.slot a b' q ha hq
  · intro b' q hq
    rcases hcases b' q hq with ⟨-, rfl⟩ | ⟨-, hq⟩
    · exact mem_cons_self
    · exact mem_cons_of_mem _ (h.queued b' q hq)
  · intro u hu
    exact mem_cons_of_mem _ (h.taken u hu)
  · intro r hr
    exact mem_cons_of_mem _ (h.delivered r hr)
  · intro a' r ha' hr hg
    cases ha'
    change r.sequence < a.nextSequence + 1
    rcases mem_cons.mp hr with rfl | hr
    · exact Nat.lt_succ_self _
    · exact Nat.lt_succ_of_lt (hbelow r hr hg)
  · refine pairwise_cons.mpr ⟨?_, h.acceptedOrder⟩
    intro r hr hg
    exact hbelow r hr hg.symm
  · intro b' q hq r hr
    rcases hcases b' q hq with ⟨-, rfl⟩ | ⟨-, hq⟩
    · intro hg
      exact hbelow r (h.delivered r hr) hg.symm
    · exact h.queuedNewer b' q hq r hr
  · intro a' r ha' hr hg hmax
    cases ha'
    rcases mem_cons.mp hr with rfl | hr
    · exact .inr (.inr ⟨b, update_self ..⟩)
    · -- An older record is not the highest one any more.
      have hlt := hbelow r hr hg
      have hle := hmax _ mem_cons_self rfl
      exact absurd hlt (not_lt.mpr hle)

theorem TopicOrdered.setActive (h : TopicOrdered v) (a' : ActiveSubscription V)
    (ha : v.active = some a) (hg : a'.generation = a.generation)
    (hnext : a.nextSequence ≤ a'.nextSequence) (hvalues : a'.values = a.values) :
    TopicOrdered { v with active := some a' } := by
  refine ⟨?_, ?_, h.queued, h.taken, h.delivered, ?_, h.acceptedOrder, h.deliveredOrder,
    h.queuedNewer, h.takenNewer, ?_⟩
  · intro a₁ b q ha₁ hq
    cases ha₁
    rw [hg]
    exact h.generation a b q ha hq
  · intro a₁ b q ha₁ hq
    cases ha₁
    have hslot := h.slot a b q ha hq
    unfold SlotHolds at hslot ⊢
    rwa [hvalues]
  · intro a₁ r ha₁ hr hgr
    cases ha₁
    exact (h.below a r ha hr (hgr.trans hg)).trans_le hnext
  · intro a₁ r ha₁ hr hgr hmax
    cases ha₁
    rw [hg] at hgr hmax
    exact h.last a r ha hr hgr hmax

theorem TopicOrdered.reserved (h : TopicOrdered v) {id : SubscriptionId}
    {generation : ConnectionGeneration} (hqueued : ∀ b, v.queued b = none)
    (hfresh : ∀ r ∈ v.accepted, r.connectionGeneration ≠ generation) :
    TopicOrdered { v with active := some (.fresh id generation) } := by
  refine ⟨?_, ?_, h.queued, h.taken, h.delivered, ?_, h.acceptedOrder, h.deliveredOrder,
    h.queuedNewer, h.takenNewer, ?_⟩
  · intro a b q _ hq
    cases (hqueued b).symm.trans hq
  · intro a b q _ hq
    cases (hqueued b).symm.trans hq
  · intro a r ha hr hg
    cases ha
    exact absurd hg (hfresh r hr)
  · intro a r ha hr hg
    cases ha
    exact absurd hg (hfresh r hr)

/-- Fewer pending entries, none of which was the last one of its connection. -/
theorem TopicOrdered.filtered (h : TopicOrdered v) {keep : QueuedUpdate → Bool}
    {observed : List QueuedUpdate} (hobserved : ∀ r ∈ v.observed, r ∈ observed)
    (hlast : ∀ a r b, v.active = some a → r ∈ v.accepted → r.connectionGeneration = a.generation →
      (∀ r' ∈ v.accepted, r'.connectionGeneration = a.generation → r'.sequence ≤ r.sequence) →
      v.queued b = some r → keep r = true ∨ r ∈ observed) :
    TopicOrdered { v with observed := observed, queued := fun b => (v.queued b).filter keep } := by
  have hold : ∀ b q, (v.queued b).filter keep = some q → v.queued b = some q :=
    fun b q hq => (Option.filter_eq_some_iff.mp hq).1
  refine ⟨?_, ?_, ?_, h.taken, h.delivered, h.below, h.acceptedOrder, h.deliveredOrder, ?_,
    h.takenNewer, ?_⟩
  · intro a b q ha hq
    exact h.generation a b q ha (hold b q hq)
  · intro a b q ha hq
    exact h.slot a b q ha (hold b q hq)
  · intro b q hq
    exact h.queued b q (hold b q hq)
  · intro b q hq
    exact h.queuedNewer b q (hold b q hq)
  · intro a r ha hr hg hmax
    rcases h.last a r ha hr hg hmax with hd | ho | ⟨b, hb⟩
    · exact .inl hd
    · exact .inr (.inl (hobserved r ho))
    · rcases hlast a r b ha hr hg hmax hb with hkeep | ho
      · exact .inr (.inr ⟨b, Option.filter_eq_some_iff.mpr ⟨hb, hkeep⟩⟩)
      · exact .inr (.inl ho)

theorem TopicOrdered.committed (h : TopicOrdered v) {observed : Option Nat} (ha : v.active = some a)
    (hobserved : ∀ sequence, observed = some sequence → ⟨a.generation, sequence⟩ ∈ v.accepted) :
    TopicOrdered { v with
      observed := observeRecord a.generation observed v.observed
      active := some { a with committed := true }
      queued := fun b => (v.queued b).filter (newerThan observed) } := by
  have hcommitted := h.setActive { a with committed := true } ha rfl le_rfl rfl
  refine hcommitted.filtered (v := { v with active := some { a with committed := true } }) ?_ ?_
  · intro r hr
    cases observed with
    | none => exact hr
    | some sequence => exact mem_cons_of_mem _ hr
  · intro a' r b ha' hr hg hmax _
    cases ha'
    cases observed with
    | none => exact .inl rfl
    | some sequence =>
      by_cases hlt : sequence < r.sequence
      · exact .inl (decide_eq_true hlt)
      · -- The last record is not newer than the observed one, so it is the observed one.
        right
        have hle := hmax _ (hobserved sequence rfl) rfl
        have hseq : r.sequence = sequence := le_antisymm (not_lt.mp hlt) hle
        have heq : r = ⟨a.generation, sequence⟩ := by
          cases r
          cases hg
          cases hseq
          rfl
        rw [heq]
        exact mem_cons_self

theorem TopicOrdered.withdrawn (h : TopicOrdered v) {keep : QueuedUpdate → Bool} {gone : Bool}
    (hkeep : gone = false → ∀ a q, v.active = some a →
      q.connectionGeneration = a.generation → keep q = true) :
    TopicOrdered { v with
      active := if gone then none else v.active
      queued := fun b => (v.queued b).filter keep } := by
  cases gone with
  | false =>
    refine h.filtered (fun _ hr => hr) ?_
    intro a r b ha _ hg _ _
    exact .inl (hkeep rfl a r ha hg)
  | true =>
    have hold : ∀ b q, (v.queued b).filter keep = some q → v.queued b = some q :=
      fun b q hq => (Option.filter_eq_some_iff.mp hq).1
    refine ⟨?_, ?_, ?_, h.taken, h.delivered, ?_, h.acceptedOrder, h.deliveredOrder, ?_,
      h.takenNewer, ?_⟩
    · intro a b q ha
      cases ha
    · intro a b q ha
      cases ha
    · intro b q hq
      exact h.queued b q (hold b q hq)
    · intro a r ha
      cases ha
    · intro b q hq
      exact h.queuedNewer b q (hold b q hq)
    · intro a r ha
      cases ha

variable {u : RtdUpdate V}

theorem TopicOrdered.collected (h : TopicOrdered v) (ha : v.active = some a) (htaken : v.taken = [])
    (hqueued : v.queued u.buffer = some u.record) : TopicOrdered { v with
      taken := [u]
      active := some (a.setSlot u.buffer (.inFlight u.connectionGeneration u.sequence)) } := by
  refine ⟨?_, ?_, h.queued, ?_, h.delivered, ?_, h.acceptedOrder, h.deliveredOrder,
    h.queuedNewer, ?_, ?_⟩
  · intro a' b q ha' hq
    cases ha'
    exact h.generation a b q ha hq
  · intro a' b q ha' hq
    cases ha'
    by_cases hb : b = u.buffer
    · subst hb
      rw [hqueued] at hq
      cases hq
      exact .inr ⟨update_self .., u, mem_cons_self, rfl, rfl⟩
    · have hvalues : (a.setSlot u.buffer (.inFlight u.connectionGeneration u.sequence)).values b =
          a.values b := update_of_ne hb ..
      rcases h.slot a b q ha hq with hresident | ⟨-, u', hu', -⟩
      · left
        rw [hvalues]
        exact hresident
      · rw [htaken] at hu'
        cases hu'
  · intro u' hu'
    rw [mem_singleton.mp hu']
    exact h.queued u.buffer u.record hqueued
  · intro a' r ha' hr hg
    cases ha'
    exact h.below a r ha hr hg
  · intro u' hu' r hr
    rw [mem_singleton.mp hu']
    exact h.queuedNewer u.buffer u.record hqueued r hr
  · intro a' r ha' hr hg hmax
    cases ha'
    exact h.last a r ha hr hg hmax

/-- A pending entry that stays keeps its value: the batch gives back what it holds. -/
theorem SlotHolds.returned {b : BufferIndex} {q : QueuedUpdate} {outcome : RefreshOutcome}
    (h : SlotHolds [u] a b q) (hg : q.connectionGeneration = a.generation)
    (hstays : staysPending outcome u q = true) :
    ∃ versioned, (a.returned outcome u).values b = .resident versioned ∧
      versioned.generation = q.connectionGeneration ∧ versioned.sequence = q.sequence := by
  unfold ActiveSubscription.returned
  rcases h with ⟨versioned, hslot, hmatch⟩ | ⟨hslot, u', hu', hrecord, hbuffer⟩
  · split
    · next hown =>
      have hb : b ≠ u.buffer := by
        intro hb
        subst hb
        rw [PublishCore.ownsSlot, hslot, Bool.and_false] at hown
        cases hown
      exact ⟨versioned, (update_of_ne hb ..).trans hslot, hmatch⟩
    · exact ⟨versioned, hslot, hmatch⟩
  · rw [mem_singleton.mp hu'] at hrecord hbuffer
    subst hrecord hbuffer
    have hown : PublishCore.ownsSlot a u = true := by
      have hgeneration : a.generation = u.connectionGeneration := hg.symm
      rw [PublishCore.ownsSlot, hslot, hgeneration]
      simp [RtdUpdate.record]
    rw [if_pos hown]
    cases outcome with
    | failed => exact ⟨_, update_self .., rfl, rfl⟩
    | delivered => simp [staysPending, retired, RtdUpdate.record] at hstays

theorem TopicOrdered.completed (h : TopicOrdered v) {outcome : RefreshOutcome}
    {active : Option (ActiveSubscription V)} (htaken : v.taken = [u])
    (hactive : ∀ a', active = some a' → ∃ a, v.active = some a ∧
      SameBut (fun b => (v.queued b).filter (staysPending outcome u)) (a.returned outcome u) a') :
    TopicOrdered { v with
      delivered := deliverRecord u outcome v.delivered
      taken := []
      active := active
      queued := fun b => (v.queued b).filter (staysPending outcome u) } := by
  have htake : u ∈ v.taken := by
    rw [htaken]
    exact mem_cons_self
  have hold : ∀ b q, (v.queued b).filter (staysPending outcome u) = some q →
      v.queued b = some q ∧ staysPending outcome u q = true :=
    fun b q hq => Option.filter_eq_some_iff.mp hq
  have hsame : ∀ a', active = some a' → ∃ a, v.active = some a ∧ a'.generation = a.generation ∧
      a'.nextSequence = a.nextSequence ∧ ∀ b, (v.queued b).filter (staysPending outcome u) ≠ none →
        a'.values b = (a.returned outcome u).values b := by
    intro a' ha'
    obtain ⟨a, ha, hbut⟩ := hactive a' ha'
    obtain ⟨-, hg, -, hnext⟩ := a.returned_same outcome u
    exact ⟨a, ha, hbut.generation.trans hg, hbut.nextSequence.trans hnext, hbut.values⟩
  refine ⟨?_, ?_, ?_, ?_, ?_, ?_, h.acceptedOrder, ?_, ?_, ?_, ?_⟩
  · intro a' b q ha' hq
    obtain ⟨a, ha, hg, -, -⟩ := hsame a' ha'
    rw [hg]
    exact h.generation a b q ha (hold b q hq).1
  · intro a' b q ha' hq
    obtain ⟨a, ha, -, -, hvalues⟩ := hsame a' ha'
    obtain ⟨hq₀, hstays⟩ := hold b q hq
    have hslot := h.slot a b q ha hq₀
    rw [htaken] at hslot
    obtain ⟨versioned, hresident, hmatch⟩ := hslot.returned (h.generation a b q ha hq₀) hstays
    refine .inl ⟨versioned, ?_, hmatch⟩
    rw [hvalues b fun hnone => by cases hnone.symm.trans hq]
    exact hresident
  · intro b q hq
    exact h.queued b q (hold b q hq).1
  · intro u' hu'
    cases hu'
  · intro r hr
    cases outcome with
    | failed => exact h.delivered r hr
    | delivered =>
      rcases mem_cons.mp hr with rfl | hr
      · exact h.taken u htake
      · exact h.delivered r hr
  · intro a' r ha' hr hgr
    obtain ⟨a, ha, hg, hnext, -⟩ := hsame a' ha'
    rw [hnext]
    exact h.below a r ha hr (hgr.trans hg)
  · cases outcome with
    | failed => exact h.deliveredOrder
    | delivered => exact pairwise_cons.mpr ⟨h.takenNewer u htake, h.deliveredOrder⟩
  · intro b q hq r hr
    obtain ⟨hq₀, hstays⟩ := hold b q hq
    cases outcome with
    | failed => exact h.queuedNewer b q hq₀ r hr
    | delivered =>
      rcases mem_cons.mp hr with rfl | hr
      · -- What stays pending is newer than what was delivered.
        intro hg
        simp only [staysPending, retired, RtdUpdate.record] at hstays hg ⊢
        simpa [hg] using hstays
      · exact h.queuedNewer b q hq₀ r hr
  · intro u' hu'
    cases hu'
  · intro a' r ha' hr hgr hmax
    obtain ⟨a, ha, hg, -, -⟩ := hsame a' ha'
    rw [hg] at hgr hmax
    have hsub : ∀ r' ∈ v.delivered, r' ∈ deliverRecord u outcome v.delivered := by
      intro r' hr'
      cases outcome with
      | failed => exact hr'
      | delivered => exact mem_cons_of_mem _ hr'
    rcases h.last a r ha hr hgr hmax with hd | ho | ⟨b, hb⟩
    · exact .inl (hsub r hd)
    · exact .inr (.inl ho)
    · by_cases hstays : staysPending outcome u r = true
      · exact .inr (.inr ⟨b, Option.filter_eq_some_iff.mpr ⟨hb, hstays⟩⟩)
      · -- The last record was retired, so it is the one that was delivered.
        left
        cases outcome with
        | failed => exact absurd rfl hstays
        | delivered =>
          simp only [staysPending, retired, Bool.not_eq_true, Bool.not_eq_false',
            Bool.and_eq_true, decide_eq_true_eq] at hstays
          have hle := hmax u.record (h.taken u htake) (hstays.1.symm.trans hgr)
          have heq : r = u.record := by
            cases r
            cases hstays.1
            cases le_antisymm hstays.2 hle
            rfl
          rw [heq]
          exact mem_cons_self

/-- **Every step keeps the order of a topic.** -/
theorem TopicStep.ordered (hstep : TopicStep fresh v v') (h : TopicOrdered v) :
    TopicOrdered v' := by
  cases hstep with
  | same => exact h
  | stored a b value ha => exact h.stored b value ha
  | spent a ha => exact h.setActive a.spent ha rfl (Nat.le_succ _) rfl
  | reserved id generation _ hqueued hfresh => exact h.reserved hqueued hfresh
  | committed a observed ha hobserved => exact h.committed ha hobserved
  | withdrawn keep gone hkeep => exact h.withdrawn hkeep
  | collected a u ha htaken hqueued => exact h.collected ha htaken hqueued
  | completed u outcome active htaken hactive => exact h.completed htaken hactive

-- ---- Generations in use.

/-- The topic has had a connection of this generation. -/
def TopicView.Uses (v : TopicView V) (generation : ConnectionGeneration) : Prop :=
  (∃ a, v.active = some a ∧ a.generation = generation) ∨
    ∃ r ∈ v.accepted, r.connectionGeneration = generation

/-- Only a reservation brings a new generation into play. -/
theorem TopicStep.uses (hstep : TopicStep fresh v v') {g : ConnectionGeneration}
    (h : v'.Uses g) : v.Uses g ∨ fresh = some g := by
  rcases h with ⟨a', ha', rfl⟩ | ⟨r, hr, rfl⟩
  · cases hstep with
    | same => exact .inl (.inl ⟨a', ha', rfl⟩)
    | stored a b value ha | spent a ha | committed a observed ha _ | collected a u ha _ _ =>
      cases ha'
      exact .inl (.inl ⟨a, ha, rfl⟩)
    | reserved id generation hgeneration _ _ =>
      cases ha'
      exact .inr hgeneration
    | withdrawn keep gone _ =>
      cases gone with
      | true => cases ha'
      | false => exact .inl (.inl ⟨a', ha', rfl⟩)
    | completed u outcome active _ hactive =>
      obtain ⟨a, ha, hbut⟩ := hactive a' ha'
      obtain ⟨-, hg, -, -⟩ := a.returned_same outcome u
      exact .inl (.inl ⟨a, ha, (hbut.generation.trans hg).symm⟩)
  · left
    cases hstep with
    | stored a b value ha =>
      rcases mem_cons.mp hr with rfl | hr
      · exact .inl ⟨a, ha, rfl⟩
      · exact .inr ⟨r, hr, rfl⟩
    | _ => exact .inr ⟨r, hr, rfl⟩

theorem TopicStep.accepted (hstep : TopicStep fresh v v') {r : QueuedUpdate}
    (h : r ∈ v.accepted) : r ∈ v'.accepted := by
  cases hstep with
  | stored a b value ha => exact mem_cons_of_mem _ h
  | _ => exact h

end

end Xlfn.Subscription
