import Xlfn.Subscription.Control
import Xlfn.Subscription.Inversion
import Xlfn.Subscription.Topics

/-!
# Xlfn — who owns a generation

`rollback_connection` removes what carries its generation, whoever put it there.
That it removes nothing else rests on the runtime handing out every generation
once (`Owned`): a transaction in progress shares its generation with no other one,
and a subscription of that generation is the one the transaction reserved.
-/

namespace Xlfn.Subscription

open Xlfn.Lib Xlfn.Kernel

variable {V N : Type} {s s' : State V N}

/-- A generation is its number. -/
theorem ConnectionGeneration.eq_of_raw {g g' : ConnectionGeneration} (h : g.raw = g'.raw) :
    g = g' := by
  cases g
  cases g'
  cases h
  rfl

/-- Generations are handed out once: a transaction in progress owns its own, and a
subscription of that generation is the one it reserved. -/
structure Owned (s : State V N) : Prop where
  activeBelow : ∀ t a, s.core.active? t = some a → a.generation.raw < s.nextGeneration
  opBelow     : ∀ k o c, s.operations.lookup k = some o → o.connection? = some c →
    c.generation.raw < s.nextGeneration
  opInjective : ∀ k k' o o' c c', s.operations.lookup k = some o →
    s.operations.lookup k' = some o' → o.connection? = some c → o'.connection? = some c' →
    c.generation = c'.generation → k = k'
  opOwns      : ∀ k o c t a, s.operations.lookup k = some o → o.connection? = some c →
    s.core.active? t = some a → a.generation = c.generation → t = c.topicId ∧ a.id = c.id

/-- No subscription of `core'` is new. -/
def Narrows (core core' : PublishCore V N) : Prop :=
  ∀ t a', core'.active? t = some a' →
    ∃ a, core.active? t = some a ∧ a.id = a'.id ∧ a.generation = a'.generation

/-- No connection transaction of `s'` is new. -/
def OpsKept (s s' : State V N) : Prop :=
  ∀ k o' c, s'.operations.lookup k = some o' → o'.connection? = some c →
    ∃ o, s.operations.lookup k = some o ∧ o.connection? = some c

variable {core core' : PublishCore V N} {op : Nat} {after : Option (Operation V N)}

/-- Equal shards. -/
theorem Narrows.of_shards (h : core'.shards = core.shards) : Narrows core core' := by
  intro t a' ha'
  refine ⟨a', ?_, rfl, rfl⟩
  unfold PublishCore.active? at ha' ⊢
  rw [← h]
  exact ha'

variable {t : TopicId}

/-- A section at one topic that makes no new connection. -/
theorem Touches.narrows {active : Option (ActiveSubscription V)}
    {queued : BufferIndex → Option QueuedUpdate} (h : Touches core core' t active queued)
    (hactive : ∀ a', active = some a' → ∃ a, core.active? t = some a ∧ a.id = a'.id ∧
      a.generation = a'.generation) : Narrows core core' := by
  intro t' a' ha'
  by_cases ht : t' = t
  · subst ht
    exact hactive a' (h.active.symm.trans ha')
  · rw [h.otherActive t' ht] at ha'
    exact ⟨a', ha', rfl, rfl⟩

/-- A collection makes none. -/
theorem Collected.narrows {i : ShardIndex} {taken : List (RtdUpdate V)}
    (h : Collected core core' i taken) : Narrows core core' := by
  intro t a' ha'
  by_cases ht : ∃ u ∈ taken, u.topicId = t
  · obtain ⟨u, hu, rfl⟩ := ht
    obtain ⟨a, versioned, ha, -, -, -, -, hfinal⟩ := h.moved u hu
    rw [hfinal] at ha'
    cases ha'
    exact ⟨a, ha, rfl, rfl⟩
  · rw [h.kept t fun u hu htopic => ht ⟨u, hu, htopic⟩] at ha'
    exact ⟨a', ha', rfl, rfl⟩

/-- Nor does a withdrawal. -/
theorem Withdrawn.narrows {keep : QueuedUpdate → Bool} {gone : Bool}
    (h : Withdrawn core core' t keep gone) : Narrows core core' := by
  refine h.touches.narrows ?_
  intro a' ha'
  cases gone with
  | true => cases ha'
  | false => exact ⟨a', ha', rfl, rfl⟩

/-- Nor the completion of an update. -/
theorem completeUpdate_narrows {slack : Slack} (h : CoreWf slack core) {outcome : RefreshOutcome}
    {update : RtdUpdate V} (heq : core.completeUpdate outcome update = some core') :
    Narrows core core' := by
  obtain ⟨active, htouches, hactive⟩ := completeUpdate_touches h heq
  refine htouches.narrows ?_
  intro a' ha'
  obtain ⟨a, ha, hsame⟩ := hactive a' ha'
  obtain ⟨hid, hgeneration, -, -⟩ := a.returned_same outcome update
  exact ⟨a, ha, (hsame.id.trans hid).symm, (hsame.generation.trans hgeneration).symm⟩

/-- The operations are the same. -/
theorem OpsKept.of_eq (h : s'.operations = s.operations) : OpsKept s s' := by
  intro k o' c ho' hc
  rw [h] at ho'
  exact ⟨o', ho', hc⟩

/-- An entry whose connection is not new. -/
theorem OpChange.kept {before : Option (Operation V N)} (h : OpChange s s' op before after)
    (hafter : ∀ p ∈ after, ∀ c, p.connection? = some c →
      ∃ o, before = some o ∧ o.connection? = some c) : OpsKept s s' := by
  intro k o' c ho' hc
  rw [h.after k] at ho'
  split at ho'
  · next hk =>
    obtain ⟨o, ho, hoc⟩ := hafter o' ho' c hc
    refine ⟨o, ?_, hoc⟩
    rw [hk, h.before, ho]
  · exact ⟨o', ho', hc⟩

variable {o : Operation V N}

/-- An entry that keeps its connection or drops it. -/
theorem OpChange.kept_of_progress (h : OpChange s s' op (some o) after)
    (hafter : ∀ p ∈ after, p.connection? = none ∨ p.connection? = o.connection?) :
    OpsKept s s' := by
  refine h.kept ?_
  intro p hp c hc
  rcases hafter p hp with hnone | hsame
  · rw [hnone] at hc
    cases hc
  · exact ⟨o, rfl, hsame.symm.trans hc⟩

/-- An entry without a connection. -/
theorem OpChange.kept_of_none {before : Option (Operation V N)}
    (h : OpChange s s' op before after) (hafter : ∀ p ∈ after, p.connection? = none) :
    OpsKept s s' := by
  refine h.kept ?_
  intro p hp c hc
  rw [hafter p hp] at hc
  cases hc

/-- The rule for steps without a new connection. -/
theorem Owned.mono (h : Owned s) (hactive : Narrows s.core s'.core) (hops : OpsKept s s')
    (hnext : s.nextGeneration ≤ s'.nextGeneration) : Owned s' where
  activeBelow := by
    intro t a' ha'
    obtain ⟨a, ha, -, hg⟩ := hactive t a' ha'
    rw [← hg]
    exact (h.activeBelow t a ha).trans_le hnext
  opBelow := by
    intro k o' c ho' hc
    obtain ⟨o, ho, hoc⟩ := hops k o' c ho' hc
    exact (h.opBelow k o c ho hoc).trans_le hnext
  opInjective := by
    intro k k' o o' c c' ho ho' hc hc'
    obtain ⟨p, hp, hpc⟩ := hops k o c ho hc
    obtain ⟨p', hp', hpc'⟩ := hops k' o' c' ho' hc'
    exact h.opInjective k k' p p' c c' hp hp' hpc hpc'
  opOwns := by
    intro k o' c t a' ho' hc ha' hg'
    obtain ⟨o, ho, hoc⟩ := hops k o' c ho' hc
    obtain ⟨a, ha, hid, hg⟩ := hactive t a' ha'
    rw [← hid]
    exact h.opOwns k o c t a ho hoc ha (hg.trans hg')

variable {c : Connection}

/-- A new connection has a generation of its own. -/
theorem Owned.connected (h : Owned s) (hcore : s'.core = s.core)
    (hnext : s'.nextGeneration = s.nextGeneration + 1)
    (hop : OpChange s s' op none (some (.connecting c .catalogReserved)))
    (hg : c.generation.raw = s.nextGeneration) : Owned s' := by
  have hcases : ∀ k o' c', s'.operations.lookup k = some o' → o'.connection? = some c' →
      (k = op ∧ c' = c) ∨
        ∃ o, s.operations.lookup k = some o ∧ o.connection? = some c' := by
    intro k o' c' ho' hc'
    rw [hop.after k] at ho'
    split at ho'
    · next hk =>
      cases ho'
      cases hc'
      exact .inl ⟨hk, rfl⟩
    · exact .inr ⟨o', ho', hc'⟩
  -- An older transaction has a generation below the new one.
  have holder : ∀ k o c', s.operations.lookup k = some o → o.connection? = some c' →
      c'.generation ≠ c.generation := by
    intro k o c' ho hc' heq
    have hlt := h.opBelow k o c' ho hc'
    rw [heq, hg] at hlt
    exact lt_irrefl _ hlt
  refine ⟨?_, ?_, ?_, ?_⟩
  · intro t a ha
    rw [hcore] at ha
    rw [hnext]
    exact (h.activeBelow t a ha).trans (Nat.lt_succ_self _)
  · intro k o' c' ho' hc'
    rw [hnext]
    rcases hcases k o' c' ho' hc' with ⟨-, rfl⟩ | ⟨o, ho, hoc⟩
    · rw [hg]
      exact Nat.lt_succ_self _
    · exact (h.opBelow k o c' ho hoc).trans (Nat.lt_succ_self _)
  · intro k k' o o' c₁ c₂ ho ho' hc₁ hc₂ heq
    rcases hcases k o c₁ ho hc₁ with ⟨rfl, rfl⟩ | ⟨p, hp, hpc⟩
    · rcases hcases k' o' c₂ ho' hc₂ with ⟨rfl, -⟩ | ⟨p', hp', hpc'⟩
      · rfl
      · exact absurd heq.symm (holder k' p' c₂ hp' hpc')
    · rcases hcases k' o' c₂ ho' hc₂ with ⟨rfl, rfl⟩ | ⟨p', hp', hpc'⟩
      · exact absurd heq (holder k p c₁ hp hpc)
      · exact h.opInjective k k' p p' c₁ c₂ hp hp' hpc hpc' heq
  · intro k o' c' t a ho' hc' ha hga
    rw [hcore] at ha
    rcases hcases k o' c' ho' hc' with ⟨-, rfl⟩ | ⟨o, ho, hoc⟩
    · have hlt := h.activeBelow t a ha
      rw [hga, hg] at hlt
      exact absurd hlt (lt_irrefl _)
    · exact h.opOwns k o c' t a ho hoc ha hga

/-- A reserved topic belongs to the operation that reserved it. -/
theorem Owned.reserved (h : Owned s)
    (hreserved : Reserved s.core s'.core c.topicId c.id c.generation)
    (hnext : s'.nextGeneration = s.nextGeneration) (ho : s.operations.lookup op = some o)
    (hoc : o.connection? = some c) (hops : OpsKept s s') : Owned s' := by
  have htouches := hreserved.touches
  have hcases : ∀ t a, s'.core.active? t = some a →
      (t = c.topicId ∧ a = .fresh c.id c.generation) ∨ s.core.active? t = some a := by
    intro t a ha
    by_cases ht : t = c.topicId
    · subst ht
      rw [htouches.active] at ha
      cases ha
      exact .inl ⟨rfl, rfl⟩
    · rw [htouches.otherActive t ht] at ha
      exact .inr ha
  refine ⟨?_, ?_, ?_, ?_⟩
  · intro t a ha
    rw [hnext]
    rcases hcases t a ha with ⟨-, rfl⟩ | ha
    · exact h.opBelow op o c ho hoc
    · exact h.activeBelow t a ha
  · intro k o' c' ho' hc'
    obtain ⟨p, hp, hpc⟩ := hops k o' c' ho' hc'
    rw [hnext]
    exact h.opBelow k p c' hp hpc
  · intro k k' o₁ o₂ c₁ c₂ ho₁ ho₂ hc₁ hc₂
    obtain ⟨p, hp, hpc⟩ := hops k o₁ c₁ ho₁ hc₁
    obtain ⟨p', hp', hpc'⟩ := hops k' o₂ c₂ ho₂ hc₂
    exact h.opInjective k k' p p' c₁ c₂ hp hp' hpc hpc'
  · intro k o' c' t a ho' hc' ha hg
    obtain ⟨p, hp, hpc⟩ := hops k o' c' ho' hc'
    rcases hcases t a ha with ⟨rfl, rfl⟩ | ha
    · have hk := h.opInjective k op p o c' c hp ho hpc hoc hg.symm
      subst hk
      rw [ho] at hp
      cases hp
      rw [hoc] at hpc
      cases hpc
      exact ⟨rfl, rfl⟩
    · exact h.opOwns k p c' t a hp hpc ha hg

/-- What a rollback finds under its generation is its own. -/
theorem Owned.rollback_owns (h : Owned s) {slack : Slack} {k : Nat}
    (ho : s.operations.lookup k = some o) (hc : o.connection? = some c)
    (hcore : CoreWf slack s.core) :
    ∀ t a, (s.core.shards (shardIndex c.topicId)).activeByTopic.lookup t = some a →
      a.generation = c.generation → t = c.topicId ∧ a.id = c.id := by
  intro t a ha hg
  exact h.opOwns k o c t a ho hc (hcore.active_of_lookup ha).2 hg

/-- A publication makes no new connection. -/
theorem CommitValueCase.narrows {b : BufferIndex} {generation : ConnectionGeneration} {value : V}
    {outcome : CommitOutcome} (h : CommitValueCase core core' b t generation value outcome) :
    Narrows core core' := by
  cases h with
  | refused error hcore | duplicate hcore => exact Narrows.of_shards (by rw [hcore])
  | overloaded a ha hcore =>
    subst hcore
    refine (Touches.setActive core t a.spent).narrows ?_
    intro a' ha'
    cases ha'
    exact ⟨a, ha, rfl, rfl⟩
  | accepted a ha _ hstored =>
    refine hstored.touches.narrows ?_
    intro a' ha'
    cases ha'
    exact ⟨a, ha, rfl, rfl⟩

end Xlfn.Subscription
