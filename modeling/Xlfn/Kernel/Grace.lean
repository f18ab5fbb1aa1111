import Mathlib.Algebra.Order.BigOperators.Group.List
import Mathlib.Algebra.Order.Group.Nat
import Xlfn.Kernel.Retirement

/-!
# Xlfn — the grace period of retired owners

An owner is handed out exactly once, is never lost, and is handed out only when
no permit that was issued before its registration is still live.

* `ManagerMove` — what a step of a transition can change of the current and the
  pending generation.
* `Inv` — the invariant of the queues. Its heart is `older`: while a generation
  is pending, every live permit of the other generation is younger than every
  owner in its queue.
-/

namespace Xlfn.Kernel

open Lib StripedDrainGate List Option RotatingReadDomain RotatingRetirementDomain Registrar

-- ---- What the read domain does to permits and generations.

/-- The queue whose lock a transition holds as its publication barrier. -/
def Transition.barrierOf {w : Nat} : Transition w → Option GenerationIndex
  | .claimReplacement _ old => some old
  | .replacement _ old _ => some old
  | .claimOld _ old => some old
  | .sealOld _ old _ => some old
  | .idleSeal old _ => some old
  | .setPending _ old => some old
  | .publish _ old => some old
  | .reopen _ old _ => some old
  | .releaseBarrier _ old => some old
  | .abandon _ old => some old
  | _ => none

/-- The callback has returned and pending is about to be cleared. -/
def Transition.clearing {w : Nat} : Transition w → Bool
  | .clear _ _ _ => true
  | _ => false

variable {r : Nat}

namespace RotatingReadDomain

variable {w N : Nat} {s s' : RotatingReadDomain w N}

/-- A permit of generation `g` with this number is live. -/
def Live (s : RotatingReadDomain w N) (g : GenerationIndex) (serial : Nat) : Prop :=
  ∃ x ∈ s.readers, x.permit = some (g, serial)

variable {g : GenerationIndex} {u : RotatingReadDomain w N} {t : Transition w}

theorem Reader.holds_of_permit {x : Reader N} {serial : Nat} (h : x.permit = some (g, serial)) :
    ∃ i, x.holds g i = true := by
  cases x with
  | holding stripe g' n | retained stripe g' n | notifying stripe g' n =>
    cases h
    exact ⟨stripe, by simp [Reader.holds]⟩
  | _ => cases h

theorem Drained.not_live (hinv : s.Inv) (hd : s.Drained g) {serial : Nat} : ¬s.Live g serial := by
  rintro ⟨x, hx, hp⟩
  obtain ⟨i, hi⟩ := Reader.holds_of_permit hp
  obtain ⟨r, hr⟩ := getElem?_of_mem hx
  have hpos := hinv.active_pos hr hi
  have hzero := (hd.1 i).2
  omega

/-- **Live permits.** In every reachable state a stripe counts the permits on it. No permit of the
other generation is live where no rotation is pending and the transition lock is free, and none of
the retired one where the callback of a rotation runs; and once `seal_and_wait` has returned, no
permit is live in any continuation. -/
theorem live_permits (h : Reachable step new s) :
    (∀ g i, active ((s.generations g).counters i) = s.readers.countP (·.holds g i)) ∧
    (s.transition = none → s.pending = none → ∀ serial, ¬s.Live (!s.current) serial) ∧
    (∀ op old again, s.transition = some (.callback op old again) → ∀ serial, ¬s.Live old serial) ∧
    (s.certified = true → ∀ actions s', run step s actions = some s' →
      ∀ g serial, ¬s'.Live g serial) := by
  have hinv : s.Inv := Reachable.invariant (fun _ _ _ hi hs => hi.step hs) new_inv h
  refine ⟨hinv.counted, fun hfree hpending serial => ?_, fun op old again ht serial => ?_,
    fun hcertified actions s' hrun g serial => ?_⟩
  · exact Drained.not_live hinv ((hinv.settled (by rw [hfree]; rfl)).2 hpending)
  · exact Drained.not_live hinv (hinv.stage _ ht).2
  · have hclosed := hinv.run_closed (hinv.certified hcertified).1 hrun
    have hinv' := hinv.run hrun
    exact Drained.not_live hinv' ((hinv'.certified (hclosed.certified hcertified)).2 g)

theorem live_permits_pollRun : ∃ s : RotatingReadDomain 62 2,
    run step new pollRun = some s ∧ ∀ g serial, ¬s.Live g serial := by
  have hrun : ((run step (new : RotatingReadDomain 62 2) pollRun).map (·.certified)) =
      some true := by
    decide +kernel
  obtain ⟨s, hs, hcertified⟩ := map_eq_some_iff.mp hrun
  exact ⟨s, hs, (live_permits ⟨pollRun, hs⟩).2.2.2 hcertified [] s rfl⟩

theorem ReaderMove.live (hmove : ReaderMove s r s') (hinv : s.Inv) {serial : Nat}
    (h : s'.Live g serial) : s.Live g serial ∨ (g = s.current ∧ serial = s.issued) := by
  obtain ⟨x, hx, hp⟩ := h
  -- the reader that moved has a permit it had before, or none
  have hset : ∀ {y : Reader N}, x ∈ s.readers.set r y → (y.permit = none ∨
      ∃ z ∈ s.readers, y.permit = z.permit) → s.Live g serial := by
    intro y hmem hy
    rcases mem_or_eq_of_mem_set hmem with hold | rfl
    · exact ⟨x, hold, hp⟩
    · rcases hy with hnone | ⟨z, hz, hzp⟩
      · rw [hnone] at hp
        cases hp
      · exact ⟨z, hz, hzp ▸ hp⟩
  cases hmove with
  | quiet hx' holds locks permit =>
    exact .inl (hset hx (.inr ⟨_, mem_of_getElem? hx', permit⟩))
  | @acquire stripe g₀ state hx' hopen hsealed hactive =>
    rcases mem_or_eq_of_mem_set hx with hold | rfl
    · exact .inl ⟨x, hold, hp⟩
    · cases hp
      right
      -- the gate that is not current is sealed
      rcases eq_or_eq_not s.current g with hcur | hother
      · exact ⟨hcur, rfl⟩
      · have hs : isSealed ((s.generations g).counters stripe) = true := by
          rw [hother]
          exact hinv.otherSealed stripe
        rw [hopen] at hs
        cases hs
  | release hx' holds holds' locks permit => exact .inl (hset hx (.inl permit))
  | lockIdle hx' hfree => exact .inl (hset hx (.inr ⟨_, mem_of_getElem? hx', rfl⟩))
  | unlockIdle hx' => exact .inl (hset hx (.inl rfl))
  | overflow | underflow => exact .inl ⟨x, hx, hp⟩

theorem ReaderMove.issued_le (hmove : ReaderMove s r s') : s.issued ≤ s'.issued := by
  cases hmove with
  | acquire => exact Nat.le_succ _
  | _ => exact Nat.le_refl _

/-- What a step of a transition can change of what the queues depend on. -/
structure ManagerMove (s : RotatingReadDomain w N) (t : Transition w)
    (s' : RotatingReadDomain w N) : Prop where
  readers   : s'.readers = s.readers
  issued    : s'.issued = s.issued
  certified : s.certified = true → s'.certified = true
  current   : (∀ op old, t ≠ .publish op old) → s'.current = s.current
  pending   : (∀ op old, t ≠ .setPending op old) → (∀ op old again, t ≠ .clear op old again) →
    s'.pending = s.pending
  barrier   : ∀ t', s'.transition = some t' → ∀ g, t'.barrierOf = some g →
    t.barrierOf = some g ∨ ∃ op, t = .barrier op g
  publish   : ∀ t', s'.transition = some t' → t'.publishing = true →
    (∃ op old, t = .setPending op old) ∨ t.publishing = true
  clear     : ∀ op old again, s'.transition = some (.clear op old again) →
    t = .callback op old again ∨ t = .clear op old again
  unlock    : t ≠ .unlock → s'.transition ≠ none

/-- The fields the queues depend on are those of `s`. -/
structure SameFrame (s u : RotatingReadDomain w N) : Prop where
  readers   : u.readers = s.readers
  issued    : u.issued = s.issued
  certified : s.certified = true → u.certified = true
  current   : u.current = s.current
  pending   : u.pending = s.pending

theorem SameFrame.refl (s : RotatingReadDomain w N) : SameFrame s s :=
  ⟨rfl, rfl, fun h => h, rfl, rfl⟩

theorem SameFrame.setGate (h : SameFrame s u) (g : GenerationIndex) (gate : StripedDrainGate w N) :
    SameFrame s (u.setGate g gate) :=
  ⟨h.readers, h.issued, h.certified, h.current, h.pending⟩

theorem SameFrame.setControl (h : SameFrame s u) (g : GenerationIndex) (held : Bool) :
    SameFrame s (u.setControl g held) := h.setGate ..

theorem SameFrame.move (h : SameFrame s u) {t' : Transition w}
    (hbar : ∀ g, t'.barrierOf = some g → t.barrierOf = some g ∨ ∃ op, t = .barrier op g)
    (hpub : t'.publishing = false)
    (hclear : ∀ op old again, t' = .clear op old again → t = .callback op old again) :
    ManagerMove s t (u.goto t') where
  readers := h.readers
  issued := h.issued
  certified := h.certified
  current _ := h.current
  pending _ _ := h.pending
  barrier t'' ht'' := by
    cases ht''
    exact hbar
  publish t'' ht'' hp := by
    cases ht''
    rw [hpub] at hp
    cases hp
  clear op old again ht'' := by
    cases ht''
    exact .inl (hclear op old again rfl)
  unlock _ hnone := by cases hnone

/-- Going on to a stage without a barrier that is no `publish` and no `clear`. -/
theorem SameFrame.move_plain (h : SameFrame s u) {t' : Transition w}
    (hbar : t'.barrierOf = none ∨ t'.barrierOf = t.barrierOf) (hpub : t'.publishing = false)
    (hclear : t'.clearing = false) : ManagerMove s t (u.goto t') := by
  refine h.move ?_ hpub ?_
  · intro g hg
    rcases hbar with hnone | hsame
    · rw [hnone] at hg
      cases hg
    · exact .inl (hsame ▸ hg)
  · rintro op old again rfl
    cases hclear

theorem SameFrame.abort (h : SameFrame s u) (ht : u.transition = some t) (why : Abort) :
    ManagerMove s t (u.abort why) where
  readers := h.readers
  issued := h.issued
  certified := h.certified
  current _ := h.current
  pending _ _ := h.pending
  barrier t' ht' g hg := by
    have heq : some t = some t' := ht.symm.trans ht'
    cases heq
    exact .inl hg
  publish t' ht' hp := by
    have heq : some t = some t' := ht.symm.trans ht'
    cases heq
    exact .inr hp
  clear op old again ht' := by
    have heq : some t = some (.clear op old again) := ht.symm.trans ht'
    cases heq
    exact .inr rfl
  unlock _ hnone := by
    have heq : some t = none := ht.symm.trans hnone
    cases heq

theorem managerMove_claim {op : Operation} {t' : Transition w} {busy : RotatingReadDomain w N}
    (hclaimed : ManagerMove s t ((s.setControl g true).goto t')) (hbusy : ManagerMove s t busy)
    (h : s.claim op g t' busy = some s') : ManagerMove s t s' := by
  unfold claim at h
  split at h
  next =>
    cases h
    exact hclaimed
  next =>
    split at h
    next => cases h
    next =>
      cases h
      exact hbusy

theorem managerMove_of_manage (ht : s.transition = some t) (h : s.manage t = some s') :
    ManagerMove s t s' := by
  have hrefl := SameFrame.refl s
  cases t with
  | locked op =>
    simp only [manage] at h
    split at h
    next =>
      cases h
      have hframe : SameFrame s { s with closed := true } := ⟨rfl, rfl, fun h => h, rfl, rfl⟩
      exact hframe.move_plain (.inl rfl) rfl rfl
    next =>
      split at h
      all_goals
        cases h
        exact hrefl.move_plain (.inl rfl) rfl rfl
  | classify op =>
    simp only [manage] at h
    split at h
    all_goals
      cases h
      exact hrefl.move_plain (.inl rfl) rfl rfl
  | barrier op old =>
    cases h
    refine hrefl.move ?_ rfl ?_
    · intro g hg
      cases hg
      exact .inr ⟨op, rfl⟩
    · intro _ _ _ heq
      cases heq
  | claimReplacement op old =>
    refine managerMove_claim ?_ ?_ h
    · exact (hrefl.setControl _ _).move_plain (.inr rfl) rfl rfl
    · exact hrefl.move_plain (.inr rfl) rfl rfl
  | replacement op old proc =>
    simp only [manage] at h
    generalize proc.step (s.generations (!old)) = out at h
    cases h
    cases out with
    | running gate next =>
      exact (hrefl.setGate _ _).move_plain (.inr rfl) rfl rfl
    | done gate ok =>
      cases ok with
      | true => exact (hrefl.setGate _ _).move_plain (.inr rfl) rfl rfl
      | false => exact (hrefl.setGate _ _).abort ht _
    | failStop => exact hrefl.abort ht _
  | claimOld op old =>
    refine managerMove_claim ?_ ?_ h
    · split
      all_goals
        exact (hrefl.setControl _ _).move_plain (.inr rfl) rfl rfl
    · exact (hrefl.setControl _ _).move_plain (.inr rfl) rfl rfl
  | sealOld op old proc =>
    simp only [manage, map_eq_some_iff] at h
    obtain ⟨out, -, rfl⟩ := h
    cases out with
    | running gate next =>
      exact (hrefl.setGate _ _).move_plain (.inr rfl) rfl rfl
    | done gate ok =>
      exact ((hrefl.setGate _ _).setControl _ _).move_plain (.inr rfl) rfl rfl
    | failStop => exact hrefl.abort ht _
  | idleSeal old proc =>
    simp only [manage] at h
    generalize proc.step (s.generations old) = out at h
    cases h
    cases out with
    | running gate next =>
      exact (hrefl.setGate _ _).move_plain (.inr rfl) rfl rfl
    | done gate ok =>
      cases ok with
      | true =>
        exact ((hrefl.setGate _ _).setControl _ _).move_plain (.inr rfl) rfl rfl
      | false =>
        exact (((hrefl.setGate _ _).setControl _ _).setControl _ _).move_plain (.inr rfl) rfl rfl
    | failStop => exact hrefl.abort ht _
  | setPending op old =>
    cases h
    exact {
      readers := rfl
      issued := rfl
      certified := fun h => h
      current := fun _ => rfl
      pending := fun hne _ => absurd rfl (hne op old)
      barrier := by
        intro t' ht' g hg
        cases ht'
        exact .inl hg
      publish := fun _ _ _ => .inl ⟨op, old, rfl⟩
      clear := fun _ _ _ h => by cases h
      unlock := fun _ h => by cases h }
  | publish op old =>
    cases h
    exact {
      readers := rfl
      issued := rfl
      certified := fun h => h
      current := fun hne => absurd rfl (hne op old)
      pending := fun _ _ => rfl
      barrier := by
        intro t' ht' g hg
        cases ht'
        exact .inl hg
      publish := fun _ _ _ => .inr rfl
      clear := fun _ _ _ h => by cases h
      unlock := fun _ h => by cases h }
  | reopen op old proc =>
    simp only [manage, map_eq_some_iff] at h
    obtain ⟨out, -, rfl⟩ := h
    cases out with
    | running gate next =>
      exact (hrefl.setGate _ _).move_plain (.inr rfl) rfl rfl
    | done gate ok =>
      cases ok with
      | true =>
        exact ((hrefl.setGate _ _).setControl _ _).move_plain (.inr rfl) rfl rfl
      | false => exact (hrefl.setGate _ _).abort ht _
    | failStop => exact hrefl.abort ht _
  | releaseBarrier op old | abandon op old =>
    cases h
    exact hrefl.move_plain (.inl rfl) rfl rfl
  | claimPending op old again =>
    refine managerMove_claim ?_ ?_ h
    · split
      all_goals
        exact (hrefl.setControl _ _).move_plain (.inl rfl) rfl rfl
    · exact hrefl.move_plain (.inl rfl) rfl rfl
  | drainSeal old again proc | closeSeal g proc =>
    simp only [manage, map_eq_some_iff] at h
    obtain ⟨out, -, rfl⟩ := h
    cases out with
    | running gate next | done gate ok =>
      exact (hrefl.setGate _ _).move_plain (.inl rfl) rfl rfl
    | failStop => exact hrefl.abort ht _
  | drainWait old again proc =>
    simp only [manage, map_eq_some_iff] at h
    obtain ⟨out, -, rfl⟩ := h
    cases out with
    | running gate next =>
      exact (hrefl.setGate _ _).move_plain (.inl rfl) rfl rfl
    | done gate ok =>
      exact ((hrefl.setGate _ _).setControl _ _).move_plain (.inl rfl) rfl rfl
    | failStop => exact hrefl.abort ht _
  | tryWait op old proc =>
    simp only [manage] at h
    generalize proc.step (s.generations old) = out at h
    cases h
    cases out with
    | running gate next =>
      exact (hrefl.setGate _ _).move_plain (.inl rfl) rfl rfl
    | done gate ok =>
      cases ok with
      | true | false =>
        exact ((hrefl.setGate _ _).setControl _ _).move_plain (.inl rfl) rfl rfl
    | failStop => exact hrefl.abort ht _
  | callback op old again =>
    cases h
    refine hrefl.move (fun _ h => by cases h) rfl ?_
    intro op' old' again' heq
    cases heq
    rfl
  | clear op old again =>
    cases h
    have hnext : (if again = true then .barrier .rotate s.current else .unlock :
        Transition w).barrierOf = none ∧
        (if again = true then .barrier .rotate s.current else .unlock :
          Transition w).publishing = false := by
      cases again <;> exact ⟨rfl, rfl⟩
    exact {
      readers := rfl
      issued := rfl
      certified := fun h => h
      current := fun _ => rfl
      pending := fun _ hne => absurd rfl (hne op old again)
      barrier := by
        intro t' ht' g hg
        cases ht'
        rw [hnext.1] at hg
        cases hg
      publish := by
        intro t' ht' hp
        cases ht'
        rw [hnext.2] at hp
        cases hp
      clear := by
        intro _ _ _ ht'
        cases again <;> cases ht'
      unlock := by
        intro _ ht'
        cases ht' }
  | closeClaim g =>
    simp only [manage, claim] at h
    split at h
    next =>
      cases h
      exact (hrefl.setControl _ _).move_plain (.inl rfl) rfl rfl
    next =>
      rw [if_pos (.inr trivial)] at h
      cases h
  | closeWait g proc =>
    simp only [manage, map_eq_some_iff] at h
    obtain ⟨out, -, rfl⟩ := h
    cases out with
    | running gate next =>
      exact (hrefl.setGate _ _).move_plain (.inl rfl) rfl rfl
    | done gate ok =>
      have hframe := (hrefl.setGate g gate).setControl g false
      have hcert : SameFrame s { (s.setGate g gate).setControl g false with certified := true } :=
        ⟨rfl, rfl, fun _ => rfl, rfl, rfl⟩
      cases g with
      | false => exact hframe.move_plain (.inl rfl) rfl rfl
      | true => exact hcert.move_plain (.inl rfl) rfl rfl
    | failStop => exact hrefl.abort ht _
  | unlock =>
    cases h
    exact {
      readers := rfl
      issued := rfl
      certified := fun h => h
      current := fun _ => rfl
      pending := fun _ _ => rfl
      barrier := by
        intro t' ht'
        cases ht'
      publish := by
        intro t' ht'
        cases ht'
      clear := by
        intro _ _ _ ht'
        cases ht'
      unlock := fun hne => absurd rfl hne }

end RotatingReadDomain

-- ---- The invariant of the queues.

namespace RotatingRetirementDomain

variable {w N : Nat} {s s' : RotatingRetirementDomain w N}

/-- The owner has left its queue for disposal. -/
def Released (s : RotatingRetirementDomain w N) (o : Owner) : Prop :=
  o ∈ s.inflight ∨ (∃ t ∈ s.takers, o ∈ t.batch) ∨ o ∈ s.handed

/-- In how many places the owner is. -/
def places (s : RotatingRetirementDomain w N) (o : Owner) : Nat :=
  (s.queues false).items.count o + (s.queues true).items.count o + s.inflight.count o +
    (s.takers.map fun t => t.batch.count o).sum + s.handed.count o

/-- **The invariant of the retirement domain.** -/
structure Inv (s : RotatingRetirementDomain w N) : Prop where
  domain : s.domain.Inv
  /-- A registered owner is in one place, and nothing else is anywhere. -/
  conserved : ∀ o, s.places o = s.registered.count o
  numbered : s.registered.map Owner.id = range s.registered.length
  stamps : ∀ o ∈ s.registered, o.stamp ≤ s.domain.issued
  registrarLock : ∀ r x g, s.registrars[r]? = some x → x.holds g = true →
    (s.queues g).lock = some (.registrar r)
  takerLock : ∀ k x g, s.takers[k]? = some x → x.holds g = true →
    (s.queues g).lock = some (.taker k)
  barrierLock : ∀ t g, s.domain.transition = some t → t.barrierOf = some g →
    (s.queues g).lock = some .manager
  /-- What is being appended goes to the queue of the current generation. -/
  selected : ∀ (r : Nat) (g : GenerationIndex), s.registrars[r]? = some (appending g) →
    s.domain.current = g
  /-- The owners of the other generation are older than the permits of this one. -/
  older : ∀ o ∈ (s.queues (!s.domain.current)).items, ∀ serial,
    s.domain.Live s.domain.current serial → o.stamp ≤ serial
  /-- Only the queue of a pending generation holds owners besides the current one. -/
  emptied : (s.domain.pending = none ∨ s.domain.transition.any (·.publishing) = true) →
    (s.queues (!s.domain.current)).items = []
  cleared : ∀ op old again, s.domain.transition = some (.clear op old again) →
    (s.queues old).items = []
  grace : ∀ o, s.Released o → ∀ g serial, s.domain.Live g serial → o.stamp ≤ serial
  idle : s.domain.transition = none → s.inflight = []
  takers : s.takers ≠ [] → s.domain.certified = true
  gone : s.destroyed = true → ∀ o, s.places o = s.handed.count o

theorem new_inv : (new : RotatingRetirementDomain w N).Inv where
  domain := RotatingReadDomain.new_inv
  conserved o := rfl
  numbered := rfl
  stamps o h := by cases h
  registrarLock r x g h := by cases h
  takerLock k x g h := by cases h
  barrierLock t g h := by cases h
  selected r g h := by cases h
  older o h := by cases h
  emptied _ := rfl
  cleared op old again h := by cases h
  grace := by
    rintro o (h | ⟨t, ht, -⟩ | h)
    · cases h
    · cases ht
    · cases h
  idle _ := rfl
  takers h := absurd rfl h
  gone h := by cases h

@[simp] theorem setQueue_self (s : RotatingRetirementDomain w N) (g : GenerationIndex) (q : Queue) :
    (s.setQueue g q).queues g = q := Function.update_self ..

@[simp] theorem setQueue_not (s : RotatingRetirementDomain w N) (g : GenerationIndex) (q : Queue) :
    (s.setQueue g q).queues (!g) = s.queues (!g) := by
  refine Function.update_of_ne ?_ ..
  cases g <;> decide

variable {g old : GenerationIndex} {d : RotatingReadDomain w N} {op : Operation}

/-- A property of both queues survives a write that has it at the written one. -/
theorem forall_setQueue {P : GenerationIndex → Queue → Prop} {q : Queue} (hg : P g q)
    (hother : P (!g) (s.queues (!g))) : ∀ g', P g' ((s.setQueue g q).queues g') := by
  intro g'
  rcases eq_or_eq_not g g' with rfl | rfl
  · rwa [setQueue_self]
  · rwa [setQueue_not]

theorem items_setLock (s : RotatingRetirementDomain w N) (g : GenerationIndex)
    (holder : Option QueueHolder) (g' : GenerationIndex) :
    ((s.setLock g holder).queues g').items = (s.queues g').items := by
  rcases eq_or_eq_not g g' with rfl | rfl
  · rw [setLock, setQueue_self]
  · rw [setLock, setQueue_not]

theorem places_setQueue (s : RotatingRetirementDomain w N) (g : GenerationIndex) (q : Queue)
    (o : Owner) :
    (s.setQueue g q).places o + (s.queues g).items.count o = s.places o + q.items.count o := by
  have hother := s.setQueue_not g q
  have hself := s.setQueue_self g q
  cases g with
  | false =>
    rw [places, places, hself, show (s.setQueue false q).queues true = s.queues true from hother]
    show _ + (s.takers.map fun t => t.batch.count o).sum + s.handed.count o + _ = _
    simp only [setQueue]
    omega
  | true =>
    rw [places, places, hself, show (s.setQueue true q).queues false = s.queues false from hother]
    show _ + (s.takers.map fun t => t.batch.count o).sum + s.handed.count o + _ = _
    simp only [setQueue]
    omega

theorem places_detach (s : RotatingRetirementDomain w N) (g : GenerationIndex) (o : Owner) :
    (s.detach g).places o = s.places o := by
  have hq := s.places_setQueue g ⟨none, []⟩ o
  simp only [places, detach, count_append, count_nil] at hq ⊢
  simp only [setQueue] at hq ⊢
  omega

theorem places_afterUnlock (s : RotatingRetirementDomain w N) (o : Owner) :
    s.afterUnlock.places o = s.places o := by
  simp only [places, afterUnlock, count_append, count_nil]
  omega

theorem places_setHanded (s : RotatingRetirementDomain w N) (l : List Owner) (o : Owner) :
    (s.setHanded l).places o + s.handed.count o = s.places o + l.count o := by
  simp only [places, setHanded]
  omega

theorem places_setTaker {k : Nat} {x : Taker} (y : Taker) (hx : s.takers[k]? = some x)
    (o : Owner) : (s.setTaker k y).places o + x.batch.count o = s.places o + y.batch.count o := by
  have hset := sum_map_set_add (fun t : Taker => t.batch.count o) y hx
  simp only [places, setTaker]
  omega

theorem Inv.mem_registered (hinv : s.Inv) {o : Owner} (h : o ∈ (s.queues g).items) :
    o ∈ s.registered := by
  have hpos : 0 < (s.queues g).items.count o := count_pos_iff.mpr h
  have hcount := hinv.conserved o
  rw [places] at hcount
  refine count_pos_iff.mp ?_
  cases g <;> omega

theorem Inv.stamp_le (hinv : s.Inv) {o : Owner} (h : 0 < s.places o) :
    o.stamp ≤ s.domain.issued := by
  rw [hinv.conserved] at h
  exact hinv.stamps o (count_pos_iff.mp h)

theorem places_pos_of_released {o : Owner} (h : s.Released o) : 0 < s.places o := by
  rw [places]
  rcases h with h | ⟨t, ht, hb⟩ | h
  · have := count_pos_iff.mpr h
    omega
  · have hsum : t.batch.count o ≤ (s.takers.map fun t => t.batch.count o).sum :=
      le_sum_of_mem (mem_map.mpr ⟨t, ht, rfl⟩)
    have := count_pos_iff.mpr hb
    omega
  · have := count_pos_iff.mpr h
    omega

-- ---- Steps of the read domain.

/-- What a step of the read domain to `d` must keep for the queues. -/
structure DomainKeeps (s : RotatingRetirementDomain w N) (d : RotatingReadDomain w N) : Prop where
  inv       : d.Inv
  current   : d.current = s.domain.current
  pending   : d.pending = s.domain.pending
  live      : ∀ g serial, d.Live g serial →
    s.domain.Live g serial ∨ (g = s.domain.current ∧ serial = s.domain.issued)
  issued    : s.domain.issued ≤ d.issued
  certified : s.domain.certified = true → d.certified = true
  barrier   : ∀ t g, d.transition = some t → t.barrierOf = some g →
    (s.queues g).lock = some .manager
  publish   : d.transition.any (·.publishing) = true →
    s.domain.transition.any (·.publishing) = true
  clear     : ∀ op old again, d.transition = some (.clear op old again) →
    (s.queues old).items = []
  idle      : d.transition = none → s.inflight = []

/-- **The rule for steps of the read domain.** -/
theorem Inv.withDomain (hinv : s.Inv) (h : DomainKeeps s d) : (s.withDomain d).Inv :=
  { hinv with
    domain := h.inv
    stamps o ho := Nat.le_trans (hinv.stamps o ho) h.issued
    barrierLock := h.barrier
    selected r g hr := h.current.trans (hinv.selected r g hr)
    older := by
      show ∀ o ∈ (s.queues (!d.current)).items, ∀ serial, d.Live d.current serial → o.stamp ≤ serial
      rw [h.current]
      intro o ho serial hlive
      rcases h.live _ serial hlive with hold | ⟨-, rfl⟩
      · exact hinv.older o ho serial hold
      · exact hinv.stamps o (hinv.mem_registered ho)
    emptied := by
      show d.pending = none ∨ _ → (s.queues (!d.current)).items = []
      rw [h.current, h.pending]
      rintro (hnone | hpub)
      · exact hinv.emptied (.inl hnone)
      · exact hinv.emptied (.inr (h.publish hpub))
    cleared := h.clear
    grace := by
      intro o ho g serial hlive
      rcases h.live g serial hlive with hold | ⟨-, rfl⟩
      · exact hinv.grace o ho g serial hold
      · exact hinv.stamp_le (places_pos_of_released ho)
    idle := h.idle
    takers ht := h.certified (hinv.takers ht) }

/-- Locks of queues are taken and given back without touching the rest. -/
theorem Inv.setLock (hinv : s.Inv) {holder : Option QueueHolder}
    (hreg : ∀ r x, s.registrars[r]? = some x → x.holds g = true → holder = some (.registrar r))
    (htak : ∀ k x, s.takers[k]? = some x → x.holds g = true → holder = some (.taker k))
    (hbar : ∀ t, s.domain.transition = some t → t.barrierOf = some g → holder = some .manager) :
    (s.setLock g holder).Inv :=
  { hinv with
    conserved o := by
      rw [places, items_setLock, items_setLock]
      exact hinv.conserved o
    registrarLock := by
      intro r x g' hx hh
      rcases eq_or_eq_not g g' with rfl | rfl
      · rw [setLock, setQueue_self]
        exact hreg r x hx hh
      · rw [RotatingRetirementDomain.setLock, setQueue_not]
        exact hinv.registrarLock r x _ hx hh
    takerLock := by
      intro k x g' hx hh
      rcases eq_or_eq_not g g' with rfl | rfl
      · rw [setLock, setQueue_self]
        exact htak k x hx hh
      · rw [RotatingRetirementDomain.setLock, setQueue_not]
        exact hinv.takerLock k x _ hx hh
    barrierLock := by
      intro t g' ht hb
      rcases eq_or_eq_not g g' with rfl | rfl
      · rw [setLock, setQueue_self]
        exact hbar t ht hb
      · rw [RotatingRetirementDomain.setLock, setQueue_not]
        exact hinv.barrierLock t _ ht hb
    older := by
      rw [items_setLock]
      exact hinv.older
    emptied := by
      rw [items_setLock]
      exact hinv.emptied
    cleared op old again ht := by
      rw [items_setLock]
      exact hinv.cleared op old again ht
    gone hd o := by
      rw [places, items_setLock, items_setLock]
      exact hinv.gone hd o }

theorem step_manage_eq {d' : RotatingReadDomain w N} {t : Transition w}
    (ht : d.transition = some t) (h : d.step .manage = some d') : d.manage t = some d' := by
  unfold RotatingReadDomain.step at h
  split at h
  next => cases h
  next =>
    rw [ht] at h
    exact h

theorem live_of_readers {d' : RotatingReadDomain w N} (h : d'.readers = d.readers) {serial : Nat}
    (hlive : d'.Live g serial) : d.Live g serial := by
  rw [RotatingReadDomain.Live, h] at hlive
  exact hlive

section

variable (hinv : s.Inv)
include hinv

theorem Inv.domainKeeps_of_manage {t : Transition w}
    (ht : s.domain.transition = some t) (h : s.domain.step .manage = some d)
    (hset : ∀ op old, t ≠ .setPending op old) (hpub : ∀ op old, t ≠ .publish op old)
    (hclear : t.clearing = false) (hcall : ∀ op old again, t ≠ .callback op old again)
    (hunlock : t ≠ .unlock) (hbar : ∀ op g, t = .barrier op g → (s.queues g).lock = some .manager) :
    DomainKeeps s d := by
  have hmove := managerMove_of_manage ht (step_manage_eq ht h)
  exact { hmove with
    inv := hinv.domain.step h
    current := hmove.current hpub
    pending := hmove.pending hset fun op old again he => by
      rw [he] at hclear
      cases hclear
    live := fun g serial hlive => .inl (live_of_readers hmove.readers hlive)
    issued := Nat.le_of_eq hmove.issued.symm
    barrier := by
      intro t' g ht' hb
      rcases hmove.barrier t' ht' g hb with hold | ⟨op, rfl⟩
      · exact hinv.barrierLock t g ht hold
      · exact hbar op g rfl
    publish := by
      intro hp
      obtain ⟨t', ht', hp'⟩ := (any_eq_true _ _).mp hp
      rcases hmove.publish t' ht' hp' with ⟨op, old, rfl⟩ | hold
      · exact absurd rfl (hset op old)
      · rw [ht]
        exact hold
    clear := by
      intro op old again ht'
      rcases hmove.clear op old again ht' with rfl | rfl
      · exact absurd rfl (hcall op old again)
      · cases hclear
    idle := fun hnone => absurd hnone (hmove.unlock hunlock) }

theorem Inv.not_registrar (hlock : ∀ r, (s.queues g).lock ≠ some (.registrar r)) {x : Registrar}
    (hx : s.registrars[r]? = some x) : x.holds g ≠ true :=
  fun hh => hlock r (hinv.registrarLock r x g hx hh)

theorem Inv.not_taker (hlock : ∀ k, (s.queues g).lock ≠ some (.taker k)) {k : Nat}
    {x : Taker} (hx : s.takers[k]? = some x) : x.holds g ≠ true :=
  fun hh => hlock k (hinv.takerLock k x g hx hh)

theorem Inv.lockQueue (hfree : (s.queues g).lock = none) (holder : QueueHolder) :
    (s.setLock g (some holder)).Inv := by
  have hno : ∀ h, (s.queues g).lock ≠ some h := by
    intro h
    rw [hfree]
    simp
  refine hinv.setLock ?_ ?_ ?_
  · intro r x hx hh
    exact absurd hh (hinv.not_registrar (fun r => hno _) hx)
  · intro k x hx hh
    exact absurd hh (hinv.not_taker (fun k => hno _) hx)
  · intro t ht hb
    exact absurd (hinv.barrierLock t g ht hb) (hno _)

theorem Inv.manage_barrier (ht : s.domain.transition = some (.barrier op old))
    (hfree : (s.queues old).lock = none) (h : s.domain.step .manage = some d) :
    ((s.withDomain d).setLock old (some .manager)).Inv := by
  have hlocked : (s.setLock old (some .manager)).Inv := hinv.lockQueue hfree .manager
  refine hlocked.withDomain
    (hlocked.domainKeeps_of_manage ht h ?_ ?_ rfl ?_ ?_ ?_)
  · intro _ _ h
    cases h
  · intro _ _ h
    cases h
  · intro _ _ _ h
    cases h
  · intro h
    cases h
  · intro op' g heq
    cases heq
    show ((s.setQueue old _).queues old).lock = _
    rw [setQueue_self]

theorem Inv.manage_release {t : Transition w} (ht : s.domain.transition = some t)
    (hkind : (∃ op, t = .releaseBarrier op old) ∨ ∃ op, t = .abandon op old)
    (h : s.domain.step .manage = some d) : ((s.withDomain d).setLock old none).Inv := by
  have hd : DomainKeeps s d ∧ ∀ t', d.transition = some t' → t'.barrierOf = none := by
    rcases hkind with ⟨op, rfl⟩ | ⟨op, rfl⟩
    all_goals
      constructor
      · refine hinv.domainKeeps_of_manage ht h ?_ ?_ rfl ?_ ?_ ?_ <;> intros <;> simp_all
      · have hgo := step_manage_eq ht h
        cases hgo
        intro t' ht'
        cases ht'
        rfl
  have hlock : (s.queues old).lock = some .manager := by
    refine hinv.barrierLock t old ht ?_
    rcases hkind with ⟨op, rfl⟩ | ⟨op, rfl⟩ <;> rfl
  have hno : ∀ h, h ≠ QueueHolder.manager → (s.queues old).lock ≠ some h := by
    intro h hne heq
    rw [hlock] at heq
    cases heq
    exact hne rfl
  refine (hinv.withDomain hd.1).setLock ?_ ?_ ?_
  · intro r x hx hh
    exact absurd hh (hinv.not_registrar (fun r => hno _ (by simp)) hx)
  · intro k x hx hh
    exact absurd hh (hinv.not_taker (fun k => hno _ (by simp)) hx)
  · intro t' ht' hb
    rw [hd.2 t' ht'] at hb
    cases hb

/-- **The hand-out.** The drained generation has no permit, and those of the other
one are younger than every owner of its queue. -/
theorem Inv.manage_callback {again : Bool}
    (ht : s.domain.transition = some (.callback op old again))
    (hlock : (s.queues old).lock = some .manager) (h : s.domain.step .manage = some d) :
    ((s.detach old).withDomain d).Inv := by
  obtain ⟨⟨-, hpend, hcur⟩, hdrained⟩ := hinv.domain.stage _ ht
  have hgo := step_manage_eq ht h
  cases hgo
  have hno : ∀ h, h ≠ QueueHolder.manager → (s.queues old).lock ≠ some h := by
    intro h hne heq
    rw [hlock] at heq
    cases heq
    exact hne rfl
  exact { hinv with
    domain := hinv.domain.step h
    conserved := fun o => (s.places_detach old o).trans (hinv.conserved o)
    registrarLock := by
      intro r x g hx hh
      rcases eq_or_eq_not old g with rfl | rfl
      · exact absurd hh (hinv.not_registrar (fun r => hno _ (by simp)) hx)
      · have hkeep := hinv.registrarLock r x _ hx hh
        exact (congrArg Queue.lock (setQueue_not ..)).trans hkeep
    takerLock := by
      intro k x g hx hh
      rcases eq_or_eq_not old g with rfl | rfl
      · exact absurd hh (hinv.not_taker (fun k => hno _ (by simp)) hx)
      · have hkeep := hinv.takerLock k x _ hx hh
        exact (congrArg Queue.lock (setQueue_not ..)).trans hkeep
    barrierLock := by
      intro t g ht' hb
      cases ht'
      cases hb
    older := by
      show ∀ o ∈ ((s.setQueue old ⟨none, []⟩).queues (!s.domain.current)).items, _
      rw [hcur, Bool.not_not, setQueue_self]
      intro o ho
      cases ho
    emptied := by
      intro _
      show ((s.setQueue old ⟨none, []⟩).queues (!s.domain.current)).items = []
      rw [hcur, Bool.not_not, setQueue_self]
    cleared := by
      intro op' old' again' ht'
      cases ht'
      exact congrArg Queue.items (setQueue_self ..)
    grace := by
      rintro o (ho | ho | ho) g serial hlive
      · rcases mem_append.mp ho with hold | htaken
        · exact hinv.grace o (.inl hold) g serial hlive
        · -- the permit is of the current generation: the old one is drained
          rcases eq_or_eq_not old g with rfl | rfl
          · exact absurd hlive (hdrained.not_live hinv.domain)
          · rw [← hcur] at hlive
            refine hinv.older o ?_ serial hlive
            rw [hcur, Bool.not_not]
            exact htaken
      · exact hinv.grace o (.inr (.inl ho)) g serial hlive
      · exact hinv.grace o (.inr (.inr ho)) g serial hlive
    idle := nofun
    gone := fun hd o => (s.places_detach old o).trans (hinv.gone hd o) }

theorem Inv.manage_unlock (ht : s.domain.transition = some .unlock)
    (h : s.domain.step .manage = some d) : (s.afterUnlock.withDomain d).Inv := by
  have hgo := step_manage_eq ht h
  cases hgo
  exact { hinv with
    domain := hinv.domain.step h
    conserved := fun o => (s.places_afterUnlock o).trans (hinv.conserved o)
    barrierLock := fun t g ht' => by cases ht'
    emptied := by
      rintro (hnone | hpub)
      · exact hinv.emptied (.inl hnone)
      · cases hpub
    cleared := fun op old again ht' => by cases ht'
    grace := by
      rintro o (ho | ho | ho) g serial hlive
      · cases ho
      · exact hinv.grace o (.inr (.inl ho)) g serial hlive
      · rcases mem_append.mp ho with hold | hin
        · exact hinv.grace o (.inr (.inr hold)) g serial hlive
        · exact hinv.grace o (.inl hin) g serial hlive
    idle := fun _ => rfl
    gone := by
      intro hd o
      have hgone := hinv.gone hd o
      refine (s.places_afterUnlock o).trans (hgone.trans ?_)
      show s.handed.count o = (s.handed ++ s.inflight).count o
      rw [places] at hgone
      rw [count_append]
      omega }

theorem Inv.manage_setPending
    (ht : s.domain.transition = some (.setPending op old)) (h : s.domain.step .manage = some d) :
    (s.withDomain d).Inv := by
  obtain ⟨⟨-, hnone, -⟩, -⟩ := hinv.domain.stage _ ht
  have hgo := step_manage_eq ht h
  cases hgo
  exact { hinv with
    domain := hinv.domain.step h
    barrierLock := by
      intro t g ht' hb
      cases ht'
      exact hinv.barrierLock _ g ht hb
    emptied := fun _ => hinv.emptied (.inl hnone)
    cleared := fun op' old' again' ht' => by cases ht'
    idle := fun hn => by cases hn }

/-- **The publication.** The manager holds the old queue, so no append is under
way, and the replacement is drained, so no permit of it is live. -/
theorem Inv.manage_publish (ht : s.domain.transition = some (.publish op old))
    (h : s.domain.step .manage = some d) : (s.withDomain d).Inv := by
  obtain ⟨-, hpend, hcur, -, hdrained⟩ := hinv.domain.stage _ ht
  have hlock := hinv.barrierLock _ old ht rfl
  have hgo := step_manage_eq ht h
  cases hgo
  exact { hinv with
    domain := hinv.domain.step h
    barrierLock := by
      intro t g ht' hb
      cases ht'
      exact hinv.barrierLock _ g ht hb
    selected := by
      intro r g hr
      have hg := hinv.selected r g hr
      rw [hcur] at hg
      subst hg
      have hheld := hinv.registrarLock r _ old hr (by simp [holds])
      rw [hlock] at hheld
      cases hheld
    older := by
      intro o _ serial hlive
      exact absurd hlive (hdrained.not_live hinv.domain)
    emptied := by
      rintro (hnone | hpub)
      · have hsame : s.domain.pending = none := hnone
        rw [hpend] at hsame
        cases hsame
      · cases hpub
    cleared := fun op' old' again' ht' => by cases ht'
    idle := fun hn => by cases hn }

theorem Inv.manage_clear {again : Bool}
    (ht : s.domain.transition = some (.clear op old again)) (h : s.domain.step .manage = some d) :
    (s.withDomain d).Inv := by
  obtain ⟨⟨-, -, hcur⟩, -⟩ := hinv.domain.stage _ ht
  have hempty : (s.queues (!s.domain.current)).items = [] := by
    rw [hcur, Bool.not_not]
    exact hinv.cleared op old again ht
  have hgo := step_manage_eq ht h
  cases hgo
  exact { hinv with
    domain := hinv.domain.step h
    barrierLock := by
      intro t g ht' hb
      cases ht'
      cases again <;> cases hb
    emptied := fun _ => hempty
    cleared := by
      intro op' old' again' ht'
      cases again <;> cases ht'
    idle := fun hn => by cases hn }

/-- Giving up at the barrier: nothing was locked and nothing is left behind. -/
theorem Inv.manage_busy (ht : s.domain.transition = some (.barrier op old))
    (h : s.domain.step .barrierBusy = some d) : (s.withDomain d).Inv := by
  have hd := hinv.domain.step h
  unfold RotatingReadDomain.step at h
  split at h
  next => cases h
  next =>
    rw [ht] at h
    simp only [] at h
    split at h
    next => cases h
    next =>
      cases h
      exact hinv.withDomain {
        inv := hd
        current := rfl
        pending := rfl
        live := fun g serial hlive => .inl hlive
        issued := Nat.le_refl _
        certified := fun h => h
        barrier := by
          intro t g ht' hb
          cases ht'
          cases hb
        publish := nofun
        clear := fun op' old' again' ht' => by cases ht'
        idle := fun hn => by cases hn }

/-- **Every step of a transition keeps the invariant.** -/
theorem Inv.manage (h : s.manage = some s') : s'.Inv := by
  unfold RotatingRetirementDomain.manage at h
  split at h
  next op old ht =>
    split at h
    next hfree =>
      obtain ⟨d, hd, rfl⟩ := map_eq_some_iff.mp h
      exact hinv.manage_barrier ht hfree hd
    next =>
      obtain ⟨d, hd, rfl⟩ := map_eq_some_iff.mp h
      exact hinv.manage_busy ht hd
  next op old ht =>
    obtain ⟨d, hd, rfl⟩ := map_eq_some_iff.mp h
    exact hinv.manage_release ht (.inl ⟨op, rfl⟩) hd
  next op old ht =>
    obtain ⟨d, hd, rfl⟩ := map_eq_some_iff.mp h
    exact hinv.manage_release ht (.inr ⟨op, rfl⟩) hd
  next op old again ht =>
    split at h
    next hfree =>
      cases h
      exact hinv.lockQueue hfree .manager
    next =>
      split at h
      next hlock =>
        obtain ⟨d, hd, rfl⟩ := map_eq_some_iff.mp h
        exact hinv.manage_callback ht hlock hd
      next => cases h
  next ht =>
    obtain ⟨d, hd, rfl⟩ := map_eq_some_iff.mp h
    exact hinv.manage_unlock ht hd
  next hbar hrel haband hcall hunlock =>
    obtain ⟨d, hd, rfl⟩ := map_eq_some_iff.mp h
    cases ht : s.domain.transition with
    | none =>
      unfold RotatingReadDomain.step at hd
      split at hd
      next => cases hd
      next =>
        rw [ht] at hd
        cases hd
    | some t =>
      -- the three stages that move the generations, and the others
      by_cases hset : ∃ op old, t = .setPending op old
      · obtain ⟨op, old, rfl⟩ := hset
        exact hinv.manage_setPending ht hd
      by_cases hpub : ∃ op old, t = .publish op old
      · obtain ⟨op, old, rfl⟩ := hpub
        exact hinv.manage_publish ht hd
      by_cases hclear : t.clearing = true
      · cases t with
        | clear op old again => exact hinv.manage_clear ht hd
        | _ => cases hclear
      refine hinv.withDomain (hinv.domainKeeps_of_manage ht hd ?_ ?_ ?_ ?_ ?_ ?_)
      · exact fun op old he => hset ⟨op, old, he⟩
      · exact fun op old he => hpub ⟨op, old, he⟩
      · exact Bool.eq_false_iff.mpr hclear
      · rintro op old again rfl
        exact hcall op old again ht
      · rintro rfl
        exact hunlock ht
      · rintro op g rfl
        exact absurd ht (hbar op g)

theorem Inv.domain_step {action : RotatingReadDomain.Action N}
    (hkind : (∃ i, action = .enter i) ∨ (∃ r, action = .reader r) ∨ ∃ op, action = .lock op)
    (h : s.domain.step action = some d) : (s.withDomain d).Inv := by
  have hd := hinv.domain.step h
  -- the transition does not move, or it starts
  have hkeeps : ∀ (htrans : d.transition = s.domain.transition ∨
      (s.domain.transition = none ∧ ∃ op, d.transition = some (.locked op)))
      (_ : d.current = s.domain.current) (_ : d.pending = s.domain.pending)
      (_ : ∀ g serial, d.Live g serial →
        s.domain.Live g serial ∨ (g = s.domain.current ∧ serial = s.domain.issued))
      (_ : s.domain.issued ≤ d.issued) (_ : s.domain.certified = true → d.certified = true),
      (s.withDomain d).Inv := by
    intro htrans hcur hpend hlive hissued hcert
    refine hinv.withDomain ⟨hd, hcur, hpend, hlive, hissued, hcert, ?_, ?_, ?_, ?_⟩
    all_goals rcases htrans with hsame | ⟨hnone, op, hstart⟩
    · rw [hsame]
      exact hinv.barrierLock
    · intro t g ht hb
      rw [hstart] at ht
      cases ht
      cases hb
    · rw [hsame]
      exact fun hp => hp
    · rw [hstart]
      exact nofun
    · rw [hsame]
      exact hinv.cleared
    · rw [hstart]
      exact nofun
    · rw [hsame]
      exact hinv.idle
    · rw [hstart]
      exact nofun
  unfold RotatingReadDomain.step at h
  split at h
  next => cases h
  next =>
    rcases hkind with ⟨i, rfl⟩ | ⟨r, rfl⟩ | ⟨op, rfl⟩
    · cases h
      refine hkeeps (.inl rfl) rfl rfl ?_ (Nat.le_refl _) fun h => h
      rintro g serial ⟨x, hx, hp⟩
      rcases mem_append.mp hx with hold | hnew
      · exact .inl ⟨x, hold, hp⟩
      · rw [mem_singleton] at hnew
        subst hnew
        cases hp
    · have hmove := readerMove_of_readerStep h
      obtain ⟨hcur, hpend, htrans, -, hcert⟩ := hmove.frame
      exact hkeeps (.inl htrans) hcur hpend (fun g serial hl => hmove.live hinv.domain hl)
        hmove.issued_le fun hc => hcert.trans hc
    · simp only [] at h
      split at h
      next hnone =>
        cases h
        exact hkeeps (.inr ⟨isNone_iff_eq_none.mp hnone, op, rfl⟩) rfl rfl
          (fun g serial hl => .inl hl) (Nat.le_refl _) fun h => h
      next => cases h

-- ---- Registrars.

/-- A registrar moves and holds no more queue locks than the state says. -/
theorem Inv.setRegistrar {x y : Registrar} (hx : s.registrars[r]? = some x)
    (hlock : ∀ g, y.holds g = true → (s.queues g).lock = some (.registrar r))
    (hsel : ∀ g, y = .appending g → s.domain.current = g) : (s.setRegistrar r y).Inv := by
  have hget : ∀ r', (s.registrars.set r y)[r']? = if r' = r then some y else s.registrars[r']? := by
    intro r'
    rw [List.getElem?_set]
    obtain ⟨hr, -⟩ := List.getElem_of_getElem? hx
    by_cases h : r' = r
    · subst h
      simp [hr]
    · simp [h, Ne.symm h]
  exact { hinv with
    registrarLock := by
      intro r' z g hz hh
      have hz' : (s.registrars.set r y)[r']? = some z := hz
      rw [hget] at hz'
      split at hz'
      next heq =>
        subst heq
        cases hz'
        exact hlock g hh
      next => exact hinv.registrarLock r' z g hz' hh
    selected := by
      intro r' g hz
      have hz' : (s.registrars.set r y)[r']? = some (.appending g) := hz
      rw [hget] at hz'
      split at hz'
      next =>
        cases hz'
        exact hsel g rfl
      next => exact hinv.selected r' g hz' }

theorem Inv.unlock_registrar {x y : Registrar} (hx : s.registrars[r]? = some x)
    (hholds : x.holds g = true) (hy : ∀ g', y.holds g' = false) :
    ((s.setLock g none).setRegistrar r y).Inv := by
  have hmine := hinv.registrarLock r x g hx hholds
  -- first the record, then the lock nobody claims any more
  have hset : (s.setRegistrar r y).Inv := by
    refine hinv.setRegistrar hx ?_ ?_
    · intro g' hh
      rw [hy] at hh
      cases hh
    · rintro g' rfl
      have hno := hy g'
      simp [holds] at hno
  refine hset.setLock ?_ ?_ ?_
  · intro r' z hz hh
    have hheld := hset.registrarLock r' z g hz hh
    have hsame : (s.queues g).lock = some (.registrar r') := hheld
    rw [hmine] at hsame
    cases hsame
    have hz' : (s.registrars.set r y)[r]? = some z := hz
    obtain ⟨hr, -⟩ := List.getElem_of_getElem? hx
    rw [List.getElem?_set_self hr] at hz'
    cases hz'
    rw [hy] at hh
    cases hh
  · intro k z hz hh
    have hheld := hinv.takerLock k z g hz hh
    rw [hmine] at hheld
    cases hheld
  · intro t ht hb
    have hheld := hinv.barrierLock t g ht hb
    rw [hmine] at hheld
    cases hheld

theorem Inv.registrarStep (h : s.registrarStep r = some s') : s'.Inv := by
  unfold RotatingRetirementDomain.registrarStep at h
  split at h
  next hx =>
    cases h
    refine hinv.setRegistrar hx ?_ ?_
    · intro g hh
      cases hh
    · intro g he
      cases he
  next g hx =>
    split at h
    next hfree =>
      cases h
      have hlocked : (s.setLock g (some (.registrar r))).Inv := hinv.lockQueue hfree _
      refine hlocked.setRegistrar hx ?_ ?_
      · intro g' hh
        have hg : g = g' := by simpa [holds] using hh
        subst hg
        exact congrArg Queue.lock (setQueue_self ..)
      · intro g' he
        cases he
    next => cases h
  next g hx =>
    split at h
    next hcur =>
      cases h
      refine hinv.setRegistrar hx ?_ ?_
      · intro g' hh
        exact hinv.registrarLock r _ g' hx hh
      · intro g' he
        cases he
        exact hcur
    next =>
      cases h
      exact hinv.unlock_registrar hx (by simp [holds]) fun _ => rfl
  next g hx =>
    cases h
    exact hinv.unlock_registrar hx (by simp [holds]) fun _ => rfl
  next => cases h

/-- **A registration.** The new owner is stamped with every permit issued so far,
and joins the queue of the current generation. -/
theorem Inv.append (halive : s.destroyed = false) (h : s.append r = some s') : s'.Inv := by
  unfold RotatingRetirementDomain.append at h
  split at h
  next g hx =>
    cases h
    have hcur := hinv.selected r g hx
    have hother : ∀ q, (s.setQueue g q).queues (!s.domain.current) =
        s.queues (!s.domain.current) := by
      intro q
      rw [hcur]
      exact s.setQueue_not g q
    have hlocks : ∀ g', ((s.setQueue g { s.queues g with
        items := (s.queues g).items ++ [⟨s.registered.length, s.domain.issued⟩] }).queues g').lock =
          (s.queues g').lock := by
      intro g'
      rcases eq_or_eq_not g g' with rfl | rfl
      · rw [setQueue_self]
      · rw [setQueue_not]
    exact { hinv with
      conserved := by
        intro o
        have hq := s.places_setQueue g { s.queues g with
          items := (s.queues g).items ++ [⟨s.registered.length, s.domain.issued⟩] } o
        have hs := hinv.conserved o
        rw [count_append] at hq
        refine Eq.trans (b := (s.setQueue g { s.queues g with
          items := (s.queues g).items ++ [⟨s.registered.length, s.domain.issued⟩] }).places o)
          rfl ?_
        show _ = (s.registered ++ [_]).count o
        rw [count_append]
        omega
      numbered := by
        show (s.registered ++ [_]).map Owner.id = range (s.registered ++ [_]).length
        rw [map_append, length_append, hinv.numbered]
        exact (range_succ).symm
      stamps := by
        intro o ho
        rcases mem_append.mp ho with hold | hnew
        · exact hinv.stamps o hold
        · rw [mem_singleton] at hnew
          subst hnew
          exact Nat.le_refl _
      registrarLock := by
        intro r' z g' hz hh
        rw [← hinv.registrarLock r' z g' hz hh]
        exact hlocks g'
      takerLock := by
        intro k z g' hz hh
        rw [← hinv.takerLock k z g' hz hh]
        exact hlocks g'
      barrierLock := by
        intro t g' ht hb
        rw [← hinv.barrierLock t g' ht hb]
        exact hlocks g'
      older := by
        show ∀ o ∈ ((s.setQueue g _).queues (!s.domain.current)).items, _
        rw [hother]
        exact hinv.older
      emptied := by
        show _ → ((s.setQueue g _).queues (!s.domain.current)).items = []
        rw [hother]
        exact hinv.emptied
      cleared := by
        -- the generation being cleared is not the current one
        intro op old again ht
        obtain ⟨⟨-, -, hrot⟩, -⟩ := hinv.domain.stage _ ht
        have hempty := hinv.cleared op old again ht
        have hold : old = !s.domain.current := by rw [hrot, Bool.not_not]
        rw [hold] at hempty ⊢
        show ((s.setQueue g _).queues (!s.domain.current)).items = []
        rw [hother]
        exact hempty
      gone := by
        intro hd
        have hdead : s.destroyed = true := hd
        rw [halive] at hdead
        cases hdead }
  next => cases h

-- ---- The takers of a closed domain.

theorem Inv.not_live_of_certified (hcert : s.domain.certified = true)
    (g : GenerationIndex) (serial : Nat) : ¬s.domain.Live g serial :=
  ((hinv.domain.certified hcert).2 g).not_live hinv.domain

/-- **The rule for takers**: no permit is live, so it is enough that every owner
stays in one place and that no queue lock changes hands. -/
theorem Inv.of_taker (hcert : s.domain.certified = true)
    (hplaces : ∀ o, s'.places o = s.places o) (hdomain : s'.domain = s.domain)
    (hregistered : s'.registered = s.registered) (hregistrars : s'.registrars = s.registrars)
    (hinflight : s'.inflight = s.inflight) (halive : s'.destroyed = false)
    (hlock : ∀ g h, (∀ k, h ≠ .taker k) → (s.queues g).lock = some h → (s'.queues g).lock = some h)
    (htakers : ∀ k x g, s'.takers[k]? = some x → x.holds g = true →
      (s'.queues g).lock = some (.taker k))
    (hitems : ∀ g, (s.queues g).items = [] → (s'.queues g).items = []) : s'.Inv := by
  have hdead : ∀ g serial, ¬s'.domain.Live g serial := by
    rw [hdomain]
    exact hinv.not_live_of_certified hcert
  exact {
    domain := by
      rw [hdomain]
      exact hinv.domain
    conserved := by
      intro o
      rw [hplaces, hregistered]
      exact hinv.conserved o
    numbered := by
      rw [hregistered]
      exact hinv.numbered
    stamps := by
      rw [hregistered, hdomain]
      exact hinv.stamps
    registrarLock := by
      rw [hregistrars]
      intro r x g hx hh
      exact hlock g _ (fun k => by simp) (hinv.registrarLock r x g hx hh)
    takerLock := htakers
    barrierLock := by
      rw [hdomain]
      intro t g ht hb
      exact hlock g _ (fun k => by simp) (hinv.barrierLock t g ht hb)
    selected := by
      rw [hregistrars, hdomain]
      exact hinv.selected
    older := fun o _ serial hlive => absurd hlive (hdead _ serial)
    emptied := by
      rw [hdomain]
      exact fun h => hitems _ (hinv.emptied h)
    cleared := by
      rw [hdomain]
      exact fun op old again ht => hitems _ (hinv.cleared op old again ht)
    grace := fun o _ g serial hlive => absurd hlive (hdead g serial)
    idle := by
      rw [hdomain, hinflight]
      exact hinv.idle
    takers := by
      rw [hdomain]
      exact fun _ => hcert
    gone := by
      intro h
      rw [halive] at h
      cases h }

end

private theorem getElem?_setTaker {k : Nat} {x : Taker} (y : Taker) (hx : s.takers[k]? = some x)
    (k' : Nat) : (s.takers.set k y)[k']? = if k' = k then some y else s.takers[k']? := by
  rw [List.getElem?_set]
  obtain ⟨hk, -⟩ := List.getElem_of_getElem? hx
  by_cases h : k' = k
  · subst h
    simp [hk]
  · simp [h, Ne.symm h]

theorem Inv.taker_write (hinv : s.Inv) (hcert : s.domain.certified = true)
    (halive : s.destroyed = false) {k : Nat} {x y : Taker} {q : Queue} {l : List Owner}
    (hx : s.takers[k]? = some x) (hmine : ∀ h, (s.queues g).lock = some h → h = .taker k)
    (hq : q.items = [] ∨ q.items = (s.queues g).items)
    (hself : y.holds g = true → q.lock = some (.taker k))
    (hother : y.holds (!g) = true → x.holds (!g) = true)
    (hcount : ∀ o, q.items.count o + y.batch.count o + l.count o =
      (s.queues g).items.count o + x.batch.count o + s.handed.count o) :
    (((s.setQueue g q).setTaker k y).setHanded l).Inv := by
  have hplaces : ∀ o, (((s.setQueue g q).setTaker k y).setHanded l).places o = s.places o := by
    intro o
    have hq := s.places_setQueue g q o
    have ht := places_setTaker (s := s.setQueue g q) y hx o
    have hh := ((s.setQueue g q).setTaker k y).places_setHanded l o
    have hsame : ((s.setQueue g q).setTaker k y).handed = s.handed := rfl
    rw [hsame] at hh
    have hc := hcount o
    omega
  refine hinv.of_taker hcert hplaces rfl rfl rfl rfl halive ?_ ?_ ?_
  · refine forall_setQueue (P := fun g' q' => ∀ h, (∀ k, h ≠ .taker k) →
      (s.queues g').lock = some h → q'.lock = some h) ?_ fun h _ hh => hh
    intro h hne hh
    exact absurd (hmine h hh) (hne k)
  · intro k' z g' hz hh
    have hz' : (s.takers.set k y)[k']? = some z := hz
    rw [getElem?_setTaker y hx] at hz'
    rcases eq_or_eq_not g g' with rfl | rfl
    · refine (congrArg Queue.lock (s.setQueue_self _ q)).trans ?_
      split at hz'
      next heq =>
        subst heq
        cases hz'
        exact hself hh
      next hne =>
        have hheld := hinv.takerLock k' z _ hz' hh
        have hsame := hmine _ hheld
        cases hsame
        exact absurd rfl hne
    · refine (congrArg Queue.lock (s.setQueue_not _ q)).trans ?_
      split at hz'
      next heq =>
        subst heq
        cases hz'
        exact hinv.takerLock k' x _ hx (hother hh)
      next => exact hinv.takerLock k' z _ hz' hh
  · refine forall_setQueue (P := fun g' q' => (s.queues g').items = [] → q'.items = []) ?_
      fun h => h
    intro hnil
    rcases hq with hempty | hsame
    · exact hempty
    · rw [hsame, hnil]

theorem Inv.takerStep (hinv : s.Inv) (halive : s.destroyed = false) {k : Nat}
    (h : s.takerStep k = some s') : s'.Inv := by
  unfold RotatingRetirementDomain.takerStep at h
  have hcert : ∀ {x : Taker}, s.takers[k]? = some x → s.domain.certified = true := by
    intro x hx
    refine hinv.takers ?_
    rintro hnil
    rw [hnil] at hx
    cases hx
  have hfree_mine : ∀ {g : GenerationIndex}, (s.queues g).lock = none →
      ∀ h, (s.queues g).lock = some h → h = .taker k := by
    intro g hfree h hh
    rw [hfree] at hh
    cases hh
  have hheld_mine : ∀ {g : GenerationIndex}, (s.queues g).lock = some (.taker k) →
      ∀ h, (s.queues g).lock = some h → h = .taker k := by
    intro g hheld h hh
    rw [hheld] at hh
    cases hh
    rfl
  split at h
  next hx =>
    split at h
    next hfree =>
      cases h
      exact hinv.taker_write (l := s.handed) (y := .lockSecond) (hcert hx) halive hx
        (hfree_mine hfree) (.inr rfl) (fun _ => rfl) nofun fun o => rfl
    next => cases h
  next hx =>
    split at h
    next hfree =>
      cases h
      exact hinv.taker_write (l := s.handed) (y := .takeFirst) (hcert hx) halive hx
        (hfree_mine hfree) (.inr rfl) (fun _ => rfl) (fun _ => rfl) fun o => rfl
    next => cases h
  next hx =>
    cases h
    refine hinv.taker_write (l := s.handed) (y := .takeSecond (s.queues false).items) (hcert hx)
      halive hx (hheld_mine (hinv.takerLock k _ false hx rfl)) (.inl rfl) nofun
      (fun _ => rfl) ?_
    intro o
    show ([] : List Owner).count o + (s.queues false).items.count o + _ =
      (s.queues false).items.count o + ([] : List Owner).count o + _
    rw [count_nil]
    omega
  next first hx =>
    cases h
    refine hinv.taker_write (y := .finished) (hcert hx) halive hx
      (hheld_mine (hinv.takerLock k _ true hx rfl)) (.inl rfl) nofun
      nofun ?_
    intro o
    show ([] : List Owner).count o + ([] : List Owner).count o + _ =
      (s.queues true).items.count o + first.count o + _
    rw [count_nil, count_append, count_append]
    omega
  next => cases h

/-- The owner of the domain is dropped: the queues are destroyed with their contents. -/
theorem Inv.destroy (hinv : s.Inv) (hcert : s.domain.certified = true)
    (htrans : s.domain.transition = none) (hreg : ∀ x ∈ s.registrars, x = .finished)
    (htak : ∀ x ∈ s.takers, x = .finished) :
    ({ s with
      queues    := fun _ => ⟨none, []⟩
      handed    := s.handed ++ ((s.queues false).items ++ (s.queues true).items)
      destroyed := true } : RotatingRetirementDomain w N).Inv := by
  have hbatch : ∀ o, (s.takers.map fun t => t.batch.count o).sum = 0 := by
    intro o
    refine sum_eq_zero ?_
    intro n hn
    obtain ⟨t, ht, rfl⟩ := mem_map.mp hn
    rw [htak t ht]
    rfl
  have hinflight := hinv.idle htrans
  have hplaces : ∀ o, s.places o =
      (s.handed ++ ((s.queues false).items ++ (s.queues true).items)).count o := by
    intro o
    rw [places, hbatch, hinflight, count_append, count_append, count_nil]
    omega
  have hnow : ∀ o, ({ s with
      queues    := fun _ => ⟨none, []⟩
      handed    := s.handed ++ ((s.queues false).items ++ (s.queues true).items)
      destroyed := true } : RotatingRetirementDomain w N).places o =
      (s.handed ++ ((s.queues false).items ++ (s.queues true).items)).count o := by
    intro o
    simp only [places, hbatch, hinflight, count_nil]
    omega
  exact { hinv with
    conserved := fun o => (hnow o).trans ((hplaces o).symm.trans (hinv.conserved o))
    registrarLock := by
      intro r x g hx hh
      rw [hreg x (mem_of_getElem? hx)] at hh
      cases hh
    takerLock := by
      intro k x g hx hh
      rw [htak x (mem_of_getElem? hx)] at hh
      cases hh
    barrierLock := by
      intro t g ht
      have hnone : s.domain.transition = some t := ht
      rw [htrans] at hnone
      cases hnone
    older := fun o ho => by cases ho
    emptied := fun _ => rfl
    cleared := fun _ _ _ _ => rfl
    grace := fun o _ g serial hlive => absurd hlive (hinv.not_live_of_certified hcert g serial)
    gone := fun _ o => hnow o }

theorem Inv.register (hinv : s.Inv) :
    ({ s with registrars := s.registrars ++ [.select] } : RotatingRetirementDomain w N).Inv := by
  have hget : ∀ (r : Nat) (x : Registrar), (s.registrars ++ [select])[r]? = some x →
      s.registrars[r]? = some x ∨ x = select := by
    intro r x hx
    rw [getElem?_append] at hx
    split at hx
    next => exact .inl hx
    next =>
      have hmem := mem_of_getElem? hx
      rw [mem_singleton] at hmem
      exact .inr hmem
  exact { hinv with
    registrarLock := by
      intro r x g hx hh
      rcases hget r x hx with hold | rfl
      · exact hinv.registrarLock r x g hold hh
      · cases hh
    selected := by
      intro r g hx
      rcases hget r _ hx with hold | hnew
      · exact hinv.selected r g hold
      · cases hnew }

theorem Inv.takeQueues (hinv : s.Inv) (halive : s.destroyed = false)
    (hcert : s.domain.certified = true) :
    ({ s with takers := s.takers ++ [.lockFirst] } : RotatingRetirementDomain w N).Inv := by
  refine hinv.of_taker hcert ?_ rfl rfl rfl rfl halive (fun _ _ _ h => h) ?_ fun _ h => h
  · intro o
    simp only [places, map_append, sum_append]
    rfl
  · intro k x g hx hh
    have hx' : (s.takers ++ [Taker.lockFirst])[k]? = some x := hx
    rw [getElem?_append] at hx'
    split at hx'
    next => exact hinv.takerLock k x g hx' hh
    next =>
      have hmem := mem_of_getElem? hx'
      rw [mem_singleton] at hmem
      subst hmem
      cases hh

-- ---- Every step, and every run.

/-- **Every step keeps the invariant.** -/
theorem Inv.step (hinv : s.Inv) {action : Action N} (h : s.step action = some s') : s'.Inv := by
  unfold RotatingRetirementDomain.step at h
  split at h
  next => cases h
  next hguard =>
    have halive : s.destroyed = false := by
      rw [Bool.eq_false_iff]
      exact fun hd => hguard (.inr hd)
    cases action with
    | enter stripe =>
      obtain ⟨d, hd, rfl⟩ := map_eq_some_iff.mp h
      exact hinv.domain_step (.inl ⟨stripe, rfl⟩) hd
    | reader r =>
      obtain ⟨d, hd, rfl⟩ := map_eq_some_iff.mp h
      exact hinv.domain_step (.inr (.inl ⟨r, rfl⟩)) hd
    | lock op =>
      obtain ⟨d, hd, rfl⟩ := map_eq_some_iff.mp h
      exact hinv.domain_step (.inr (.inr ⟨op, rfl⟩)) hd
    | manage => exact hinv.manage h
    | register =>
      cases h
      exact hinv.register
    | registrar r => exact hinv.registrarStep h
    | append r => exact hinv.append halive h
    | observe g =>
      simp only [] at h
      split at h
      next hfree =>
        cases h
        exact hinv.lockQueue hfree .observer
      next => cases h
    | observed g =>
      simp only [] at h
      split at h
      next hheld =>
        cases h
        have hno : ∀ h, h ≠ QueueHolder.observer → (s.queues g).lock ≠ some h := by
          intro h hne heq
          rw [hheld] at heq
          cases heq
          exact hne rfl
        refine hinv.setLock ?_ ?_ ?_
        · intro r x hx hh
          exact absurd hh (hinv.not_registrar (fun r => hno _ (by simp)) hx)
        · intro k x hx hh
          exact absurd hh (hinv.not_taker (fun k => hno _ (by simp)) hx)
        · intro t ht hb
          exact absurd (hinv.barrierLock t g ht hb) (hno _ (by simp))
      next => cases h
    | takeQueues =>
      simp only [] at h
      split at h
      next hcert =>
        cases h
        exact hinv.takeQueues halive hcert
      next => cases h
    | taker k => exact hinv.takerStep halive h
    | destroy =>
      simp only [] at h
      split at h
      next hdrop =>
        cases h
        exact hinv.destroy hdrop.1 hdrop.2.1 hdrop.2.2.1 hdrop.2.2.2
      next => cases h

/-- **The grace period.** In every state that any interleaving of readers,
registrations, rotations, polls, idle attempts, closings and takers reaches:

* the owners registered so far are distinct, and each of them is in exactly one
  place: in a queue, on its way out with the operation that detached it, or
  handed out;
* no permit issued before the registration of an owner that has left its queue is
  still live;
* while no rotation is pending, only the queue of the current generation holds
  owners, so the next rotation hands them out; and when the domain is dropped,
  all registered owners have been handed out. -/
theorem retirement_grace_period (h : Reachable step new s) : (s.registered.map Owner.id).Nodup ∧
    s.registered.Perm ((s.queues false).items ++ (s.queues true).items ++ s.inflight ++
      s.takers.flatMap Taker.batch ++ s.handed) ∧
    (∀ o ∈ s.inflight ++ s.takers.flatMap Taker.batch ++ s.handed, ∀ x ∈ s.domain.readers,
      ∀ g serial, x.permit = some (g, serial) → o.stamp ≤ serial) ∧
    (s.domain.pending = none → (s.queues (!s.domain.current)).items = []) ∧
    (s.destroyed = true → s.registered.Perm s.handed) := by
  have hinv : s.Inv := Reachable.invariant (fun _ _ _ hi hs => hi.step hs) new_inv h
  refine ⟨?_, ?_, ?_, ?_, ?_⟩
  · rw [hinv.numbered]
    exact nodup_range
  · rw [perm_iff_count]
    intro o
    rw [← hinv.conserved, places]
    simp only [count_append, count_flatMap]
    rfl
  · intro o ho x hx g serial hp
    have hreleased : s.Released o := by
      rcases mem_append.mp ho with hfirst | hhanded
      · rcases mem_append.mp hfirst with hin | htak
        · exact .inl hin
        · exact .inr (.inl (mem_flatMap.mp htak))
      · exact .inr (.inr hhanded)
    exact hinv.grace o hreleased g serial ⟨x, hx, hp⟩
  · intro hnone
    exact hinv.emptied (.inl hnone)
  · intro hgone
    rw [perm_iff_count]
    intro o
    rw [← hinv.conserved, hinv.gone hgone]

/-- A reader enters, an owner is registered, and a poll rotates under the reader.
A second reader enters the new generation and stays; the first one releases, and
the second poll hands the owner out. -/
def handOutRun : List (Action 1) :=
  flatten [[.enter 0, .reader 0, .reader 0, .reader 0],
    [.register, .registrar 0, .registrar 0, .registrar 0, .append 0, .registrar 0],
    [.lock .poll], .replicate 29 .manage,
    [.enter 0, .reader 1, .reader 1, .reader 1],
    [.reader 0, .reader 0, .reader 0, .reader 0],
    [.lock .poll], .replicate 12 .manage]

theorem retirement_grace_period_handOutRun :
    ∃ s : RotatingRetirementDomain 62 1, run step new handOutRun = some s ∧
      s.handed = [⟨0, 1⟩] ∧ s.domain.readers[1]? = some (.holding 0 true 1) ∧
      s.registered.Perm s.handed := by
  have hrun : ((run step (new : RotatingRetirementDomain 62 1) handOutRun).map fun s =>
      (s.handed, s.domain.readers[1]?, (s.queues false).items ++ (s.queues true).items ++
        s.inflight ++ s.takers.flatMap Taker.batch)) =
      some ([⟨0, 1⟩], some (.holding 0 true 1), []) := by
    decide +kernel
  obtain ⟨s, hs, hval⟩ := map_eq_some_iff.mp hrun
  simp only [Prod.mk.injEq] at hval
  obtain ⟨hhanded, hreader, hrest⟩ := hval
  obtain ⟨-, hperm, -⟩ := retirement_grace_period ⟨handOutRun, hs⟩
  rw [hrest] at hperm
  exact ⟨s, hs, hhanded, hreader, hperm⟩

end RotatingRetirementDomain

end Xlfn.Kernel
