import Xlfn.Lib.Table
import Xlfn.Kernel.ReadDomain

/-!
# Xlfn — the invariant of the read domain

What holds of the two gates in every reachable state of the machine of
`ReadDomain.lean`, and the first half of its proof: readers keep it.

* `Inv` — every count is the number of permits of its stripe, each idle lock is
  held by the party that is inside its section, the gate that is not current is
  sealed, and it is drained unless it is pending. `Stage` adds what the holder of
  the transition lock knows at each point of an operation.
* `ReaderMove` — everything a reader can do, and what it does to the words.
-/

namespace Xlfn.Kernel

open Lib StripedDrainGate List Reader

/-- The holder of the transition lock has the idle lock of generation `g` here. -/
def Transition.locksIdle {w : Nat} (g : GenerationIndex) : Transition w → Bool
  | .replacement _ old proc => g == !old && proc.locks
  | .sealOld _ old proc => g == old && proc.locks
  | .reopen _ old proc => g == !old && proc.locks
  | .drainSeal old _ proc => g == old && proc.locks
  | .drainWait old _ proc => g == old && proc.locks
  | .tryWait _ old proc => g == old && proc.locks
  | .closeSeal g' proc => g == g' && proc.locks
  | .closeWait g' proc => g == g' && proc.locks
  | _ => false

/-- `seal_and_wait` has set `closed` and is still sealing or waiting. -/
def Transition.closing {w : Nat} : Transition w → Bool
  | .closeClaim _ => true
  | .closeSeal _ _ => true
  | .closeWait _ _ => true
  | _ => false

/-- The window between recording the pending generation and publishing the other. -/
def Transition.publishing {w : Nat} : Transition w → Bool
  | .publish _ _ => true
  | _ => false

namespace RotatingReadDomain

variable {w N : Nat} {s s' : RotatingReadDomain w N}

-- ---- Reading a state after a write.

@[simp] theorem setGate_self (s : RotatingReadDomain w N) (g : GenerationIndex)
    (gate : StripedDrainGate w N) : (s.setGate g gate).generations g = gate :=
  Function.update_self ..

@[simp] theorem setGate_not (s : RotatingReadDomain w N) (g : GenerationIndex)
    (gate : StripedDrainGate w N) :
    (s.setGate g gate).generations (!g) = s.generations (!g) := by
  refine Function.update_of_ne ?_ ..
  cases g <;> decide

theorem eq_or_eq_not (g g' : GenerationIndex) : g' = g ∨ g' = !g := by
  cases g <;> cases g' <;> decide

variable {g : GenerationIndex} {r : Nat} {x : Reader N}

/-- A property of both gates survives a write that has it at the written one. -/
theorem forall_setGate {P : GenerationIndex → StripedDrainGate w N → Prop}
    {gate : StripedDrainGate w N} (hg : P g gate) (hother : P (!g) (s.generations (!g))) :
    ∀ g', P g' ((s.setGate g gate).generations g') := by
  intro g'
  rcases eq_or_eq_not g g' with rfl | rfl
  · rwa [setGate_self]
  · rwa [setGate_not]

-- ---- What a reader can do.

/-- The steps of reader `r`, with what each does to the words and the locks. -/
inductive ReaderMove (s : RotatingReadDomain w N) (r : Nat) : RotatingReadDomain w N → Prop
  /-- No gate is written. -/
  | quiet {x x' : Reader N} (hx : s.readers[r]? = some x)
      (holds : ∀ g i, x'.holds g i = x.holds g i) (locks : ∀ g, x'.locksIdle g = x.locksIdle g)
      (permit : x'.permit = x.permit) :
      ReaderMove s r (s.setReader r x')
  /-- A permit is acquired on an open stripe. -/
  | acquire {stripe : Fin N} {g : GenerationIndex} {state : StateWord w}
      (hx : s.readers[r]? = some (.acquire stripe g))
      (hopen : isSealed ((s.generations g).counters stripe) = false)
      (hsealed : isSealed state = false)
      (hactive : active state = active ((s.generations g).counters stripe) + 1) :
      ReaderMove s r { (s.setGate g ((s.generations g).setCounter stripe state)).setReader r
          (.holding stripe g s.issued) with
        issued := s.issued + 1 }
  /-- A permit is released, directly or under the idle lock. -/
  | release {x x' : Reader N} {stripe : Fin N} {g : GenerationIndex} {state : StateWord w}
      (hx : s.readers[r]? = some x)
      (holds : ∀ g' i, x.holds g' i = (g == g' && stripe == i))
      (holds' : ∀ g' i, x'.holds g' i = false)
      (locks : ∀ g', x'.locksIdle g' = x.locksIdle g') (permit : x'.permit = none)
      (hsealed : isSealed state = isSealed ((s.generations g).counters stripe))
      (hactive : active state + 1 = active ((s.generations g).counters stripe)) :
      ReaderMove s r ((s.setGate g ((s.generations g).setCounter stripe state)).setReader r x')
  /-- The last count of a stripe with a waiter is retained until the idle lock is held. -/
  | lockIdle {stripe : Fin N} {g : GenerationIndex} {serial : Nat}
      (hx : s.readers[r]? = some (.retained stripe g serial))
      (hfree : (s.generations g).idle = none) :
      ReaderMove s r ((s.setGate g ((s.generations g).setIdle (some (.releaser r)))).setReader r
        (.notifying stripe g serial))
  | unlockIdle {g : GenerationIndex} (hx : s.readers[r]? = some (.tail g)) :
      ReaderMove s r ((s.setGate g ((s.generations g).setIdle none)).setReader r .finished)
  /-- The count of a stripe is full. -/
  | overflow : ReaderMove s r (s.abort .acquire)
  /-- The count of a stripe this reader holds a permit of is zero. -/
  | underflow {x : Reader N} {stripe : Fin N} {g : GenerationIndex}
      (hx : s.readers[r]? = some x) (holds : x.holds g stripe = true)
      (hzero : active ((s.generations g).counters stripe) = 0) :
      ReaderMove s r (s.abort .release)

theorem readerMove_of_readerStep (h : s.readerStep r = some s') : ReaderMove s r s' := by
  unfold readerStep at h
  split at h
  next => cases h
  next stripe hx =>
    split at h
    all_goals
      cases h
      exact .quiet hx (fun _ _ => rfl) (fun _ => rfl) rfl
  next stripe hx =>
    cases h
    exact .quiet hx (fun _ _ => rfl) (fun _ => rfl) rfl
  next stripe g hx =>
    rcases acquireStep_spec ((s.generations g).counters stripe) with
      ⟨-, hout⟩ | ⟨-, -, hout⟩ | ⟨hopen, t, hout, hsealed, -, hactive⟩
    · rw [hout] at h
      cases h
      exact .quiet hx (fun _ _ => rfl) (fun _ => rfl) rfl
    · rw [hout] at h
      cases h
      exact .overflow
    · rw [hout] at h
      cases h
      exact .acquire hx hopen hsealed hactive
  next stripe hx =>
    split at h
    all_goals
      cases h
      exact .quiet hx (fun _ _ => rfl) (fun _ => rfl) rfl
  next stripe g serial hx =>
    rcases releaseWithoutNotificationStep_spec ((s.generations g).counters stripe) with
      ⟨hzero, hout⟩ | ⟨-, -, hout⟩ | ⟨t, hout, hsealed, -, hactive⟩
    · rw [hout] at h
      cases h
      exact .underflow hx (by simp [holds]) hzero
    · rw [hout] at h
      cases h
      exact .quiet hx (fun _ _ => rfl) (fun _ => rfl) rfl
    · rw [hout] at h
      cases h
      exact .release hx (fun _ _ => rfl) (fun _ _ => rfl) (fun _ => rfl) rfl hsealed hactive
  next stripe g serial hx =>
    split at h
    next hfree =>
      cases h
      exact .lockIdle hx hfree
    next => cases h
  next stripe g serial hx =>
    rcases releaseStep_spec ((s.generations g).counters stripe) with
      ⟨hzero, hout⟩ | ⟨t, hout, hsealed, -, hactive⟩
    · rw [hout] at h
      cases h
      exact .underflow hx (by simp [holds]) hzero
    · rw [hout] at h
      cases h
      exact .release hx (fun _ _ => rfl) (fun _ _ => rfl) (fun _ => rfl) rfl hsealed hactive
  next g hx =>
    cases h
    exact .unlockIdle hx
  next => cases h

-- ---- The invariant.

section

variable (s : RotatingReadDomain w N)

/-- Generation `g` is sealed, has no permit, and no release is still inside its
notification section. -/
def Drained (g : GenerationIndex) : Prop :=
  (s.generations g).AllIdle ∧ ∀ r, (s.generations g).idle ≠ some (.releaser r)

/-- Reader `r` is inside the notification section of generation `g`. -/
def releasing (r : Nat) (g : GenerationIndex) : Bool :=
  s.readers[r]?.any (·.locksIdle g)

/-- The holder of the transition lock has the idle lock of generation `g`. -/
def managing (g : GenerationIndex) : Bool :=
  s.transition.any (·.locksIdle g)

/-- A rotation of `old` that has not recorded anything yet. -/
def Fresh (old : GenerationIndex) : Prop :=
  s.closed = false ∧ s.pending = none ∧ s.current = old

/-- A rotation of `old` whose replacement has been published. -/
def Rotated (old : GenerationIndex) : Prop :=
  s.closed = false ∧ s.pending = some old ∧ s.current = !old

/-- What the holder of the transition lock knows at each stage. -/
def Stage : Transition w → Prop
  | .locked _ => True
  | .classify _ => s.closed = false
  | .barrier _ old => s.Fresh old
  | .claimReplacement _ old => s.Fresh old
  | .replacement _ old proc => s.Fresh old ∧ proc.Inv (s.generations (!old)) ∧ proc.Clean
  | .claimOld _ old => s.Fresh old
  | .sealOld _ old proc => s.Fresh old ∧ proc.Inv (s.generations old)
  | .idleSeal old proc => s.Fresh old ∧ proc.Inv (s.generations old)
  | .setPending _ old => s.Fresh old ∧ (s.generations old).AllSealed
  | .publish _ old =>
    s.closed = false ∧ s.pending = some old ∧ s.current = old ∧
      (s.generations old).AllSealed ∧ s.Drained (!old)
  | .reopen _ old proc => s.Rotated old ∧ proc.Inv (s.generations (!old))
  | .releaseBarrier _ old => s.Rotated old
  | .abandon _ old => s.Fresh old
  | .claimPending _ old _ => s.Rotated old
  | .drainSeal old _ proc => s.Rotated old ∧ proc.Inv (s.generations old)
  | .drainWait old _ proc => s.Rotated old ∧ proc.Inv (s.generations old)
  | .tryWait _ old proc => s.Rotated old ∧ proc.Inv (s.generations old)
  | .callback _ old _ => s.Rotated old ∧ s.Drained old
  | .clear _ old _ => s.Rotated old ∧ s.Drained old
  | .closeClaim g => s.closed = true ∧ (g = true → s.Drained false)
  | .closeSeal g proc =>
    s.closed = true ∧ (g = true → s.Drained false) ∧ proc.Inv (s.generations g)
  | .closeWait g proc =>
    s.closed = true ∧ (g = true → s.Drained false) ∧ proc.Inv (s.generations g)
  | .unlock => True

end

/-- **The invariant of the domain.** -/
structure Inv (s : RotatingReadDomain w N) : Prop where
  /-- Each count is the number of permits on its stripe. -/
  counted : ∀ g i, active ((s.generations g).counters i) = s.readers.countP (·.holds g i)
  /-- A reader has the idle lock exactly while it is in its notification section. -/
  readerLock : ∀ g r, (s.generations g).idle = some (.releaser r) ↔ s.releasing r g = true
  /-- The same for the holder of the transition lock. -/
  managerLock : ∀ g, ManagerLock (s.generations g) (s.managing g)
  /-- The permits are numbered in the order of their acquisition. -/
  serials : ∀ x ∈ s.readers, ∀ g serial, x.permit = some (g, serial) → serial < s.issued
  otherSealed : (s.generations (!s.current)).AllSealed
  /-- Outside the publication window a pending generation is the other one, and
  without a pending one the other one is drained. -/
  settled : s.transition.any (·.publishing) = false →
    (∀ old, s.pending = some old → s.current = !old) ∧ (s.pending = none → s.Drained (!s.current))
  stage : ∀ t, s.transition = some t → s.Stage t
  closedSealed : s.closed = true →
    (∀ g, (s.generations g).AllSealed) ∨ s.transition.any (·.closing) = true
  certified : s.certified = true → s.closed = true ∧ ∀ g, s.Drained g
  /-- The only abort is that of a full count. -/
  aborts : s.aborted = none ∨ s.aborted = some .acquire

theorem new_inv : (new : RotatingReadDomain w N).Inv where
  counted g i := by
    cases g
    · exact active_zero
    · exact active_sealedBit
  readerLock g r := by cases g <;> simp [new, releasing, newSealed, newOpen]
  managerLock g := by cases g <;> simp [new, ManagerLock, managing, newSealed, newOpen]
  serials x hx := by cases hx
  otherSealed i := isSealed_sealedBit
  settled _ := by
    constructor
    · intro old h
      cases h
    · intro _
      refine ⟨fun i => ⟨isSealed_sealedBit, active_sealedBit⟩, ?_⟩
      intro r h
      cases h
  stage t h := by cases h
  closedSealed h := by cases h
  certified h := by cases h
  aborts := .inl rfl

-- ---- Readers keep it.

theorem active_setCounter (s : RotatingReadDomain w N) (g : GenerationIndex) (stripe : Fin N)
    (state : StateWord w) (g' : GenerationIndex) (i : Fin N) :
    active (((s.setGate g ((s.generations g).setCounter stripe state)).generations g').counters i) =
      if (g == g' && stripe == i) = true then active state
      else active ((s.generations g').counters i) := by
  rcases eq_or_eq_not g g' with rfl | rfl
  · rw [setGate_self]
    by_cases h : stripe = i
    · subst h
      simp
    · rw [setCounter_ne _ _ (Ne.symm h)]
      simp [h]
  · rw [setGate_not]
    cases g <;> simp

private theorem countP_reader (x' : Reader N) (g : GenerationIndex) (i : Fin N)
    (hx : s.readers[r]? = some x) :
    (s.readers.set r x').countP (·.holds g i) + (if x.holds g i then 1 else 0) =
      s.readers.countP (·.holds g i) + if x'.holds g i then 1 else 0 :=
  countP_set_add (·.holds g i) x' hx

theorem counters_setIdle (s : RotatingReadDomain w N) (g : GenerationIndex)
    (holder : Option IdleHolder) (g' : GenerationIndex) :
    ((s.setGate g ((s.generations g).setIdle holder)).generations g').counters =
      (s.generations g').counters := by
  rcases eq_or_eq_not g g' with rfl | rfl
  · rw [setGate_self, setIdle_counters]
  · rw [setGate_not]

theorem idle_setCounter (s : RotatingReadDomain w N) (g : GenerationIndex) (i : Fin N)
    (state : StateWord w) (g' : GenerationIndex) :
    ((s.setGate g ((s.generations g).setCounter i state)).generations g').idle =
      (s.generations g').idle := by
  rcases eq_or_eq_not g g' with rfl | rfl
  · rw [setGate_self, setCounter_idle]
  · rw [setGate_not]

theorem ReaderMove.counted (hmove : ReaderMove s r s') (hinv : s.Inv) :
    ∀ g i, active ((s'.generations g).counters i) = s'.readers.countP (·.holds g i) := by
  intro g i
  have hcount := hinv.counted g i
  cases hmove with
  | @quiet x x' hx holds locks permit =>
    have hset := countP_reader x' g i hx
    rw [holds g i] at hset
    show active ((s.generations g).counters i) = (s.readers.set r x').countP _
    omega
  | @acquire stripe g₀ state hx hopen hsealed hactive =>
    have hset := countP_reader (.holding stripe g₀ s.issued) g i hx
    have hold : (Reader.acquire stripe g₀ : Reader N).holds g i = false := rfl
    have hnew : (holding stripe g₀ s.issued : Reader N).holds g i =
      (g₀ == g && stripe == i) := rfl
    rw [hold, hnew, if_neg Bool.false_ne_true, Nat.add_zero] at hset
    refine (s.active_setCounter g₀ stripe state g i).trans (Eq.trans ?_ hset.symm)
    split
    next heq =>
      rw [Bool.and_eq_true, beq_iff_eq, beq_iff_eq] at heq
      obtain ⟨rfl, rfl⟩ := heq
      omega
    next => omega
  | @release x x' stripe g₀ state hx holds holds' locks permit hsealed hactive =>
    have hset := countP_reader x' g i hx
    rw [holds, holds', if_neg Bool.false_ne_true, Nat.add_zero] at hset
    refine (s.active_setCounter g₀ stripe state g i).trans ?_
    show _ = (s.readers.set r x').countP _
    split
    next heq =>
      rw [if_pos heq] at hset
      rw [Bool.and_eq_true, beq_iff_eq, beq_iff_eq] at heq
      obtain ⟨rfl, rfl⟩ := heq
      omega
    next hne =>
      rw [if_neg hne] at hset
      omega
  | @lockIdle stripe g₀ serial hx hfree =>
    have hset := countP_reader (.notifying stripe g₀ serial) g i hx
    have hsame : (notifying stripe g₀ serial : Reader N).holds g i =
      (retained stripe g₀ serial : Reader N).holds g i := rfl
    rw [hsame] at hset
    show active (((s.setGate g₀ _).generations g).counters i) = (s.readers.set r _).countP _
    rw [counters_setIdle]
    omega
  | @unlockIdle g₀ hx =>
    have hset := countP_reader .finished g i hx
    have hsame : (finished : Reader N).holds g i = (tail g₀ : Reader N).holds g i :=
      rfl
    rw [hsame] at hset
    show active (((s.setGate g₀ _).generations g).counters i) = (s.readers.set r _).countP _
    rw [counters_setIdle]
    omega
  | overflow => exact hcount
  | underflow => exact hcount

theorem releasing_set (x' : Reader N) (hx : s.readers[r]? = some x) (r' : Nat)
    (g : GenerationIndex) : (s.readers.set r x')[r']?.any (·.locksIdle g) =
      if r' = r then x'.locksIdle g else s.releasing r' g := by
  rw [getElem?_set]
  obtain ⟨hr, -⟩ := List.getElem_of_getElem? hx
  by_cases h : r' = r
  · subst h
    simp [hr]
  · simp [h, Ne.symm h, releasing]

theorem releasing_of_reader (hx : s.readers[r]? = some x) (g : GenerationIndex) :
    s.releasing r g = x.locksIdle g := by
  rw [releasing, hx]
  rfl

theorem ReaderMove.readerLock (hmove : ReaderMove s r s') (hinv : s.Inv) :
    ∀ g r', (s'.generations g).idle = some (.releaser r') ↔ s'.releasing r' g = true := by
  intro g r'
  have hlock := hinv.readerLock g r'
  -- a move that leaves the idle locks and the section of `r` alone
  have hkeep : ∀ {x x' : Reader N}, s.readers[r]? = some x →
      (∀ g, x'.locksIdle g = x.locksIdle g) →
      ((s.generations g).idle = some (.releaser r') ↔
        (s.readers.set r x')[r']?.any (·.locksIdle g) = true) := by
    intro x x' hx hsame
    rw [releasing_set x' hx]
    split
    next heq =>
      subst heq
      rw [hsame, ← releasing_of_reader hx]
      exact hlock
    next => exact hlock
  cases hmove with
  | @quiet x x' hx holds locks permit => exact hkeep hx locks
  | @acquire stripe g₀ state hx hopen hsealed hactive =>
    show ((s.setGate g₀ _).generations g).idle = _ ↔ _
    rw [idle_setCounter]
    exact hkeep hx fun _ => rfl
  | @release x x' stripe g₀ state hx holds holds' locks permit hsealed hactive =>
    show ((s.setGate g₀ _).generations g).idle = _ ↔ _
    rw [idle_setCounter]
    exact hkeep hx locks
  | @lockIdle stripe g₀ serial hx hfree =>
    show ((s.setGate g₀ _).generations g).idle = _ ↔ (s.readers.set r _)[r']?.any _ = true
    rw [releasing_set _ hx]
    rcases eq_or_eq_not g₀ g with rfl | rfl
    · rw [setGate_self]
      by_cases hr : r' = r
      · subst hr
        simp [locksIdle]
      · rw [if_neg hr, ← hlock, hfree]
        simp [Ne.symm hr]
    · rw [setGate_not]
      split
      next heq =>
        subst heq
        rw [hlock, releasing_of_reader hx]
        cases g₀ <;> simp [locksIdle]
      next => exact hlock
  | @unlockIdle g₀ hx =>
    show ((s.setGate g₀ _).generations g).idle = _ ↔ (s.readers.set r _)[r']?.any _ = true
    rw [releasing_set _ hx]
    rcases eq_or_eq_not g₀ g with rfl | rfl
    · have hheld : (s.generations g).idle = some (.releaser r) := by
        rw [hinv.readerLock, releasing_of_reader hx]
        simp [locksIdle]
      rw [setGate_self]
      by_cases hr : r' = r
      · rw [if_pos hr]
        simp [locksIdle]
      · rw [if_neg hr, ← hlock, hheld]
        simp [Ne.symm hr]
    · rw [setGate_not]
      split
      next heq =>
        subst heq
        rw [hlock, releasing_of_reader hx]
        cases g₀ <;> simp [locksIdle]
      next => exact hlock
  | overflow => exact hlock
  | underflow => exact hlock

theorem Inv.active_pos (hinv : s.Inv) (hx : s.readers[r]? = some x) {i : Fin N}
    (hholds : x.holds g i = true) : 0 < active ((s.generations g).counters i) := by
  rw [hinv.counted]
  exact countP_pos_iff.mpr ⟨x, mem_of_getElem? hx, hholds⟩

theorem ReaderMove.keep (hmove : ReaderMove s r s') (hinv : s.Inv) :
    ∀ g, ReadersKeep (s.generations g) (s'.generations g) := by
  cases hmove with
  | quiet | overflow | underflow => exact fun g => .refl _
  | @acquire stripe g₀ state hx hopen hsealed hactive =>
    refine forall_setGate (P := fun g gate => ReadersKeep (s.generations g) gate) ?_ (.refl _)
    refine ⟨?_, ?_, Iff.rfl⟩
    · exact forall_setCounter
        (P := fun j c => isSealed c = isSealed ((s.generations g₀).counters j))
        (fun _ _ => rfl) (hsealed.trans hopen.symm)
    · refine forall_setCounter
        (P := fun j c => (s.generations g₀).IdleAt j → active c = 0) (fun _ _ h => h.2) ?_
      intro h
      have hclosed := h.1
      rw [hopen] at hclosed
      cases hclosed
  | @release x x' stripe g₀ state hx holds holds' locks permit hsealed hactive =>
    refine forall_setGate (P := fun g gate => ReadersKeep (s.generations g) gate) ?_ (.refl _)
    refine ⟨?_, ?_, Iff.rfl⟩
    · exact forall_setCounter
        (P := fun j c => isSealed c = isSealed ((s.generations g₀).counters j))
        (fun _ _ => rfl) hsealed
    · refine forall_setCounter
        (P := fun j c => (s.generations g₀).IdleAt j → active c = 0) (fun _ _ h => h.2) ?_
      intro h
      have hzero := h.2
      omega
  | @lockIdle stripe g₀ serial hx hfree =>
    refine forall_setGate (P := fun g gate => ReadersKeep (s.generations g) gate) ?_ (.refl _)
    exact ⟨fun _ => rfl, fun _ h => h.2, by simp [hfree]⟩
  | @unlockIdle g₀ hx =>
    have hheld : (s.generations g₀).idle = some (.releaser r) := by
      rw [hinv.readerLock, releasing_of_reader hx]
      simp [locksIdle]
    refine forall_setGate (P := fun g gate => ReadersKeep (s.generations g) gate) ?_ (.refl _)
    exact ⟨fun _ => rfl, fun _ h => h.2, by simp [hheld]⟩

theorem ReaderMove.idle_of_releaser (hmove : ReaderMove s r s') (hinv : s.Inv) {r' : Nat}
    (h : (s'.generations g).idle = some (.releaser r')) :
    (s.generations g).idle = some (.releaser r') ∨
      ∃ i, 0 < active ((s.generations g).counters i) := by
  cases hmove with
  | quiet | overflow | underflow => exact .inl h
  | acquire | release =>
    rw [← idle_setCounter]
    exact .inl h
  | @lockIdle stripe g₀ serial hx hfree =>
    rcases eq_or_eq_not g₀ g with rfl | rfl
    · exact .inr ⟨stripe, hinv.active_pos hx (by simp [holds])⟩
    · rw [← setGate_not]
      exact .inl h
  | @unlockIdle g₀ hx =>
    rcases eq_or_eq_not g₀ g with rfl | rfl
    · have hnone : ((s.setGate g ((s.generations g).setIdle none)).generations g).idle =
          some (.releaser r') := h
      rw [setGate_self] at hnone
      cases hnone
    · rw [← setGate_not]
      exact .inl h

/-- A drained generation has no party of a release left, so it stays drained. -/
theorem ReaderMove.drained (hmove : ReaderMove s r s') (hinv : s.Inv) (hd : s.Drained g) :
    s'.Drained g := by
  refine ⟨fun i => (hmove.keep hinv g).stays (hd.1 i), ?_⟩
  intro r' hr'
  rcases hmove.idle_of_releaser hinv hr' with hold | ⟨i, hpos⟩
  · exact hd.2 r' hold
  · have hzero := (hd.1 i).2
    omega

/-- A move of a reader changes its own record, the gates and the history only. -/
theorem ReaderMove.frame (hmove : ReaderMove s r s') :
    s'.current = s.current ∧ s'.pending = s.pending ∧ s'.transition = s.transition ∧
      s'.closed = s.closed ∧ s'.certified = s.certified := by
  cases hmove <;> exact ⟨rfl, rfl, rfl, rfl, rfl⟩

theorem Stage.of_keep {t : Transition w} (h : s.Stage t)
    (hcur : s'.current = s.current) (hpend : s'.pending = s.pending)
    (hclosed : s'.closed = s.closed) (hkeep : ∀ g, ReadersKeep (s.generations g) (s'.generations g))
    (hdrained : ∀ {g}, s.Drained g → s'.Drained g) : s'.Stage t := by
  have hfresh : ∀ {old}, s.Fresh old → s'.Fresh old := by
    rintro old ⟨h1, h2, h3⟩
    exact ⟨hclosed.trans h1, hpend.trans h2, hcur.trans h3⟩
  have hrotated : ∀ {old}, s.Rotated old → s'.Rotated old := by
    rintro old ⟨h1, h2, h3⟩
    exact ⟨hclosed.trans h1, hpend.trans h2, hcur.trans h3⟩
  cases t with
  | locked op | unlock => exact trivial
  | classify op => exact hclosed.trans h
  | barrier op old | claimReplacement op old | claimOld op old | abandon op old => exact hfresh h
  | replacement op old proc => exact ⟨hfresh h.1, h.2.1.of_readers (hkeep _), h.2.2⟩
  | sealOld op old proc | idleSeal old proc => exact ⟨hfresh h.1, h.2.of_readers (hkeep _)⟩
  | setPending op old => exact ⟨hfresh h.1, (hkeep _).allSealed h.2⟩
  | publish op old =>
    obtain ⟨h1, h2, h3, h4, h5⟩ := h
    exact ⟨hclosed.trans h1, hpend.trans h2, hcur.trans h3, (hkeep _).allSealed h4, hdrained h5⟩
  | reopen op old proc | drainSeal old again proc | drainWait old again proc
  | tryWait op old proc => exact ⟨hrotated h.1, h.2.of_readers (hkeep _)⟩
  | releaseBarrier op old | claimPending op old again => exact hrotated h
  | callback op old again | clear op old again => exact ⟨hrotated h.1, hdrained h.2⟩
  | closeClaim g => exact ⟨hclosed.trans h.1, fun hg => hdrained (h.2 hg)⟩
  | closeSeal g proc | closeWait g proc =>
    exact ⟨hclosed.trans h.1, fun hg => hdrained (h.2.1 hg), h.2.2.of_readers (hkeep _)⟩

theorem ReaderMove.serials (hmove : ReaderMove s r s') (hinv : s.Inv) :
    ∀ x ∈ s'.readers, ∀ g serial, x.permit = some (g, serial) → serial < s'.issued := by
  intro x hx g serial hp
  -- the reader that moved, or one of those that did not
  have hset : ∀ {y : Reader N}, x ∈ s.readers.set r y → (y.permit = none ∨
      ∃ z ∈ s.readers, y.permit = z.permit) → serial < s.issued := by
    intro y hmem hy
    rcases mem_or_eq_of_mem_set hmem with hold | rfl
    · exact hinv.serials x hold g serial hp
    · rcases hy with hnone | ⟨z, hz, hzp⟩
      · rw [hnone] at hp
        cases hp
      · exact hinv.serials z hz g serial (hzp ▸ hp)
  cases hmove with
  | quiet hx' holds locks permit =>
    exact hset hx (.inr ⟨_, mem_of_getElem? hx', permit⟩)
  | @acquire stripe g₀ state hx' hopen hsealed hactive =>
    rcases mem_or_eq_of_mem_set hx with hold | rfl
    · exact Nat.lt_succ_of_lt (hinv.serials x hold g serial hp)
    · cases hp
      exact Nat.lt_succ_self _
  | release hx' holds holds' locks permit => exact hset hx (.inl permit)
  | lockIdle hx' hfree => exact hset hx (.inr ⟨_, mem_of_getElem? hx', rfl⟩)
  | unlockIdle hx' => exact hset hx (.inl rfl)
  | overflow | underflow => exact hinv.serials x hx g serial hp

theorem ReaderMove.aborts (hmove : ReaderMove s r s') (hinv : s.Inv) :
    s'.aborted = none ∨ s'.aborted = some .acquire := by
  cases hmove with
  | overflow => exact .inr rfl
  | underflow hx holds hzero =>
    have hpos := hinv.active_pos hx holds
    omega
  | _ => exact hinv.aborts

/-- **Readers keep the invariant.** -/
theorem Inv.of_reader (hinv : s.Inv) (hmove : ReaderMove s r s') : s'.Inv := by
  obtain ⟨hcur, hpend, htrans, hclosed, hcert⟩ := hmove.frame
  have hkeep := hmove.keep hinv
  exact {
    counted := hmove.counted hinv
    readerLock := hmove.readerLock hinv
    managerLock := by
      intro g
      rw [managing, htrans]
      exact (hinv.managerLock g).of_readers (hkeep g)
    serials := hmove.serials hinv
    otherSealed := by
      rw [hcur]
      exact (hkeep _).allSealed hinv.otherSealed
    settled := by
      rw [htrans, hcur, hpend]
      intro h
      obtain ⟨h1, h2⟩ := hinv.settled h
      exact ⟨h1, fun hnone => hmove.drained hinv (h2 hnone)⟩
    stage := by
      intro t ht
      rw [htrans] at ht
      exact (hinv.stage t ht).of_keep hcur hpend hclosed hkeep (hmove.drained hinv)
    closedSealed := by
      rw [htrans, hclosed]
      intro h
      rcases hinv.closedSealed h with hall | hclosing
      · exact .inl fun g => (hkeep g).allSealed (hall g)
      · exact .inr hclosing
    certified := by
      rw [hcert, hclosed]
      intro h
      obtain ⟨h1, h2⟩ := hinv.certified h
      exact ⟨h1, fun g => hmove.drained hinv (h2 g)⟩
    aborts := hmove.aborts hinv }

end RotatingReadDomain

end Xlfn.Kernel
