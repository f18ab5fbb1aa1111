import Mathlib.Data.Nat.Bitwise

/-!
# Xlfn — the sealable counter

`sealable_counter.rs` keeps a whole admission gate in one machine word: the top
bit says that admission is sealed, the bit below it that a waiter wants to be
notified, and the other bits count the active permits. Every operation of the
counter is one atomic read-modify-write of that word, so the model of the
counter is the word and the pure transition functions of
`sealable_counter/transitions.rs`.

The word is a `BitVec (w + 2)`: `w = 30` and `w = 62` are the two platforms of
the source, and nothing below depends on which one it is. A word is read through
`isSealed`, `isWaiting` and `active`; the lemmas at the end of the module say
what each transition does to these three, and no later module looks at bits.

* `acquireStep_spec` / `releaseStep_spec` / `releaseWithoutNotificationStep_spec`
* `reopenStep_spec`, `idleSealLogic_spec`, `undoIdleSealLogic_spec`
* `isSealed_seal`, `active_markWaiting`, …
-/

namespace Xlfn.Kernel

open BitVec

/-- The state word of a counter on a platform whose `usize` has `w + 2` bits. -/
abbrev StateWord (w : Nat) := BitVec (w + 2)

/-- `SEALED_BIT = 1 << (usize::BITS - 1)`. -/
def sealedBit (w : Nat) : StateWord w := BitVec.twoPow (w + 2) (w + 1)

/-- `WAITING_BIT = SEALED_BIT >> 1`. -/
def waitingBit (w : Nat) : StateWord w := sealedBit w >>> 1

/-- `ACTIVE_COUNT_MASK = WAITING_BIT - 1`. -/
def activeCountMask (w : Nat) : StateWord w := waitingBit w - 1

/-- The outcome of a transition; `failStop` stops the process. -/
inductive TransitionOutcome (α : Type) where
  | success (next : α)
  | rejected
  | failStop
deriving DecidableEq

inductive ReleaseOutcome where
  | stillActive
  | becameIdle
deriving DecidableEq

variable {w : Nat}

-- ---- The transitions of the source.

section

variable (state : StateWord w)

/-- `SealableCounter::is_sealed` on the loaded word. -/
def isSealed : Bool := state &&& sealedBit w != 0

def isWaiting : Bool := state &&& waitingBit w != 0

/-- `SealableCounter::active` on the loaded word. -/
def active : Nat := (state &&& activeCountMask w).toNat

def acquireStep : TransitionOutcome (StateWord w) :=
  if state &&& sealedBit w ≠ 0 then .rejected
  else if state &&& activeCountMask w = activeCountMask w then .failStop
  else .success (state + 1)

def releaseStep : TransitionOutcome (StateWord w) :=
  if state &&& activeCountMask w = 0 then .failStop
  else .success (state - 1)

/-- A release that keeps the last count when a waiter is registered. -/
def releaseWithoutNotificationStep : TransitionOutcome (StateWord w) :=
  if state &&& activeCountMask w = 0 then .failStop
  else if state &&& activeCountMask w = 1 ∧ state &&& waitingBit w ≠ 0 then .rejected
  else .success (state - 1)

def releaseOutcomeStep (previous : StateWord w) : ReleaseOutcome :=
  if previous &&& activeCountMask w = 1 then .becameIdle else .stillActive

def reopenStep : TransitionOutcome (StateWord w) :=
  if state &&& sealedBit w ≠ 0 ∧ state &&& activeCountMask w = 0 then .success 0
  else .rejected

/-- The new word of `SealableCounter::seal`, a `fetch_or`. -/
def sealWord : StateWord w := state ||| sealedBit w

/-- The new word of `SealableCounter::mark_waiting`, a `fetch_or`; the value the
source returns is the `active` of the old word. -/
def markWaiting : StateWord w := state ||| waitingBit w

/-- The word `try_seal_if_idle` tries to exchange for the one it loaded. -/
def idleSealLogic : Option (StateWord w) :=
  if state &&& (sealedBit w ||| activeCountMask w) = 0 then some (state ||| sealedBit w) else none

/-- `undo_idle_seal`: clear the sealed bit and keep the waiting bit. -/
def undoIdleSealLogic : Option (StateWord w) :=
  if state &&& sealedBit w ≠ 0 ∧ state &&& activeCountMask w = 0 then
    some (state &&& ~~~ sealedBit w)
  else none

end

-- ---- The three fields of a word.

private theorem pow_w_lt (w : Nat) : 2 ^ w < 2 ^ (w + 2) :=
  Nat.pow_lt_pow_right (by decide) (by omega)

private theorem twoPow_ne_zero {n i : Nat} (h : i < n) : twoPow n i ≠ 0 := by
  intro hz
  have hbit := congrArg (fun b => getLsbD b i) hz
  simp [h] at hbit

private theorem toNat_one : (1 : StateWord w).toNat = 1 := by
  show (1#(w + 2)).toNat = 1
  simp

private theorem waitingBit_eq (w : Nat) : waitingBit w = twoPow (w + 2) w := by
  apply eq_of_toNat_eq
  have h1 : 2 ^ (w + 1) < 2 ^ (w + 2) := Nat.pow_lt_pow_right (by decide) (by omega)
  rw [waitingBit, sealedBit, toNat_ushiftRight, toNat_twoPow, toNat_twoPow,
    Nat.mod_eq_of_lt h1, Nat.mod_eq_of_lt (pow_w_lt w), Nat.shiftRight_eq_div_pow, pow_succ]
  simp

private theorem toNat_activeCountMask (w : Nat) : (activeCountMask w).toNat = 2 ^ w - 1 := by
  have hle : (1 : StateWord w) ≤ waitingBit w := by
    rw [le_def, toNat_one, waitingBit_eq, toNat_twoPow, Nat.mod_eq_of_lt (pow_w_lt w)]
    exact Nat.two_pow_pos w
  rw [activeCountMask, toNat_sub_of_le hle, toNat_one, waitingBit_eq, toNat_twoPow,
    Nat.mod_eq_of_lt (pow_w_lt w)]

private theorem isSealed_eq (s : StateWord w) : isSealed s = s.getLsbD (w + 1) := by
  rw [isSealed, sealedBit, and_twoPow]
  cases s.getLsbD (w + 1) with
  | false => simp
  | true => simp

private theorem isWaiting_eq (s : StateWord w) : isWaiting s = s.getLsbD w := by
  rw [isWaiting, waitingBit_eq, and_twoPow]
  cases s.getLsbD w with
  | false => simp
  | true => simpa using twoPow_ne_zero (n := w + 2) (i := w) (by omega)

private theorem active_eq (s : StateWord w) : active s = s.toNat % 2 ^ w := by
  rw [active, toNat_and, toNat_activeCountMask, Nat.and_two_pow_sub_one_eq_mod]

/-- The largest count a word can hold. -/
def maxActive (w : Nat) : Nat := 2 ^ w - 1

/-- The count fits its field. -/
theorem active_le (s : StateWord w) : active s ≤ maxActive w := by
  have hlt : active s < 2 ^ w := by
    rw [active_eq]
    exact Nat.mod_lt _ (Nat.two_pow_pos w)
  rw [maxActive]
  omega

-- What the guards of the transitions say about the three fields.

private theorem sealed_guard (s : StateWord w) : s &&& sealedBit w ≠ 0 ↔ isSealed s = true := by
  simp [isSealed]

private theorem waiting_guard (s : StateWord w) : s &&& waitingBit w ≠ 0 ↔ isWaiting s = true := by
  simp [isWaiting]

/-- The test for a full count. -/
private theorem full_guard (s : StateWord w) :
    s &&& activeCountMask w = activeCountMask w ↔ active s = maxActive w := by
  rw [← toNat_inj, toNat_activeCountMask]
  rfl

private theorem idle_guard (s : StateWord w) : s &&& activeCountMask w = 0 ↔ active s = 0 := by
  rw [← toNat_inj]
  rfl

/-- The test for the last permit. -/
private theorem last_guard (s : StateWord w) : s &&& activeCountMask w = 1 ↔ active s = 1 := by
  rw [← toNat_inj, toNat_one]
  rfl

variable {s t : StateWord w}

private theorem flags_of_div_eq (h : s.toNat / 2 ^ w = t.toNat / 2 ^ w) :
    isSealed s = isSealed t ∧ isWaiting s = isWaiting t := by
  have hbit : ∀ j, s.toNat.testBit (j + w) = t.toNat.testBit (j + w) := by
    intro j
    rw [← Nat.testBit_div_two_pow, ← Nat.testBit_div_two_pow, h]
  have h1 : s.getLsbD (w + 1) = t.getLsbD (w + 1) := by
    have hb := hbit 1
    rwa [Nat.add_comm 1 w] at hb
  have h0 : s.getLsbD w = t.getLsbD w := by
    have hb := hbit 0
    rwa [Nat.zero_add] at hb
  rw [isSealed_eq, isSealed_eq, isWaiting_eq, isWaiting_eq]
  exact ⟨h1, h0⟩

private theorem active_congr (h : ∀ i < w, s.getLsbD i = t.getLsbD i) : active s = active t := by
  rw [active_eq, active_eq]
  apply Nat.eq_of_testBit_eq
  intro i
  rw [Nat.testBit_mod_two_pow, Nat.testBit_mod_two_pow]
  by_cases hi : i < w
  · have hbit : s.toNat.testBit i = t.toNat.testBit i := h i hi
    rw [hbit]
  · simp [hi]

private theorem div_mod_of_lt {b q r : Nat} (h : r < b) :
    (b * q + r) / b = q ∧ (b * q + r) % b = r := by
  constructor
  · rw [Nat.mul_add_div (by omega), Nat.div_eq_of_lt h, Nat.add_zero]
  · rw [Nat.mul_add_mod, Nat.mod_eq_of_lt h]

/-- Adding one moves the count only. -/
private theorem fields_add_one (h : active s ≠ maxActive w) :
    isSealed (s + 1) = isSealed s ∧ isWaiting (s + 1) = isWaiting s ∧
      active (s + 1) = active s + 1 := by
  have hle := active_le s
  rw [maxActive] at h hle
  rw [active_eq] at h hle
  have hs := Nat.div_add_mod s.toNat (2 ^ w)
  have hr : s.toNat % 2 ^ w + 1 < 2 ^ w := by omega
  obtain ⟨hdiv, hmod⟩ := div_mod_of_lt (q := s.toNat / 2 ^ w) hr
  -- no carry leaves the count bits, so in particular the word does not wrap
  have hquot : s.toNat / 2 ^ w < 4 := by
    rw [Nat.div_lt_iff_lt_mul (Nat.two_pow_pos w)]
    have hlt := s.isLt
    rw [pow_add] at hlt
    omega
  have htoNat : (s + 1).toNat = 2 ^ w * (s.toNat / 2 ^ w) + (s.toNat % 2 ^ w + 1) := by
    have hbound : s.toNat + 1 < 2 ^ (w + 2) := by
      rw [pow_add]
      have hmul : 2 ^ w * (s.toNat / 2 ^ w) ≤ 2 ^ w * 3 := Nat.mul_le_mul_left _ (by omega)
      omega
    rw [toNat_add, toNat_one, Nat.mod_eq_of_lt hbound]
    omega
  have hflags : isSealed (s + 1) = isSealed s ∧ isWaiting (s + 1) = isWaiting s :=
    flags_of_div_eq (by rw [htoNat, hdiv])
  refine ⟨hflags.1, hflags.2, ?_⟩
  rw [active_eq, active_eq, htoNat, hmod]

/-- Subtracting one moves the count only. -/
private theorem fields_sub_one (h : active s ≠ 0) :
    isSealed (s - 1) = isSealed s ∧ isWaiting (s - 1) = isWaiting s ∧
      active (s - 1) + 1 = active s := by
  rw [active_eq] at h
  have hs := Nat.div_add_mod s.toNat (2 ^ w)
  have hmlt : s.toNat % 2 ^ w < 2 ^ w := Nat.mod_lt _ (Nat.two_pow_pos w)
  have hr : s.toNat % 2 ^ w - 1 < 2 ^ w := by omega
  obtain ⟨hdiv, hmod⟩ := div_mod_of_lt (q := s.toNat / 2 ^ w) hr
  have htoNat : (s - 1).toNat = 2 ^ w * (s.toNat / 2 ^ w) + (s.toNat % 2 ^ w - 1) := by
    have hle : (1 : StateWord w) ≤ s := by
      rw [le_def, toNat_one]
      omega
    rw [toNat_sub_of_le hle, toNat_one]
    omega
  have hflags : isSealed (s - 1) = isSealed s ∧ isWaiting (s - 1) = isWaiting s :=
    flags_of_div_eq (by rw [htoNat, hdiv])
  refine ⟨hflags.1, hflags.2, ?_⟩
  rw [active_eq, active_eq, htoNat, hmod]
  omega

-- ---- What the transitions do to the fields.

@[simp] theorem isSealed_seal (s : StateWord w) : isSealed (sealWord s) = true := by
  rw [isSealed_eq, sealWord, sealedBit, getLsbD_or, getLsbD_twoPow]
  simp

@[simp] theorem isWaiting_seal (s : StateWord w) : isWaiting (sealWord s) = isWaiting s := by
  rw [isWaiting_eq, isWaiting_eq, sealWord, sealedBit, getLsbD_or, getLsbD_twoPow]
  simp

@[simp] theorem active_seal (s : StateWord w) : active (sealWord s) = active s := by
  refine active_congr fun i hi => ?_
  rw [sealWord, sealedBit, getLsbD_or, getLsbD_twoPow]
  have hne : i ≠ w + 1 := by omega
  simp [hne.symm]

@[simp] theorem isSealed_markWaiting (s : StateWord w) : isSealed (markWaiting s) = isSealed s := by
  rw [isSealed_eq, isSealed_eq, markWaiting, waitingBit_eq, getLsbD_or, getLsbD_twoPow]
  simp

@[simp] theorem isWaiting_markWaiting (s : StateWord w) : isWaiting (markWaiting s) = true := by
  rw [isWaiting_eq, markWaiting, waitingBit_eq, getLsbD_or, getLsbD_twoPow]
  simp

@[simp] theorem active_markWaiting (s : StateWord w) : active (markWaiting s) = active s := by
  refine active_congr fun i hi => ?_
  rw [markWaiting, waitingBit_eq, getLsbD_or, getLsbD_twoPow]
  have hne : i ≠ w := by omega
  simp [hne.symm]

@[simp] theorem isSealed_zero : isSealed (0 : StateWord w) = false := by
  simp [isSealed]

@[simp] theorem active_zero : active (0 : StateWord w) = 0 := by
  simp [active]

@[simp] theorem isSealed_sealedBit : isSealed (sealedBit w) = true := by
  simpa [sealWord] using isSealed_seal (0 : StateWord w)

@[simp] theorem active_sealedBit : active (sealedBit w) = 0 := by
  have h := active_seal (0 : StateWord w)
  rw [active_zero] at h
  simpa [sealWord] using h

/-- **Acquisition.** It is refused exactly on a sealed word, stops the process
exactly when the count is full, and else adds one to the count. -/
theorem acquireStep_spec (s : StateWord w) : (isSealed s = true ∧ acquireStep s = .rejected) ∨
    (isSealed s = false ∧ active s = maxActive w ∧ acquireStep s = .failStop) ∨
    (isSealed s = false ∧ ∃ t, acquireStep s = .success t ∧
      isSealed t = false ∧ isWaiting t = isWaiting s ∧ active t = active s + 1) := by
  simp only [acquireStep, full_guard, sealed_guard]
  cases hs : isSealed s with
  | true =>
    rw [if_pos rfl]
    exact .inl ⟨rfl, rfl⟩
  | false =>
    rw [if_neg (by decide)]
    right
    by_cases hfull : active s = maxActive w
    · rw [if_pos hfull]
      exact .inl ⟨rfl, hfull, rfl⟩
    · rw [if_neg hfull]
      obtain ⟨h1, h2, h3⟩ := fields_add_one hfull
      exact .inr ⟨rfl, s + 1, rfl, h1.trans hs, h2, h3⟩

/-- **Release.** It stops the process on a zero count and else takes one off. -/
theorem releaseStep_spec (s : StateWord w) : (active s = 0 ∧ releaseStep s = .failStop) ∨
    (∃ t, releaseStep s = .success t ∧ isSealed t = isSealed s ∧ isWaiting t = isWaiting s ∧
      active t + 1 = active s) := by
  simp only [releaseStep, idle_guard]
  by_cases h : active s = 0
  · rw [if_pos h]
    exact .inl ⟨h, rfl⟩
  · rw [if_neg h]
    exact .inr ⟨s - 1, rfl, fields_sub_one h⟩

/-- A release says whether it was the last. -/
theorem releaseOutcomeStep_eq (s : StateWord w) :
    releaseOutcomeStep s = if active s = 1 then .becameIdle else .stillActive := by
  simp only [releaseOutcomeStep, last_guard]

/-- **Release without notification.** As `releaseStep`, but the last count of a
word with a waiter is kept. -/
theorem releaseWithoutNotificationStep_spec (s : StateWord w) :
    (active s = 0 ∧ releaseWithoutNotificationStep s = .failStop) ∨
    (active s = 1 ∧ isWaiting s = true ∧ releaseWithoutNotificationStep s = .rejected) ∨
    (∃ t, releaseWithoutNotificationStep s = .success t ∧ isSealed t = isSealed s ∧
      isWaiting t = isWaiting s ∧ active t + 1 = active s) := by
  simp only [releaseWithoutNotificationStep, idle_guard, last_guard, waiting_guard]
  by_cases h : active s = 0
  · rw [if_pos h]
    exact .inl ⟨h, rfl⟩
  · rw [if_neg h]
    right
    by_cases hlast : active s = 1 ∧ isWaiting s = true
    · rw [if_pos hlast]
      exact .inl ⟨hlast.1, hlast.2, rfl⟩
    · rw [if_neg hlast]
      exact .inr ⟨s - 1, rfl, fields_sub_one h⟩

theorem releaseWithoutNotificationStep_last (h : releaseWithoutNotificationStep s = .success t)
    (hwaiting : isWaiting s = true) : 0 < active t := by
  simp only [releaseWithoutNotificationStep, idle_guard, last_guard, waiting_guard] at h
  split at h
  next => cases h
  next hzero =>
    split at h
    next => cases h
    next hlast =>
      cases h
      have hone : active s ≠ 1 := fun hone => hlast ⟨hone, hwaiting⟩
      have hsub := (fields_sub_one hzero).2.2
      omega

/-- **Reopening** succeeds exactly on a sealed, idle word. -/
theorem reopenStep_spec (s : StateWord w) :
    (isSealed s = true ∧ active s = 0 ∧ reopenStep s = .success 0) ∨
    (¬(isSealed s = true ∧ active s = 0) ∧ reopenStep s = .rejected) := by
  simp only [reopenStep, idle_guard, sealed_guard]
  by_cases h : isSealed s = true ∧ active s = 0
  · rw [if_pos h]
    exact .inl ⟨h.1, h.2, rfl⟩
  · rw [if_neg h]
    exact .inr ⟨h, rfl⟩

/-- **Idle seal.** A word is proposed only for an open, idle one. -/
theorem idleSealLogic_spec (h : idleSealLogic s = some t) :
    isSealed s = false ∧ active s = 0 ∧ t = sealWord s := by
  unfold idleSealLogic at h
  split at h
  next hz =>
    cases h
    rw [and_or_distrib_left] at hz
    have hz := or_eq_zero_iff.mp hz
    refine ⟨?_, (idle_guard s).mp hz.2, rfl⟩
    simp [isSealed, hz.1]
  next => cases h

/-- **Undoing an idle seal** succeeds exactly on a sealed, idle word. -/
theorem undoIdleSealLogic_spec (s : StateWord w) :
    (isSealed s = true ∧ active s = 0 ∧ ∃ t, undoIdleSealLogic s = some t ∧
      isSealed t = false ∧ isWaiting t = isWaiting s ∧ active t = 0) ∨
    (¬(isSealed s = true ∧ active s = 0) ∧ undoIdleSealLogic s = none) := by
  simp only [undoIdleSealLogic, idle_guard, sealed_guard]
  by_cases h : isSealed s = true ∧ active s = 0
  · rw [if_pos h]
    refine .inl ⟨h.1, h.2, _, rfl, ?_, ?_, ?_⟩
    · rw [isSealed_eq, sealedBit, getLsbD_and, getLsbD_not, getLsbD_twoPow]
      simp
    · rw [isWaiting_eq, isWaiting_eq, sealedBit, getLsbD_and, getLsbD_not, getLsbD_twoPow]
      simp
    · rw [← h.2]
      refine active_congr fun i hi => ?_
      rw [sealedBit, getLsbD_and, getLsbD_not, getLsbD_twoPow]
      have hne : i ≠ w + 1 := by omega
      have hlt : i < w + 2 := by omega
      simp [hne.symm, hlt]
  · rw [if_neg h]
    exact .inr ⟨h, rfl⟩

end Xlfn.Kernel
