import Mathlib.Data.Nat.Basic

/-!
# Xlfn — checked counters and quotas of the kernel

`invariant.rs` stops the process when an accounting counter would underflow, and
`quota.rs` bounds how many permits are out at once. A function of the model that
can reach `fail_stop` returns an `Option`, and `none` is the aborted process.

* `checkedAtomicDec` — release one unit, or abort.
* `Quota.acquireCount` / `Quota.releaseCount` — take and give back one permit.
* `checkedIncrement` — `checked_add(1)` on a 64-bit counter.
-/

namespace Xlfn.Kernel

/-- The largest value of a 64-bit counter. -/
def u64Max : Nat := 0xFFFFFFFFFFFFFFFF

/-- `u64::checked_add(1)`: `none` on overflow. -/
def checkedIncrement (value : Nat) : Option Nat :=
  if value < u64Max then some (value + 1) else none

theorem checkedIncrement_eq_some {value next : Nat} (h : checkedIncrement value = some next) :
    next = value + 1 ∧ value < u64Max := by
  unfold checkedIncrement at h
  split at h
  · cases h
    exact ⟨rfl, ‹_›⟩
  · cases h

/-- `checked_sub_or_abort`: `none` is `fail_stop`. -/
def checkedSubOrAbort (value amount : Nat) : Option Nat :=
  if amount ≤ value then some (value - amount) else none

/-- `checked_atomic_dec` on the value of the counter. -/
def checkedAtomicDec (value : Nat) : Option Nat := checkedSubOrAbort value 1

theorem checkedSubOrAbort_of_le {value amount : Nat} (h : amount ≤ value) :
    checkedSubOrAbort value amount = some (value - amount) := if_pos h

theorem checkedAtomicDec_of_pos {value : Nat} (h : 0 < value) :
    checkedAtomicDec value = some (value - 1) := if_pos h

/-- A bounded permit counter. -/
structure Quota where
  used  : Nat
  limit : Nat
deriving DecidableEq

/-- Take one permit; `none` when the quota is exhausted. -/
def Quota.acquireCount (quota : Quota) : Option Quota :=
  if quota.used < quota.limit then some { quota with used := quota.used + 1 } else none

/-- Dropping a permit; `none` is the abort of `checked_atomic_dec_relaxed`. -/
def Quota.releaseCount (quota : Quota) : Option Quota :=
  (checkedAtomicDec quota.used).map fun used => { quota with used }

theorem Quota.acquireCount_eq_some {quota quota' : Quota} (h : quota.acquireCount = some quota') :
    quota'.used = quota.used + 1 ∧ quota'.limit = quota.limit ∧ quota.used < quota.limit := by
  unfold Quota.acquireCount at h
  split at h
  · cases h
    exact ⟨rfl, rfl, ‹_›⟩
  · cases h

theorem Quota.releaseCount_of_pos {quota : Quota} (h : 0 < quota.used) :
    quota.releaseCount = some { quota with used := quota.used - 1 } := by
  rw [Quota.releaseCount, checkedAtomicDec_of_pos h]
  rfl

end Xlfn.Kernel
