import Mathlib.Data.List.Basic
import Xlfn.Kernel.Quota
import Xlfn.Lib.Machine
import Xlfn.Lib.Table

/-!
# Xlfn — who maintains the cache

Any thread may find pending nodes and ask for maintenance. Requests are counted in one cell: who
finds it at zero drives, and polls until a subtraction takes the cell back to zero; the others
leave at once. A request that arrives while the driver polls makes it poll again.

* `threadStep`, `step` — one access of `try_quiesce_and_drain`.
* `Inv` — the counter is what the driver has still to answer for.
-/

namespace Xlfn.Cache.Maintenance

open Lib Kernel List

/-- A thread inside `try_quiesce_and_drain`. A driver knows the requests its next subtraction takes
(`consumed`); `since` is history: the requests recorded before its poll began. -/
inductive Pc where
  /-- Are there pending nodes at all? -/
  | test
  | request
  /-- The loop of a poll reads `pending_nodes`. -/
  | poll (consumed since : Nat)
  | quiesce (consumed since : Nat)
  /-- The kernel has handed out a batch, and the driver accounts for it. -/
  | account (consumed since : Nat)
  | settle (consumed : Nat)
  /-- `clear_saturated_weight_if_empty`, no longer as the driver. -/
  | clear
  | finished
deriving DecidableEq

/-- This thread has the role of the driver. -/
def Pc.drives : Pc → Bool
  | poll _ _ => true
  | quiesce _ _ => true
  | account _ _ => true
  | settle _ => true
  | _ => false

/-- The `fail_stop` branches. -/
inductive Abort where
  | overflow
  | underflow
deriving DecidableEq

/-- `recorded` and `polled` are history: how many requests have been recorded, and how many of
them before the beginning of the latest poll that ended. -/
structure State where
  maintenanceRequests : Nat
  pendingNodes        : Nat
  threads             : List Pc
  aborted             : Option Abort
  recorded            : Nat
  polled              : Nat
deriving DecidableEq

namespace State

def goto (s : State) (i : Nat) (pc : Pc) : State := { s with threads := s.threads.set i pc }

def setRequests (s : State) (requests : Nat) : State := { s with maintenanceRequests := requests }

/-- A request is recorded. -/
def record (s : State) (requests : Nat) : State :=
  { s with maintenanceRequests := requests, recorded := s.recorded + 1 }

/-- A poll that began after `since` requests has ended. -/
def complete (s : State) (since : Nat) : State := { s with polled := since }

def abort (s : State) (why : Abort) : State := { s with aborted := some why }

end State

/-- One access of thread `i`; `batch` is the kernel's answer to `poll_quiesce`. -/
def threadStep (usizeMax : Nat) (s : State) (i : Nat) (batch : Bool) : Pc → Option State
  | .test => some (s.goto i (if s.pendingNodes = 0 then .finished else .request))
  | .request =>
    if s.maintenanceRequests < usizeMax then
      if s.maintenanceRequests ≠ 0 then
        some ((s.record (s.maintenanceRequests + 1)).goto i .finished)
      else
        some ((s.record (s.maintenanceRequests + 1)).goto i (.poll 1 (s.recorded + 1)))
    else some (s.abort .overflow)
  | .poll consumed since =>
    if s.pendingNodes ≠ 0 then some (s.goto i (.quiesce consumed since))
    else some ((s.complete since).goto i (.settle consumed))
  | .quiesce consumed since =>
    if batch then some (s.goto i (.account consumed since))
    else some ((s.complete since).goto i (.settle consumed))
  | .account consumed since => some (s.goto i (.poll consumed since))
  | .settle consumed =>
    match checkedSubOrAbort s.maintenanceRequests consumed with
    | none => some (s.abort .underflow)
    | some requests =>
      if s.maintenanceRequests = consumed then some ((s.setRequests requests).goto i .clear)
      else
        some ((s.setRequests requests).goto i (.poll (s.maintenanceRequests - consumed) s.recorded))
  | .clear => some (s.goto i .finished)
  | .finished => none

inductive Action where
  /-- A call of `try_quiesce_and_drain`. -/
  | call
  /-- Enqueueing and accounting, by anyone, change the number of pending nodes. -/
  | nodes (pendingNodes : Nat)
  /-- The next access of one thread. -/
  | thread (i : Nat) (batch : Bool)
deriving DecidableEq

def step (usizeMax : Nat) (s : State) (action : Action) : Option State :=
  if s.aborted.isSome then none
  else match action with
  | .call => some { s with threads := s.threads ++ [.test] }
  | .nodes pendingNodes => some { s with pendingNodes := pendingNodes }
  | .thread i batch =>
    match s.threads[i]? with
    | none => none
    | some pc => threadStep usizeMax s i batch pc

def State.new : State where
  maintenanceRequests := 0
  pendingNodes        := 0
  threads             := []
  aborted             := none
  recorded            := 0
  polled              := 0

-- ---- The invariant.

variable {s s' : State} {usizeMax i : Nat} {batch : Bool} {pc : Pc}

/-- What a driver knows: the requests it has not taken on yet are those recorded since its poll
began. -/
def DriverOk (s : State) : Pc → Prop
  | .poll consumed since =>
    0 < consumed ∧ s.polled ≤ since ∧ since ≤ s.recorded ∧
      since + s.maintenanceRequests = s.recorded + consumed
  | .quiesce consumed since =>
    0 < consumed ∧ s.polled ≤ since ∧ since ≤ s.recorded ∧
      since + s.maintenanceRequests = s.recorded + consumed
  | .account consumed since =>
    0 < consumed ∧ s.polled ≤ since ∧ since ≤ s.recorded ∧
      since + s.maintenanceRequests = s.recorded + consumed
  | .settle consumed =>
    0 < consumed ∧ s.polled ≤ s.recorded ∧ s.polled + s.maintenanceRequests = s.recorded + consumed
  | _ => False

/-- Nobody drives, and no request is open. -/
structure Idle (s : State) : Prop where
  nobody   : ∀ (j : Nat) pc, s.threads[j]? = some pc → pc.drives = false
  requests : s.maintenanceRequests = 0
  polled   : s.polled = s.recorded

/-- Thread `i` drives, alone. -/
structure Driven (s : State) (i : Nat) (pc : Pc) : Prop where
  driver : s.threads[i]? = some pc
  drives : pc.drives = true
  alone  : ∀ (j : Nat) pc', s.threads[j]? = some pc' → pc'.drives = true → j = i
  ok     : DriverOk s pc

structure Inv (s : State) : Prop where
  role     : Idle s ∨ ∃ i pc, Driven s i pc
  aborted  : s.aborted ≠ some .underflow

theorem DriverOk.requests_pos (h : DriverOk s pc) : 0 < s.maintenanceRequests := by
  cases pc with
  | poll consumed since | quiesce consumed since | account consumed since =>
    obtain ⟨hpos, -, hle, hsum⟩ := h
    omega
  | settle consumed =>
    obtain ⟨hpos, hle, hsum⟩ := h
    omega
  | _ => exact h.elim

theorem DriverOk.record (h : DriverOk s pc) :
    DriverOk (s.record (s.maintenanceRequests + 1)) pc := by
  cases pc with
  | poll consumed since | quiesce consumed since | account consumed since =>
    obtain ⟨hpos, hpolled, hle, hsum⟩ := h
    exact ⟨hpos, hpolled, Nat.le_succ_of_le hle, by simp only [State.record]; omega⟩
  | settle consumed =>
    obtain ⟨hpos, hle, hsum⟩ := h
    exact ⟨hpos, Nat.le_succ_of_le hle, by simp only [State.record]; omega⟩
  | _ => exact h.elim

theorem DriverOk.congr (h : DriverOk s pc)
    (hrequests : s'.maintenanceRequests = s.maintenanceRequests)
    (hrecorded : s'.recorded = s.recorded) (hpolled : s'.polled = s.polled) : DriverOk s' pc := by
  cases pc with
  | poll consumed since | quiesce consumed since | account consumed since | settle consumed =>
    rw [DriverOk, hrequests, hrecorded, hpolled]
    exact h
  | _ => exact h.elim

theorem role_congr (h : Idle s ∨ ∃ i pc, Driven s i pc) (hthreads : s'.threads = s.threads)
    (hrequests : s'.maintenanceRequests = s.maintenanceRequests)
    (hrecorded : s'.recorded = s.recorded) (hpolled : s'.polled = s.polled) :
    Idle s' ∨ ∃ i pc, Driven s' i pc := by
  refine h.imp (fun hidle => ⟨?_, hrequests.trans hidle.requests, ?_⟩) fun ⟨i, pc, hdriven⟩ =>
    ⟨i, pc, ?_, hdriven.drives, ?_, hdriven.ok.congr hrequests hrecorded hpolled⟩
  · rw [hthreads]
    exact hidle.nobody
  · rw [hpolled, hrecorded]
    exact hidle.polled
  · rw [hthreads]
    exact hdriven.driver
  · rw [hthreads]
    exact hdriven.alone

-- ---- Threads that do not drive.

variable {pc' : Pc}

theorem nobody_goto (h : ∀ (j : Nat) pc, s.threads[j]? = some pc → pc.drives = false)
    (hp : s.threads[i]? = some pc) (hpc' : pc'.drives = false) (j : Nat) (q : Pc)
    (hq : (s.goto i pc').threads[j]? = some q) : q.drives = false := by
  rcases getElem?_set_cases hp hq with ⟨-, rfl⟩ | ⟨-, hq⟩
  · exact hpc'
  · exact h j q hq

theorem Driven.goto_other {d : Nat} {pd : Pc} (h : Driven s d pd) (hp : s.threads[i]? = some pc)
    (hpc : pc.drives = false) (hpc' : pc'.drives = false) : Driven (s.goto i pc') d pd := by
  have hne : i ≠ d := by
    rintro rfl
    rw [h.driver] at hp
    cases hp
    rw [h.drives] at hpc
    cases hpc
  refine ⟨?_, h.drives, fun j q hq hdrives => ?_, h.ok.congr rfl rfl rfl⟩
  · show (s.threads.set i pc')[d]? = some pd
    rw [getElem?_set_ne hne]
    exact h.driver
  · rcases getElem?_set_cases hp hq with ⟨-, rfl⟩ | ⟨-, hq⟩
    · rw [hpc'] at hdrives
      cases hdrives
    · exact h.alone j q hq hdrives

/-- **A thread that does not drive moves on**, and changes neither counter nor history. -/
theorem Inv.goto_other (hinv : Inv s) (hp : s.threads[i]? = some pc) (hpc : pc.drives = false)
    (hpc' : pc'.drives = false) : Inv (s.goto i pc') := by
  refine ⟨hinv.role.imp (fun h => ?_) fun ⟨d, pd, h⟩ => ?_, hinv.aborted⟩
  · exact ⟨nobody_goto h.nobody hp hpc', h.requests, h.polled⟩
  · exact ⟨d, pd, h.goto_other hp hpc hpc'⟩

-- ---- The driver.

theorem Inv.driven (hinv : Inv s) (hp : s.threads[i]? = some pc) (hpc : pc.drives = true) :
    Driven s i pc := by
  rcases hinv.role with h | ⟨d, pd, h⟩
  · rw [h.nobody i pc hp] at hpc
    cases hpc
  · have heq := h.alone i pc hp hpc
    subst heq
    have hsame : pc = pd := Option.some.inj (hp.symm.trans h.driver)
    rw [hsame]
    exact h

theorem Driven.goto (h : Driven s i pc) {t : State} (ht : t.threads = s.threads)
    (hpc' : pc'.drives = true) (hok : DriverOk (t.goto i pc') pc') : Driven (t.goto i pc') i pc' := by
  obtain ⟨hlt, -⟩ := List.getElem_of_getElem? h.driver
  refine ⟨?_, hpc', fun j q hq hdrives => ?_, hok⟩
  · show (t.threads.set i pc')[i]? = some pc'
    rw [ht, getElem?_set_self hlt]
  · have hset : (s.threads.set i pc')[j]? = some q := ht ▸ hq
    rcases getElem?_set_cases h.driver hset with ⟨heq, -⟩ | ⟨-, hq⟩
    · exact heq
    · exact h.alone j q hq hdrives

theorem Driven.leave (h : Driven s i pc) {t : State} (ht : t.threads = s.threads)
    (hpc' : pc'.drives = false) (j : Nat) (q : Pc) (hq : (t.goto i pc').threads[j]? = some q) :
    q.drives = false := by
  have hset : (s.threads.set i pc')[j]? = some q := ht ▸ hq
  rcases getElem?_set_cases h.driver hset with ⟨-, rfl⟩ | ⟨hne, hq⟩
  · exact hpc'
  · by_contra hdrives
    exact hne (h.alone j q hq (Bool.eq_true_of_not_eq_false hdrives))

theorem driverOk_complete {consumed since : Nat} (hpos : 0 < consumed) (hle : since ≤ s.recorded)
    (hsum : since + s.maintenanceRequests = s.recorded + consumed) :
    DriverOk ((s.complete since).goto i (.settle consumed)) (.settle consumed) :=
  ⟨hpos, hle, hsum⟩

/-- **One access of one thread.** -/
theorem Inv.thread (hinv : Inv s) (hp : s.threads[i]? = some pc)
    (h : threadStep usizeMax s i batch pc = some s') : Inv s' := by
  cases pc with
  | test =>
    cases h
    refine hinv.goto_other hp rfl ?_
    split <;> rfl
  | request =>
    simp only [threadStep] at h
    split at h
    next =>
      split at h
      next hopen =>
        cases h
        rcases hinv.role with hidle | ⟨d, pd, hdriven⟩
        · exact absurd hidle.requests hopen
        · have hrecorded : Driven (s.record (s.maintenanceRequests + 1)) d pd :=
            ⟨hdriven.driver, hdriven.drives, hdriven.alone, hdriven.ok.record⟩
          exact ⟨.inr ⟨d, pd, hrecorded.goto_other hp rfl rfl⟩, hinv.aborted⟩
      next hzero =>
        cases h
        have hzero : s.maintenanceRequests = 0 := Decidable.not_not.mp hzero
        rcases hinv.role with hidle | ⟨d, pd, hdriven⟩
        · obtain ⟨hlt, -⟩ := List.getElem_of_getElem? hp
          refine ⟨.inr ⟨i, .poll 1 (s.recorded + 1), ?_, rfl, fun j q hq hdrives => ?_,
            Nat.one_pos, ?_, Nat.le_refl _, ?_⟩, hinv.aborted⟩
          · exact getElem?_set_self hlt
          · rcases getElem?_set_cases hp hq with ⟨heq, -⟩ | ⟨-, hq⟩
            · exact heq
            · rw [hidle.nobody j q hq] at hdrives
              cases hdrives
          · show s.polled ≤ s.recorded + 1
            rw [hidle.polled]
            exact Nat.le_succ _
          · show s.recorded + 1 + (s.maintenanceRequests + 1) = s.recorded + 1 + 1
            rw [hzero]
        · have hpos := hdriven.ok.requests_pos
          omega
    next =>
      cases h
      exact ⟨role_congr hinv.role rfl rfl rfl rfl, nofun⟩
  | poll consumed since | quiesce consumed since =>
    have hdriven := hinv.driven hp rfl
    obtain ⟨hpos, hpolled, hle, hsum⟩ := hdriven.ok
    simp only [threadStep] at h
    split at h
    next =>
      cases h
      exact ⟨.inr ⟨i, _, hdriven.goto rfl rfl ⟨hpos, hpolled, hle, hsum⟩⟩, hinv.aborted⟩
    next =>
      cases h
      exact ⟨.inr ⟨i, _, hdriven.goto (t := s.complete since) rfl rfl
        (driverOk_complete hpos hle hsum)⟩, hinv.aborted⟩
  | account consumed since =>
    have hdriven := hinv.driven hp rfl
    cases h
    exact ⟨.inr ⟨i, _, hdriven.goto rfl rfl hdriven.ok⟩, hinv.aborted⟩
  | settle consumed =>
    have hdriven := hinv.driven hp rfl
    obtain ⟨hpos, hpolled, hsum⟩ := hdriven.ok
    have hle : consumed ≤ s.maintenanceRequests := by omega
    simp only [threadStep, checkedSubOrAbort_of_le hle] at h
    split at h
    next hlast =>
      cases h
      refine ⟨.inl ⟨hdriven.leave rfl rfl, ?_, ?_⟩, hinv.aborted⟩
      · show s.maintenanceRequests - consumed = 0
        omega
      · show s.polled = s.recorded
        omega
    next hmore =>
      cases h
      refine ⟨.inr ⟨i, .poll (s.maintenanceRequests - consumed) s.recorded,
        hdriven.goto (t := s.setRequests (s.maintenanceRequests - consumed)) rfl rfl
          ⟨?_, hpolled, Nat.le_refl _, rfl⟩⟩, hinv.aborted⟩
      omega
  | clear =>
    cases h
    exact hinv.goto_other hp rfl rfl
  | finished => cases h

theorem Inv.step (hinv : Inv s) {action : Action} (h : step usizeMax s action = some s') :
    Inv s' := by
  unfold Maintenance.step at h
  split at h
  next => cases h
  next =>
    cases action with
    | call =>
      cases h
      refine ⟨hinv.role.imp (fun hidle => ?_) fun ⟨d, pd, hdriven⟩ => ?_, hinv.aborted⟩
      · refine ⟨fun j q hq => ?_, hidle.requests, hidle.polled⟩
        rcases getElem?_append_singleton_cases hq with hq | ⟨-, rfl⟩
        · exact hidle.nobody j q hq
        · rfl
      · obtain ⟨hlt, -⟩ := List.getElem_of_getElem? hdriven.driver
        refine ⟨d, pd, (getElem?_append_left hlt).trans hdriven.driver, hdriven.drives,
          fun j q hq hdrives => ?_, hdriven.ok.congr rfl rfl rfl⟩
        rcases getElem?_append_singleton_cases hq with hq | ⟨-, rfl⟩
        · exact hdriven.alone j q hq hdrives
        · cases hdrives
    | nodes pendingNodes =>
      cases h
      exact ⟨role_congr hinv.role rfl rfl rfl rfl, hinv.aborted⟩
    | thread i batch =>
      simp only [] at h
      split at h
      next => cases h
      next pc hp => exact hinv.thread hp h

theorem Inv.new : Inv State.new where
  role := .inl ⟨fun _ _ hq => absurd hq nofun, rfl, rfl⟩
  aborted := nofun

-- ---- The hand-off.

/-- Thread `i` has the role of the driver. -/
def State.DrivenBy (s : State) (i : Nat) : Prop := ∃ pc, s.threads[i]? = some pc ∧ pc.drives = true

theorem Inv.driver_unique (hinv : Inv s) {j : Nat} (hi : s.DrivenBy i) (hj : s.DrivenBy j) :
    i = j := by
  obtain ⟨pi, hpi, hidrives⟩ := hi
  obtain ⟨pj, hpj, hjdrives⟩ := hj
  exact (hinv.driven hpj hjdrives).alone i pi hpi hidrives

theorem Inv.idle (hinv : Inv s) (h : ∀ j, ¬ s.DrivenBy j) : Idle s := by
  rcases hinv.role with hidle | ⟨d, pd, hdriven⟩
  · exact hidle
  · exact absurd ⟨pd, hdriven.driver, hdriven.drives⟩ (h d)

/-- The only access that gives the role up is a subtraction down to zero, and it changes neither
history. -/
theorem Inv.relinquished (hinv : Inv s) (hi : s.DrivenBy i) {action : Action}
    (h : Maintenance.step usizeMax s action = some s') (hleft : ¬ s'.DrivenBy i) :
    s'.polled = s.polled ∧ s'.recorded = s.recorded ∧ ∀ j, ¬ s'.DrivenBy j := by
  obtain ⟨pc, hp, hdrives⟩ := hi
  obtain ⟨hlt, -⟩ := List.getElem_of_getElem? hp
  have hdriven := hinv.driven hp hdrives
  have hstays : ∀ {t : State} {j : Nat} {q : Pc}, t.threads = s.threads → j ≠ i →
      (t.goto j q).DrivenBy i := by
    intro t j q ht hne
    refine ⟨pc, ?_, hdrives⟩
    show (t.threads.set j q)[i]? = some pc
    rw [getElem?_set_ne hne, ht, hp]
  have hkeeps : ∀ {t : State} {q : Pc}, t.threads = s.threads → q.drives = true →
      (t.goto i q).DrivenBy i := by
    intro t q ht hq
    refine ⟨q, ?_, hq⟩
    show (t.threads.set i q)[i]? = some q
    rw [ht, getElem?_set_self hlt]
  unfold Maintenance.step at h
  split at h
  next => cases h
  next =>
    cases action with
    | call =>
      cases h
      exact absurd ⟨pc, (getElem?_append_left hlt).trans hp, hdrives⟩ hleft
    | nodes pendingNodes =>
      cases h
      exact absurd ⟨pc, hp, hdrives⟩ hleft
    | thread j batch =>
      simp only [] at h
      split at h
      next => cases h
      next q hq =>
        by_cases hji : j = i
        · subst hji
          rw [hp] at hq
          cases hq
          cases pc with
          | settle consumed =>
            simp only [threadStep] at h
            split at h
            next =>
              cases h
              exact absurd ⟨_, hp, hdrives⟩ hleft
            next requests hsub =>
              split at h
              next =>
                cases h
                refine ⟨rfl, rfl, fun k ⟨q, hq, hqdrives⟩ => ?_⟩
                have hnone := hdriven.leave (t := s.setRequests requests) rfl rfl k q hq
                rw [hqdrives] at hnone
                cases hnone
              next =>
                cases h
                exact absurd (hkeeps (t := s.setRequests requests) rfl rfl) hleft
          | poll consumed since | quiesce consumed since =>
            simp only [threadStep] at h
            split at h
            next =>
              cases h
              exact absurd (hkeeps rfl rfl) hleft
            next =>
              cases h
              exact absurd (hkeeps (t := s.complete since) rfl rfl) hleft
          | account consumed since =>
            cases h
            exact absurd (hkeeps rfl rfl) hleft
          | _ => cases hdrives
        · have hother : s'.DrivenBy i := by
            cases q with
            | settle consumed | poll consumed since | quiesce consumed since
            | account consumed since =>
              exact absurd (hdriven.alone j _ hq rfl) hji
            | test | clear =>
              cases h
              exact hstays rfl hji
            | request =>
              simp only [threadStep] at h
              split at h
              next =>
                split at h
                next =>
                  cases h
                  exact hstays (t := s.record (s.maintenanceRequests + 1)) rfl hji
                next hzero =>
                  exact absurd hdriven.ok.requests_pos (by omega)
              next =>
                cases h
                exact ⟨pc, hp, hdrives⟩
            | finished => cases h
          exact absurd hother hleft

/-- **The request counter hands the role over without losing a request.** In every state that
threads asking for maintenance can reach, in any interleaving: no subtraction has underflowed; at
most one thread drives; and while nobody drives, as when every call has ended, the counter is zero
and the latest complete poll began after every request ever recorded. The driver gives its role up
only when that poll has already ended: in the access before, every recorded request is polled
for, and the access itself records none. -/
theorem maintenance_handoff (usizeMax : Nat) (h : Reachable (step usizeMax) .new s) :
    s.aborted ≠ some .underflow ∧
      (∀ i j, s.DrivenBy i → s.DrivenBy j → i = j) ∧
      ((∀ j, ¬ s.DrivenBy j) → s.maintenanceRequests = 0 ∧ s.polled = s.recorded) ∧
      ∀ (i : Nat) action s', step usizeMax s action = some s' → s.DrivenBy i → ¬ s'.DrivenBy i →
        s.polled = s.recorded ∧ s'.recorded = s.recorded ∧ s'.maintenanceRequests = 0 := by
  have hinv : Inv s := h.invariant (fun _ _ _ hinv hstep => hinv.step hstep) Inv.new
  refine ⟨hinv.aborted, fun i j hi hj => hinv.driver_unique hi hj, fun hnobody => ?_,
    fun i action s' hstep hi hleft => ?_⟩
  · have hidle := hinv.idle hnobody
    exact ⟨hidle.requests, hidle.polled⟩
  · obtain ⟨hpolled, hrecorded, hnobody⟩ := hinv.relinquished hi hstep hleft
    have hidle := (hinv.step hstep).idle hnobody
    exact ⟨by rw [← hpolled, hidle.polled, hrecorded], hrecorded, hidle.requests⟩

/-- A request arrives while the first driver polls. The driver's subtraction finds it, the driver
polls once more, and only then is the counter zero. -/
theorem maintenance_handoff_second_request : ∃ s : State,
    Reachable (step 3) .new s ∧ s.threads = [.clear, .finished] ∧ s.recorded = 2 ∧
      s.maintenanceRequests = 0 ∧ s.polled = 2 := by
  have hrun : (run (step 3) .new [.nodes 1, .call, .call, .thread 0 false, .thread 1 false,
      .thread 0 false, .thread 1 false, .thread 0 false, .thread 0 false, .thread 0 false,
      .thread 0 false, .thread 0 false, .thread 0 false]).map
        (fun s => (s.threads, s.recorded)) = some ([.clear, .finished], 2) := by
    decide +kernel
  obtain ⟨s, hs, hfields⟩ := Option.map_eq_some_iff.mp hrun
  have hthreads : s.threads = [.clear, .finished] := congrArg (·.1) hfields
  have hrecorded : s.recorded = 2 := congrArg (·.2) hfields
  obtain ⟨-, -, hidle, -⟩ := maintenance_handoff 3 ⟨_, hs⟩
  have hnobody : ∀ j, ¬ s.DrivenBy j := by
    rintro j ⟨pc, hpc, hdrives⟩
    rw [hthreads] at hpc
    match j with
    | 0 =>
      cases hpc
      cases hdrives
    | 1 =>
      cases hpc
      cases hdrives
    | j + 2 => cases hpc
  obtain ⟨hzero, hpolled⟩ := hidle hnobody
  exact ⟨s, ⟨_, hs⟩, hthreads, hrecorded, hzero, hpolled.trans hrecorded⟩

end Xlfn.Cache.Maintenance
